import MusicbrainzIngestion.Reconnect.Invariant

/-! One connection at a time. Whatever the interleaving of the callers and whenever channels
are lost, a second channel is opened only after the first was lost, and every reconnection
that is counted ends in one new channel, in one error or with its caller. -/

namespace MusicbrainzIngestion
open Base

namespace MessageQueue

variable {ι : Type} {maxRetries : Nat} {s : MessageQueue ι}

/-! ## What the callers get -/

section Callers

variable {i : ι}

/-- While a call reconnects every channel is lost. -/
theorem Inv.lost_of_connecting (h : s.Inv maxRetries) {n b : Nat}
    (hc : s.calls i = some (.connecting n b)) {c : ChannelId} (hopened : c < s.opened) :
    c ∈ s.lost := by
  have hcurrent := h.consistent
  rw [h.owned.current hc rfl] at hcurrent
  by_contra hlost
  obtain ⟨-, hstored | heq⟩ := hcurrent.live c hopened hlost
  · exact hlost (connectedChannel_eq_none.mp (hcurrent.down rfl) c hstored)
  · cases heq

variable [DecidableEq ι] {t : MessageQueue ι} {l : Label ι}

/-- Where the channel of a call that just returned comes from. -/
theorem Move.returns (h : Move maxRetries s l t) {c : ChannelId}
    (hnew : t.calls i = some (.returned (.ok c))) (hold : s.calls i ≠ some (.returned (.ok c))) :
    s.channel = some c ∧ (c ∉ s.lost ∨ s.calls i = some .collecting) := by
  cases h with
  | finds hc hchannel | findsAgain hc hchannel =>
    rcases update_eq_some hnew with ⟨rfl, heq⟩ | heq
    · cases heq
      obtain ⟨hstored, hlost⟩ := connectedChannel_eq_some.mp hchannel
      exact ⟨hstored, .inl hlost⟩
    · exact absurd heq hold
  | collects hc hr =>
    rcases update_eq_some hnew with ⟨rfl, heq⟩ | heq
    · cases heq
      exact ⟨hr c rfl, .inr hc⟩
    · exact absurd heq hold
  | givesUp hc hlast =>
    rcases update_eq_some hnew with ⟨rfl, heq⟩ | heq
    · cases heq
    · exact absurd heq hold
  | loses | closesChannel | closesConnection => exact absurd hnew hold
  | _ =>
    rcases update_eq_some hnew with ⟨rfl, heq⟩ | heq
    · cases heq
    · exact absurd heq hold

/-- A caller that gives up has made all its attempts. -/
theorem Move.exhausts (h : Move maxRetries s l t) {n b : Nat} {e : Error}
    (hc : s.calls i = some (.connecting n b)) (hnew : t.calls i = some (.returned (.error e))) :
    maxRetries ≤ n + 1 := by
  have hold : s.calls i ≠ some (.returned (.error e)) := by
    rw [hc]
    intro heq
    cases heq
  cases h with
  | givesUp hc' hlast =>
    rcases update_eq_some hnew with ⟨rfl, -⟩ | heq
    · rw [hc] at hc'
      cases hc'
      exact hlast
    · exact absurd heq hold
  | collects hc' =>
    rcases update_eq_some hnew with ⟨rfl, -⟩ | heq
    · rw [hc] at hc'
      cases hc'
    · exact absurd heq hold
  | loses | closesChannel | closesConnection => exact absurd hnew hold
  | _ =>
    rcases update_eq_some hnew with ⟨-, heq⟩ | heq
    · cases heq
    · exact absurd heq hold

theorem Inv.lost_of_opens (h : s.Inv maxRetries) (hstep : step maxRetries s l = some t)
    (hopens : s.opened < t.opened) {c : ChannelId} (hopened : c < s.opened) : c ∈ s.lost := by
  cases step_move hstep with
  | connects hc => exact h.lost_of_connecting hc hopened
  | _ => exact absurd hopens (Nat.lt_irrefl _)

end Callers

end MessageQueue

open MessageQueue

variable {ι : Type} [DecidableEq ι] {maxRetries : Nat} {s : MessageQueue ι}

/-- At most one call is past the mutex and at most one channel is not lost; another is opened
only when all before it are lost; and a call returns the channel that is stored, which it
found connected or which is the one that the call has opened, the last so far. -/
theorem one_channel_at_a_time (h : (machine maxRetries).Reachable s) :
    (∀ i j, (s.calls i).any Call.holds = true → (s.calls j).any Call.holds = true → i = j) ∧
      (∀ c c', c < s.opened → c ∉ s.lost → c' < s.opened → c' ∉ s.lost → c = c') ∧
      ∀ l t, step maxRetries s l = some t →
        (s.opened < t.opened → ∀ c < s.opened, c ∈ s.lost) ∧
        ∀ i c, t.calls i = some (.returned (.ok c)) → s.calls i ≠ some (.returned (.ok c)) →
          s.channel = some c ∧ c < s.opened ∧
            (c ∉ s.lost ∨ s.calls i = some .collecting ∧ c + 1 = s.opened) := by
  have hinv := inv_of_reachable h
  refine ⟨fun i j hi hj => hinv.owned.unique hi hj, ?_, ?_⟩
  · intro c c' hc hlost hc' hlost'
    obtain ⟨hconnection, -⟩ := hinv.consistent.live c hc hlost
    obtain ⟨hconnection', -⟩ := hinv.consistent.live c' hc' hlost'
    exact Option.some.inj (hconnection.symm.trans hconnection')
  · intro l t hstep
    refine ⟨fun hopens c hc => hinv.lost_of_opens hstep hopens hc, ?_⟩
    intro i c hnew hold
    obtain ⟨hchannel, hlive⟩ := (step_move hstep).returns hnew hold
    refine ⟨hchannel, hinv.consistent.known c (.inl hchannel), hlive.imp_right fun hc => ⟨hc, ?_⟩⟩
    have hcollecting := hinv.consistent.collecting
    rw [hinv.owned.current hc rfl] at hcollecting
    exact hcollecting rfl c hchannel

/-- The channel is lost under two callers. The one that gets the mutex reconnects with its
second attempt, and the other finds the new channel. -/
def MessageQueue.raced : List (Label Bool) :=
  [.call false, .call true, .lose 0, .look false, .look true, .lock false, .recheck false,
    .tryConnect false (some ["connection refused"]), .wake false, .tryConnect false none,
    .store false, .collect false, .lock true, .recheck true]

theorem one_channel_at_a_time_raced : ∃ s : MessageQueue Bool,
    (machine 5).run new raced = some s ∧ s.opened = 2 ∧ s.reconnects = 1 ∧
      s.calls true = some (.returned (.ok 1)) ∧
      ∀ c c', c < s.opened → c ∉ s.lost → c' < s.opened → c' ∉ s.lost → c = c' := by
  have hreachable : (machine 5).Reachable _ := ⟨new, raced, rfl, fun _ _ => trivial, rfl⟩
  obtain ⟨-, hone, -⟩ := one_channel_at_a_time hreachable
  exact ⟨_, rfl, rfl, rfl, rfl, hone⟩

/-- Is a reconnection going on? -/
def MessageQueue.reconnecting (s : MessageQueue ι) : Bool :=
  (s.reconnectMutex.bind s.calls).any Call.reconnects

theorem MessageQueue.tried_le {current : Option Call}
    (h : ∀ c, current = some c → c.Paced maxRetries) : (current.map Call.tried).getD 0 ≤
      max 1 maxRetries * (if current.any Call.reconnects then 1 else 0) := by
  cases current with
  | none => exact Nat.zero_le _
  | some c =>
    have hpaced := h c rfl
    cases c with
    | connecting n b => exact hpaced.1.le.trans (Nat.mul_one _).ge
    | sleeping n b => exact hpaced.2.1.le.trans (Nat.mul_one _).ge
    | _ => exact Nat.zero_le _

/-- Every reconnection that is counted has opened one channel, failed, been dropped or is going
on; no reconnection makes more attempts than it is allowed, none gives up before, and each
sleep between two attempts is twice the one before it, up to half a minute. -/
theorem reconnections_accounted (h : (machine maxRetries).Reachable s) :
    s.reconnects + 1 =
        s.opened + s.failures + s.cancelled + (if s.reconnecting then 1 else 0) ∧
      s.attempts ≤ max 1 maxRetries * s.reconnects ∧
      (∀ i n b, s.calls i = some (.sleeping n b) → n < maxRetries ∧ b = min (2 ^ (n - 1)) 30) ∧
      ∀ i n b l t e, s.calls i = some (.connecting n b) → step maxRetries s l = some t →
        t.calls i = some (.returned (.error e)) → n + 1 = max 1 maxRetries := by
  have hinv := inv_of_reachable h
  have hpaced : ∀ i c, s.calls i = some c → c.holds = true → c.Paced maxRetries := by
    intro i c hc hholds
    exact hinv.consistent.paced c (hinv.owned.current hc hholds)
  refine ⟨hinv.consistent.account, ?_, ?_, ?_⟩
  · have haccount := hinv.consistent.account
    have htried := hinv.consistent.tried
    have hfirst := hinv.consistent.first
    obtain ⟨done, hdone⟩ : ∃ done, s.opened + s.failures + s.cancelled = done + 1 :=
      ⟨s.opened + s.failures + s.cancelled - 1, by omega⟩
    rw [hdone] at haccount htried
    calc s.attempts
      _ ≤ max 1 maxRetries * done +
          ((s.reconnectMutex.bind s.calls).map Call.tried).getD 0 := htried
      _ ≤ max 1 maxRetries * done + max 1 maxRetries * (if s.reconnecting then 1 else 0) :=
        Nat.add_le_add_left (tried_le hinv.consistent.paced) _
      _ = max 1 maxRetries * s.reconnects := by
        rw [← Nat.mul_add]
        congr 1
        exact (Nat.succ.inj (haccount.trans (Nat.add_right_comm _ _ _))).symm
  · intro i n b hc
    obtain ⟨hpos, hn, hb⟩ := hpaced i _ hc rfl
    exact ⟨by omega, hb⟩
  · intro i n b l t e hc hstep hnew
    obtain ⟨hn, -⟩ := hpaced i _ hc rfl
    have hlast := (step_move hstep).exhausts hc hnew
    omega

/-- Between the two attempts. -/
theorem reconnections_accounted_sleeping : ∃ s : MessageQueue Bool,
    (machine 5).run new (raced.take 8) = some s ∧ s.reconnecting = true ∧
      s.reconnects + 1 = s.opened + s.failures + s.cancelled + 1 ∧ s.attempts ≤ 5 := by
  have hreachable : (machine 5).Reachable _ :=
    ⟨new, raced.take 8, rfl, fun _ _ => trivial, rfl⟩
  obtain ⟨haccount, hattempts, -⟩ := reconnections_accounted hreachable
  exact ⟨_, rfl, rfl, haccount, hattempts⟩

end MusicbrainzIngestion
