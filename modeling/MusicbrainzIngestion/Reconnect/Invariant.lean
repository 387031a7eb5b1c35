import MusicbrainzIngestion.Base.Mutex
import MusicbrainzIngestion.Reconnect.Moves

/-! What holds of the connection in every reachable state. Only the caller with the mutex can
change it, so the invariant is about that call and not about the others: it is stated once for
a current call, and each piece of a reconnection has its own lemma. -/

namespace MusicbrainzIngestion
open Base

namespace MessageQueue

variable {ι : Type}

/-! ## The caller with the mutex -/

def Call.holds : Call → Bool
  | .rechecking | .connecting _ _ | .sleeping _ _ | .storing _ | .collecting => true
  | _ => false

/-! ## The invariant -/

/-- The retries of a call: never more than are allowed, and each sleep twice as long as the one
before it, up to half a minute. -/
def Call.Paced (maxRetries : Nat) : Call → Prop
  | .connecting n b => n < max 1 maxRetries ∧ b = min (2 ^ n) 30
  | .sleeping n b => 0 < n ∧ n < max 1 maxRetries ∧ b = min (2 ^ (n - 1)) 30
  | _ => True

/-- The attempts that the call has made. -/
def Call.tried : Call → Nat
  | .connecting n _ | .sleeping n _ => n
  | _ => 0

/-- What holds of the connection, told the call that has the mutex. -/
structure Consistent (maxRetries : Nat) (s : MessageQueue ι) (current : Option Call) : Prop where
  live : ∀ c < s.opened, c ∉ s.lost →
    s.connection = some c ∧ (s.channel = some c ∨ current = some (.storing c))
  down : current.any Call.reconnects = true → s.connectedChannel = none
  storing : ∀ c, current = some (.storing c) →
    c + 1 = s.opened ∧ ∀ c', s.connection = some c' → c' = c
  collecting : current = some .collecting → ∀ c, s.channel = some c → c + 1 = s.opened
  known : ∀ c, s.channel = some c ∨ s.connection = some c → c < s.opened
  paced : ∀ call, current = some call → call.Paced maxRetries
  first : 0 < s.opened
  account : s.reconnects + 1 =
    s.opened + s.failures + s.cancelled + if current.any Call.reconnects then 1 else 0
  tried : s.attempts ≤ max 1 maxRetries * (s.opened + s.failures + s.cancelled - 1) +
    (current.map Call.tried).getD 0

structure Inv (maxRetries : Nat) (s : MessageQueue ι) : Prop where
  owned : Owned Call.holds s.calls s.reconnectMutex
  consistent : s.Consistent maxRetries (s.reconnectMutex.bind s.calls)

variable {maxRetries : Nat} {s : MessageQueue ι} {current : Option Call}

theorem connectedChannel_eq_some {c : ChannelId} :
    s.connectedChannel = some c ↔ s.channel = some c ∧ c ∉ s.lost := by
  simp [connectedChannel, Option.filter_eq_some_iff]

theorem connectedChannel_eq_none :
    s.connectedChannel = none ↔ ∀ c, s.channel = some c → c ∈ s.lost := by
  rw [Option.eq_none_iff_forall_ne_some]
  constructor
  · intro h c hc
    by_contra hlost
    exact h c (connectedChannel_eq_some.mpr ⟨hc, hlost⟩)
  · intro h c hc
    obtain ⟨hchannel, hlost⟩ := connectedChannel_eq_some.mp hc
    exact hlost (h c hchannel)

/-- A call that has nothing to do with a reconnection. -/
def Call.plain : Call → Bool
  | .connecting _ _ | .sleeping _ _ | .storing _ => false
  | _ => true

theorem Call.plain_eq (maxRetries : Nat) {call : Call} (h : call.plain = true) : call.reconnects = false ∧
    call.tried = 0 ∧ call.unstored = [] ∧ (∀ c, call ≠ .storing c) ∧
    call.Paced maxRetries := by
  cases call with
  | connecting | sleeping | storing => cases h
  | _ => exact ⟨rfl, rfl, rfl, (fun c heq => by cases heq), trivial⟩

namespace Consistent

/-- The mutex goes from one call that reconnects nothing, or from nobody, to another. -/
theorem change (h : s.Consistent maxRetries current) (hcurrent : current.all Call.plain = true)
    {next : Option Call} (hnext : next.all Call.plain = true)
    (hcollecting : next ≠ some .collecting) : s.Consistent maxRetries next := by
  have hplain : ∀ {call : Option Call}, call.all Call.plain = true →
      call.any Call.reconnects = false ∧ (call.map Call.tried).getD 0 = 0 ∧
        (∀ c, call ≠ some (.storing c)) ∧ ∀ c, call = some c → c.Paced maxRetries := by
    intro call hall
    cases call with
    | none => exact ⟨rfl, rfl, fun _ => by simp, fun _ heq => by cases heq⟩
    | some call =>
      obtain ⟨hreconnects, htried, -, hstoring, hpaced⟩ := Call.plain_eq maxRetries hall
      exact ⟨hreconnects, htried, fun c heq => hstoring c (Option.some.inj heq),
        fun c heq => by cases heq; exact hpaced⟩
  obtain ⟨hbefore, hnone, hnot, -⟩ := hplain hcurrent
  obtain ⟨hafter, hzero, hnever, hpaced⟩ := hplain hnext
  exact {
    live := fun c hc hlost => by
      obtain ⟨hconnection, hchannel⟩ := h.live c hc hlost
      exact ⟨hconnection, .inl (hchannel.resolve_right (hnot c))⟩
    down := fun hdown => by rw [hafter] at hdown; cases hdown
    storing := fun c heq => absurd heq (hnever c)
    collecting := fun heq => absurd heq hcollecting
    known := h.known
    paced := hpaced
    first := h.first
    account := by
      have haccount := h.account
      rw [hbefore] at haccount
      rw [hafter]
      exact haccount
    tried := by
      have htried := h.tried
      rw [hnone] at htried
      rw [hzero]
      exact htried }

variable {calls : ι → Option Call} {mutex : Option ι}

theorem reconnect (h : s.Consistent maxRetries (some .rechecking))
    (hdown : s.connectedChannel = none) :
    ({ s with calls := calls, reconnects := s.reconnects + 1 } : MessageQueue ι).Consistent maxRetries
      (some (.connecting 0 1)) where
  live := fun c hc hlost => by
    obtain ⟨hconnection, hchannel⟩ := h.live c hc hlost
    exact ⟨hconnection, .inl (hchannel.resolve_right fun heq => by cases heq)⟩
  down := fun _ => hdown
  storing := fun c heq => by cases heq
  collecting := fun heq => by cases heq
  known := h.known
  paced := fun call heq => by
    cases heq
    exact ⟨by omega, rfl⟩
  first := h.first
  account := by
    have haccount := h.account
    simp only [Option.any_some, Call.reconnects, Bool.false_eq_true, if_false, if_true] at haccount ⊢
    omega
  tried := h.tried

/-- A channel that is down is replaced: every channel opened before was lost. -/
theorem connect {n b : Nat} (h : s.Consistent maxRetries (some (.connecting n b))) :
    ({ s with
        calls := calls, connection := some s.opened, opened := s.opened + 1
        attempts := s.attempts + 1 } : MessageQueue ι).Consistent maxRetries
      (some (.storing s.opened)) where
  live := fun c hc hlost => by
    by_cases hnew : c = s.opened
    · rw [hnew]
      exact ⟨rfl, .inr rfl⟩
    · have hold : c < s.opened := Nat.lt_of_le_of_ne (Nat.le_of_lt_succ hc) hnew
      obtain ⟨-, hchannel⟩ := h.live c hold hlost
      have hstill : s.channel = some c := hchannel.resolve_right fun heq => by cases heq
      exact absurd (connectedChannel_eq_none.mp (h.down rfl) c hstill) hlost
  down := fun hdown => by cases hdown
  storing := fun c heq => by
    cases heq
    exact ⟨rfl, fun c' hc' => (Option.some.inj hc').symm⟩
  collecting := fun heq => by cases heq
  known := fun c hc => by
    rcases hc with hc | hc
    · exact Nat.lt_succ_of_lt (h.known c (.inl hc))
    · rw [← Option.some.inj hc]
      exact Nat.lt_succ_self _
  paced := fun call heq => by
    cases heq
    trivial
  first := Nat.succ_pos _
  account := by
    have haccount := h.account
    simp only [Option.any_some, Call.reconnects, Bool.false_eq_true, if_false, if_true] at haccount ⊢
    omega
  tried := by
    have htried := h.tried
    obtain ⟨hn, -⟩ := h.paced _ rfl
    have hfirst := h.first
    obtain ⟨done, hdone⟩ : ∃ done, s.opened + s.failures + s.cancelled = done + 1 :=
      ⟨s.opened + s.failures + s.cancelled - 1, by omega⟩
    rw [hdone] at htried
    have hnext : s.opened + 1 + s.failures + s.cancelled - 1 = done + 1 := by omega
    simp only [Option.map_some, Option.getD_some, Call.tried, Nat.add_sub_cancel] at htried ⊢
    rw [hnext, Nat.mul_succ]
    omega

/-- A reconnection that ends without a channel. -/
theorem abandon {n b : Nat} {call : Call} (h : s.Consistent maxRetries (some call))
    (hcall : call = .connecting n b ∨ call = .sleeping n b)
    {failures cancelled attempts : Nat}
    (hends : failures + cancelled = s.failures + s.cancelled + 1)
    (htries : attempts ≤ s.attempts + (max 1 maxRetries - n)) :
    ({ s with
        calls := calls, reconnectMutex := mutex, failures := failures, cancelled := cancelled
        attempts := attempts } : MessageQueue ι).Consistent maxRetries none where
  live := fun c hc hlost => by
    obtain ⟨hconnection, hchannel⟩ := h.live c hc hlost
    refine ⟨hconnection, .inl (hchannel.resolve_right fun heq => ?_)⟩
    rcases hcall with rfl | rfl <;> cases heq
  down := fun hdown => by cases hdown
  storing := fun c heq => by cases heq
  collecting := fun heq => by cases heq
  known := h.known
  paced := fun call heq => by cases heq
  first := h.first
  account := by
    have haccount := h.account
    have hreconnects : call.reconnects = true := by rcases hcall with rfl | rfl <;> rfl
    simp only [Option.any_some, hreconnects, if_true] at haccount
    simp only [Option.any_none, Bool.false_eq_true, if_false]
    omega
  tried := by
    have htried := h.tried
    have hn : n < max 1 maxRetries ∧ call.tried = n := by
      have hpaced := h.paced _ rfl
      rcases hcall with rfl | rfl
      · exact ⟨hpaced.1, rfl⟩
      · exact ⟨hpaced.2.1, rfl⟩
    have hfirst := h.first
    obtain ⟨done, hdone⟩ : ∃ done, s.opened + s.failures + s.cancelled = done + 1 :=
      ⟨s.opened + s.failures + s.cancelled - 1, by omega⟩
    rw [hdone] at htried
    have hnext : s.opened + failures + cancelled - 1 = done + 1 := by omega
    simp only [Option.map_some, Option.getD_some, hn.2, Nat.add_sub_cancel] at htried
    simp only [Option.map_none, Option.getD_none]
    rw [hnext, Nat.mul_succ]
    omega

theorem sleep {n b : Nat} (h : s.Consistent maxRetries (some (.connecting n b)))
    (hmore : n + 1 < maxRetries) :
    ({ s with calls := calls, attempts := s.attempts + 1 } : MessageQueue ι).Consistent maxRetries
      (some (.sleeping (n + 1) b)) where
  live := fun c hc hlost => by
    obtain ⟨hconnection, hchannel⟩ := h.live c hc hlost
    exact ⟨hconnection, .inl (hchannel.resolve_right fun heq => by cases heq)⟩
  down := fun _ => h.down rfl
  storing := fun c heq => by cases heq
  collecting := fun heq => by cases heq
  known := h.known
  paced := fun call heq => by
    cases heq
    exact ⟨Nat.succ_pos n, by omega, (h.paced _ rfl).2⟩
  first := h.first
  account := h.account
  tried := Nat.succ_le_succ h.tried

/-- The next sleep is twice as long. -/
theorem wake {n b : Nat} (h : s.Consistent maxRetries (some (.sleeping n b))) :
    ({ s with calls := calls } : MessageQueue ι).Consistent maxRetries
      (some (.connecting n (min (b * 2) 30))) where
  live := fun c hc hlost => by
    obtain ⟨hconnection, hchannel⟩ := h.live c hc hlost
    exact ⟨hconnection, .inl (hchannel.resolve_right fun heq => by cases heq)⟩
  down := fun _ => h.down rfl
  storing := fun c heq => by cases heq
  collecting := fun heq => by cases heq
  known := h.known
  paced := fun call heq => by
    cases heq
    obtain ⟨hpos, hn, hb⟩ := h.paced _ rfl
    refine ⟨hn, ?_⟩
    obtain ⟨k, rfl⟩ := Nat.exists_eq_succ_of_ne_zero hpos.ne'
    rw [hb, Nat.succ_sub_one, Nat.pow_succ]
    omega
  first := h.first
  account := h.account
  tried := h.tried

theorem store {c : ChannelId} (h : s.Consistent maxRetries (some (.storing c))) :
    ({ s with calls := calls, channel := some c } : MessageQueue ι).Consistent maxRetries
      (some .collecting) where
  live := fun c' hc' hlost => by
    obtain ⟨hconnection, -⟩ := h.live c' hc' hlost
    have hsame : c' = c := (h.storing c rfl).2 c' hconnection
    exact ⟨hconnection, .inl (congrArg some hsame.symm)⟩
  down := fun hdown => by cases hdown
  storing := fun c heq => by cases heq
  collecting := fun _ c' hc' => by
    rw [← Option.some.inj hc']
    exact (h.storing c rfl).1
  known := fun c' hc' => by
    rcases hc' with hc' | hc'
    · rw [← Option.some.inj hc']
      exact Nat.lt_of_succ_le (h.storing c rfl).1.le
    · exact h.known c' (.inr hc')
  paced := fun call heq => by
    cases heq
    trivial
  first := h.first
  account := h.account
  tried := h.tried

/-- The channel that nobody else knows of is lost with the call that opened it. -/
theorem discard {c : ChannelId} (h : s.Consistent maxRetries (some (.storing c))) :
    ({ s with calls := calls, reconnectMutex := mutex, lost := c :: s.lost } : MessageQueue ι).Consistent
      maxRetries none where
  live := fun c' hc' hlost => by
    rw [List.mem_cons, not_or] at hlost
    obtain ⟨hconnection, hchannel⟩ := h.live c' hc' hlost.2
    refine ⟨hconnection, .inl (hchannel.resolve_right fun heq => hlost.1 ?_)⟩
    cases heq
    rfl
  down := fun hdown => by cases hdown
  storing := fun c heq => by cases heq
  collecting := fun heq => by cases heq
  known := h.known
  paced := fun call heq => by cases heq
  first := h.first
  account := h.account
  tried := h.tried

/-- Losing channels, and forgetting those that are lost, opens nothing. -/
theorem shrink (h : s.Consistent maxRetries current) {connection channel : Option ChannelId}
    (gone : List ChannelId) (hconnection : s.connection = connection ∨
      connection = none ∧ gone = s.connection.toList)
    (hchannel : s.channel = channel ∨ channel = none ∧ gone = s.channel.toList) :
    ({ s with connection := connection, channel := channel, lost := gone ++ s.lost } :
      MessageQueue ι).Consistent maxRetries current where
  live := fun c hc hlost => by
    rw [List.mem_append, not_or] at hlost
    obtain ⟨hheld, hstored⟩ := h.live c hc hlost.2
    have hnot : ∀ slot : Option ChannelId, gone = slot.toList → slot ≠ some c := by
      intro slot hgone hslot
      rw [hgone, hslot] at hlost
      exact hlost.1 (List.mem_singleton_self c)
    constructor
    · rcases hconnection with rfl | ⟨-, hgone⟩
      · exact hheld
      · exact absurd hheld (hnot _ hgone)
    · rcases hchannel with rfl | ⟨-, hgone⟩
      · exact hstored
      · exact .inr (hstored.resolve_left (hnot _ hgone))
  down := fun hdown => by
    rw [connectedChannel_eq_none]
    intro c hc
    rcases hchannel with rfl | ⟨rfl, -⟩
    · exact List.mem_append_right _ (connectedChannel_eq_none.mp (h.down hdown) c hc)
    · cases hc
  storing := fun c heq => by
    obtain ⟨hc, honly⟩ := h.storing c heq
    refine ⟨hc, fun c' hc' => ?_⟩
    rcases hconnection with rfl | ⟨rfl, -⟩
    · exact honly c' hc'
    · cases hc'
  collecting := fun heq c hc => by
    rcases hchannel with rfl | ⟨rfl, -⟩
    · exact h.collecting heq c hc
    · cases hc
  known := fun c hc => by
    rcases hc with hc | hc
    · rcases hchannel with rfl | ⟨rfl, -⟩
      · exact h.known c (.inl hc)
      · cases hc
    · rcases hconnection with rfl | ⟨rfl, -⟩
      · exact h.known c (.inr hc)
      · cases hc
  paced := h.paced
  first := h.first
  account := h.account
  tried := h.tried

/-- The invariant does not look at the calls of the others. -/
theorem frame (h : s.Consistent maxRetries current) :
    ({ s with calls := calls, reconnectMutex := mutex } : MessageQueue ι).Consistent maxRetries current :=
  ⟨h.live, h.down, h.storing, h.collecting, h.known, h.paced, h.first, h.account, h.tried⟩

end Consistent

theorem inv_new : (new : MessageQueue ι).Inv maxRetries where
  owned := fun i => by simp [new]
  consistent := {
    live := fun c hc _ => by
      rw [show c = 0 from Nat.lt_one_iff.mp hc]
      exact ⟨rfl, .inl rfl⟩
    down := fun hdown => by cases hdown
    storing := fun c heq => by cases heq
    collecting := fun heq => by cases heq
    known := fun c hc => by
      rcases hc with hc | hc <;> cases hc <;> exact Nat.one_pos
    paced := fun call heq => by cases heq
    first := Nat.one_pos
    account := rfl
    tried := Nat.zero_le _ }

/-! ## Every step keeps it -/

section Steps

variable [DecidableEq ι] {t : MessageQueue ι} {l : Label ι} {i : ι}

/-- A step of a caller without the mutex. -/
theorem Inv.outside (h : s.Inv maxRetries) {next : Option Call}
    (hc : (s.calls i).any Call.holds = false) (hnext : next.any Call.holds = false) :
    ({ s with calls := Function.update s.calls i next } : MessageQueue ι).Inv maxRetries where
  owned := h.owned.outside hc hnext
  consistent := by
    have hsame : s.reconnectMutex.bind (Function.update s.calls i next) =
        s.reconnectMutex.bind s.calls := h.owned.current_outside hc
    dsimp only
    rw [hsame]
    exact h.consistent.frame

/-- What the caller with the mutex does is what the invariant is told of. -/
theorem Inv.within (h : s.Inv maxRetries) {c next : Call} (hc : s.calls i = some c)
    (hholds : c.holds = true) (hnext : next.holds = true)
    (hcalls : t.calls = Function.update s.calls i (some next))
    (hmutex : t.reconnectMutex = s.reconnectMutex)
    (hstep : s.Consistent maxRetries (some c) → t.Consistent maxRetries (some next)) :
    t.Inv maxRetries := by
  have hholder : s.reconnectMutex = some i := h.owned.holder hc hholds
  have hcurrent := h.consistent
  rw [h.owned.current hc hholds] at hcurrent
  constructor
  · rw [hcalls, hmutex, hholder]
    exact h.owned.within (.inl hholder) hnext
  · rw [hcalls, hmutex, hholder, Option.bind_some, Function.update_self]
    exact hstep hcurrent

theorem Inv.release (h : s.Inv maxRetries) {c : Call} {next : Option Call}
    (hc : s.calls i = some c) (hholds : c.holds = true) (hnext : next.any Call.holds = false)
    (hcalls : t.calls = Function.update s.calls i next) (hmutex : t.reconnectMutex = none)
    (hstep : s.Consistent maxRetries (some c) → t.Consistent maxRetries none) :
    t.Inv maxRetries := by
  have hcurrent := h.consistent
  rw [h.owned.current hc hholds] at hcurrent
  constructor
  · rw [hcalls, hmutex]
    exact h.owned.release (.inl (h.owned.holder hc hholds)) hnext
  · rw [hmutex]
    exact hstep hcurrent

theorem Inv.cancel (h : s.Inv maxRetries) {c : Call} (hc : s.calls i = some c) :
    ({ s with
        calls := Function.update s.calls i none
        reconnectMutex := if s.reconnectMutex = some i then none else s.reconnectMutex
        lost := c.unstored ++ s.lost
        cancelled := if c.reconnects then s.cancelled + 1 else s.cancelled } :
      MessageQueue ι).Inv maxRetries := by
  cases hholds : c.holds with
  | false =>
    have hany : (s.calls i).any Call.holds = false := by rw [hc]; exact hholds
    rw [if_neg (h.owned.ne_of_not_holds hany)]
    cases c with
    | looking | queued | returned => exact h.outside hany rfl
    | _ => cases hholds
  | true =>
    have hholder : s.reconnectMutex = some i := h.owned.holder hc hholds
    refine h.release hc hholds rfl rfl (if_pos hholder) fun hcurrent => ?_
    cases c with
    | connecting n b => exact hcurrent.abandon (.inl rfl) rfl (Nat.le_add_right _ _)
    | sleeping n b => exact hcurrent.abandon (.inr rfl) rfl (Nat.le_add_right _ _)
    | storing c => exact hcurrent.discard
    | rechecking | collecting => exact (hcurrent.change rfl rfl (by simp)).frame
    | _ => cases hholds

theorem inv_step (h : s.Inv maxRetries) (hstep : step maxRetries s l = some t) :
    t.Inv maxRetries := by
  cases step_move hstep with
  | calls hc =>
    refine h.outside ?_ rfl
    rcases hc with hc | ⟨result, hc⟩ <;> rw [hc] <;> rfl
  | finds hc hchannel => exact h.outside (by rw [hc]; rfl) rfl
  | misses hc hchannel => exact h.outside (by rw [hc]; rfl) rfl
  | locks hc hm =>
    have hfree := h.consistent
    rw [hm] at hfree
    refine ⟨h.owned.within (.inr hm) rfl, ?_⟩
    dsimp only [setCall]
    rw [Option.bind_some, Function.update_self]
    exact (hfree.change rfl rfl (by simp)).frame
  | findsAgain hc hchannel =>
    exact h.release hc rfl rfl rfl rfl fun hcurrent => (hcurrent.change rfl rfl (by simp)).frame
  | reconnects hc hchannel =>
    exact h.within hc rfl rfl rfl rfl fun hcurrent => hcurrent.reconnect hchannel
  | connects hc => exact h.within hc rfl rfl rfl rfl fun hcurrent => hcurrent.connect
  | givesUp hc hlast =>
    refine h.release hc rfl rfl rfl rfl fun hcurrent => ?_
    obtain ⟨hn, -⟩ := hcurrent.paced _ rfl
    exact hcurrent.abandon (.inl rfl) (Nat.add_right_comm _ _ _) (by omega)
  | sleeps hc hmore => exact h.within hc rfl rfl rfl rfl fun hcurrent => hcurrent.sleep hmore
  | wakes hc => exact h.within hc rfl rfl rfl rfl Consistent.wake
  | stores hc => exact h.within hc rfl rfl rfl rfl Consistent.store
  | collects hc hr =>
    exact h.release hc rfl rfl rfl rfl fun hcurrent => (hcurrent.change rfl rfl (by simp)).frame
  | cancels hc hopen => exact h.cancel hc
  | @loses c hc => exact ⟨h.owned, h.consistent.shrink [c] (.inl rfl) (.inl rfl)⟩
  | closesChannel => exact ⟨h.owned, h.consistent.shrink _ (.inl rfl) (.inr ⟨rfl, rfl⟩)⟩
  | closesConnection => exact ⟨h.owned, h.consistent.shrink _ (.inr ⟨rfl, rfl⟩) (.inl rfl)⟩

theorem inv_of_reachable (h : (machine maxRetries).Reachable s) : s.Inv maxRetries := by
  refine Machine.ReachableBy.invariant (P := Inv maxRetries) ?_ ?_ h
  · rintro _ rfl
    exact inv_new
  · intro s l t _ hinv hstep
    exact inv_step hinv hstep

end Steps

end MessageQueue

end MusicbrainzIngestion
