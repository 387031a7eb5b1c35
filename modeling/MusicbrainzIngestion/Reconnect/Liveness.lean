import Mathlib.Algebra.BigOperators.Group.Finset.Basic
import Mathlib.Algebra.Order.BigOperators.Group.Finset
import MusicbrainzIngestion.Reconnect.Invariant

/-! No caller waits for ever. What a call has left to do is bounded by the attempts it is
allowed, and whoever has the mutex can go on; so the callers come to an end, and no order of
their steps and no failure of an attempt stands in the way. -/

namespace MusicbrainzIngestion
open Base

namespace MessageQueue

variable {ι : Type} [DecidableEq ι] {maxRetries : Nat} {s : MessageQueue ι}

/-- Nothing but attempts that fail can lie before a call returns. -/
def Call.left (maxRetries : Nat) : Call → Nat
  | .looking => 2 * maxRetries + 6
  | .queued => 2 * maxRetries + 5
  | .rechecking => 2 * maxRetries + 4
  | .connecting n _ => 2 * (maxRetries - n) + 3
  | .sleeping n _ => 2 * (maxRetries - n) + 4
  | .storing _ => 2
  | .collecting => 1
  | .returned _ => 0

def Call.finished : Call → Bool
  | .returned _ => true
  | _ => false

/-- Everything that the callers do, except to call again. -/
def works (_ : MessageQueue ι) : Label ι → Bool
  | .call _ | .lose _ | .closeChannel | .closeConnection => false
  | _ => true

/-- No new call comes. -/
def Draining : Label ι → Prop
  | .call _ => False
  | _ => True

variable [Fintype ι]

/-- How many steps are left to the calls that are open. -/
def left (maxRetries : Nat) (s : MessageQueue ι) : Nat :=
  ∑ i, ((s.calls i).map (Call.left maxRetries)).getD 0

theorem left_update_lt {calls : ι → Option Call} {i : ι} {c : Call} {next : Option Call}
    (hc : calls i = some c) (hlt : (next.map (Call.left maxRetries)).getD 0 < c.left maxRetries) :
    ∑ j, ((Function.update calls i next j).map (Call.left maxRetries)).getD 0 <
      ∑ j, ((calls j).map (Call.left maxRetries)).getD 0 := by
  apply Finset.sum_lt_sum
  · intro j _
    by_cases hj : j = i
    · subst hj
      rw [Function.update_self, hc]
      exact hlt.le
    · rw [Function.update_of_ne hj]
  · refine ⟨i, Finset.mem_univ i, ?_⟩
    rw [Function.update_self, hc]
    exact hlt

theorem left_move {t : MessageQueue ι} {l : Label ι} (h : Move maxRetries s l t)
    (hw : s.works l = true) : t.left maxRetries < s.left maxRetries := by
  cases h with
  | calls | loses | closesChannel | closesConnection => cases hw
  | finds hc | misses hc | locks hc | findsAgain hc | reconnects hc | connects hc | givesUp hc
  | wakes hc | stores hc | collects hc =>
    refine left_update_lt hc ?_
    simp only [Option.map_some, Option.getD_some, Call.left]
    omega
  | sleeps hc hmore =>
    refine left_update_lt hc ?_
    simp only [Option.map_some, Option.getD_some, Call.left]
    omega
  | @cancels i c hc hopen =>
    refine left_update_lt hc ?_
    cases c with
    | returned result => exact absurd rfl (hopen result)
    | _ => exact Nat.succ_pos _

theorem countsDown : (machine maxRetries : Machine (MessageQueue ι) (Label ι)).CountsDown
    (Inv maxRetries) Draining works (left maxRetries) where
  keeps := fun _ _ _ _ h hstep => inv_step h hstep
  works_lt := fun _ _ _ _ _ hstep hw => left_move (step_move hstep) hw
  rests_le := fun s l t hok _ hstep => by
    cases hw : s.works l with
    | true => exact (left_move (step_move hstep) hw).le
    | false =>
      cases step_move hstep with
      | calls => cases hok
      | loses | closesChannel | closesConnection => exact Nat.le_refl _
      | _ => cases hw

omit [DecidableEq ι] in
theorem left_le_card (maxRetries : Nat) (s : MessageQueue ι) :
    s.left maxRetries ≤ Fintype.card ι * (2 * maxRetries + 6) := by
  have hcall : ∀ i ∈ Finset.univ, ((s.calls i).map (Call.left maxRetries)).getD 0 ≤
      2 * maxRetries + 6 := by
    intro i _
    cases s.calls i with
    | none => exact Nat.zero_le _
    | some c =>
      cases c <;> simp only [Option.map_some, Option.getD_some, Call.left] <;> omega
  exact Finset.sum_le_card_nsmul Finset.univ _ _ hcall

/-- What the callers may do next, told how the next attempt ends. None is dropped. -/
noncomputable def offers (fault : Option Error) (_ : MessageQueue ι) : List (Label ι) :=
  Finset.univ.toList.flatMap fun i =>
    [.look i, .lock i, .recheck i, .tryConnect i fault, .wake i, .store i, .collect i]

omit [DecidableEq ι] in
theorem mem_offers {fault : Option Error} {l : Label ι} {i : ι}
    (h : l ∈ [.look i, .lock i, .recheck i, .tryConnect i fault, .wake i, .store i, .collect i]) :
    l ∈ offers fault s :=
  List.mem_flatMap.mpr ⟨i, Finset.mem_toList.mpr (Finset.mem_univ i), h⟩

def Settled (s : MessageQueue ι) : Prop := ∀ i c, s.calls i = some c → c.finished = true

omit [Fintype ι] in
/-- The caller with the mutex can always go on. -/
theorem holder_goes_on {i : ι} {c : Call} (hc : s.calls i = some c) (hholds : c.holds = true)
    (fault : Option Error) :
    ∃ l ∈ [.look i, .lock i, .recheck i, .tryConnect i fault, .wake i, .store i, .collect i],
      Draining l ∧ s.works l = true ∧ (step maxRetries s l).isSome = true := by
  cases c with
  | rechecking =>
    refine ⟨.recheck i, by simp, trivial, rfl, ?_⟩
    simp only [step, recheck, hc]
    split <;> rfl
  | connecting n b =>
    refine ⟨.tryConnect i fault, by simp, trivial, rfl, ?_⟩
    simp only [step, tryConnect, hc]
    cases fault with
    | none => rfl
    | some e => dsimp only; split <;> rfl
  | sleeping n b =>
    refine ⟨.wake i, by simp, trivial, rfl, ?_⟩
    simp only [step, wake, hc, Option.isSome_some]
  | storing c =>
    refine ⟨.store i, by simp, trivial, rfl, ?_⟩
    simp only [step, store, hc, Option.isSome_some]
  | collecting =>
    refine ⟨.collect i, by simp, trivial, rfl, ?_⟩
    simp only [step, collect, hc]
    split <;> rfl
  | _ => cases hholds

theorem neverStuck : (machine maxRetries : Machine (MessageQueue ι) (Label ι)).NeverStuck
    (Inv maxRetries) Settled Draining works (fun _ => True) offers := by
  intro s fault _ hinv hopen
  cases hmutex : s.reconnectMutex with
  | some i =>
    obtain ⟨c, hc, hholds⟩ := (Option.any_eq_true _ _).mp ((hinv.owned i).mpr hmutex)
    obtain ⟨l, hl, hgoes⟩ := holder_goes_on hc hholds fault
    exact ⟨l, mem_offers hl, hgoes⟩
  | none =>
    -- With the mutex free a call that is open is looking or queued.
    unfold Settled at hopen
    push Not at hopen
    obtain ⟨i, c, hc, hunfinished⟩ := hopen
    have houtside : c.holds = false := by
      rw [Bool.eq_false_iff]
      intro hholds
      cases hmutex.symm.trans (hinv.owned.holder hc hholds)
    cases c with
    | looking =>
      refine ⟨.look i, mem_offers (i := i) (by simp), trivial, rfl, ?_⟩
      simp only [machine, step, look, hc]
      split <;> rfl
    | queued =>
      refine ⟨.lock i, mem_offers (i := i) (by simp), trivial, rfl, ?_⟩
      simp only [machine, step, lock, hc, hmutex, Option.isSome_some]
    | returned => exact absurd rfl hunfinished
    | _ => cases houtside

end MessageQueue

open MessageQueue

variable {ι : Type} [DecidableEq ι] {maxRetries : Nat} {s : MessageQueue ι}

/-- While no new call comes the callers take no more steps than this, whatever is lost
meanwhile; and however the attempts end, all the calls can return without one being dropped. -/
theorem every_call_returns [Fintype ι] (h : (machine maxRetries).Reachable s) :
    (∀ ls t, (∀ l ∈ ls, Draining l) → (machine maxRetries).run s ls = some t →
      (machine maxRetries).work works s ls ≤ Fintype.card ι * (2 * maxRetries + 6)) ∧
    ∀ faults : Nat → Option Error, ∃ ls t,
      (machine maxRetries).run s ls = some t ∧ t.Settled ∧
        ls.length ≤ Fintype.card ι * (2 * maxRetries + 6) ∧
        (machine maxRetries).Follows offers faults s ls := by
  have hinv := inv_of_reachable h
  have hcard := left_le_card maxRetries s
  constructor
  · intro ls t hls hrun
    have hwork := countsDown.work_le hls hinv hrun
    omega
  · intro faults
    obtain ⟨ls, t, hrun, hsettled, -, hlength, hfollows⟩ :=
      countsDown.completes neverStuck (fun _ => trivial) hinv
    exact ⟨ls, t, hrun, hsettled, by omega, hfollows⟩

/-- The broker is down for two callers, and stays down. -/
theorem every_call_returns_refused : ∃ s t : MessageQueue Bool, ∃ ls,
    (machine 5).run new [.call false, .call true, .lose 0] = some s ∧
      (machine 5).run s ls = some t ∧ t.Settled ∧ ls.length ≤ 32 ∧
      (machine 5).Follows offers (fun _ => some ["connection refused"]) s ls := by
  have hreachable : (machine 5).Reachable _ :=
    ⟨new, [.call false, .call true, .lose 0], rfl, fun _ _ => trivial, rfl⟩
  obtain ⟨-, hreturns⟩ := every_call_returns hreachable
  obtain ⟨ls, t, hrun, hsettled, hlength, hfollows⟩ :=
    hreturns fun _ => some ["connection refused"]
  exact ⟨_, t, ls, rfl, hrun, hsettled, hlength, hfollows⟩

end MusicbrainzIngestion
