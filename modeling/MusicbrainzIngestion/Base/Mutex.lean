import Mathlib.Logic.Function.Basic

/-! Callers that share a mutex. The state keeps what each caller is doing, if it is there at
all, and who has the mutex; the two agree when the one with the mutex is the one that does
something it is needed for. -/

namespace Base

universe u v

variable {ι : Type u} {κ : Type v} {holds : κ → Bool} {calls : ι → Option κ} {mutex : Option ι}
  {i : ι} {call : Option κ}

/-- The mutex is with the one call that is past it. -/
def Owned (holds : κ → Bool) (calls : ι → Option κ) (mutex : Option ι) : Prop :=
  ∀ i, (calls i).any holds = true ↔ mutex = some i

theorem Owned.holder (h : Owned holds calls mutex) {c : κ} (hc : calls i = some c)
    (hholds : holds c = true) : mutex = some i := (h i).mp (by rw [hc]; exact hholds)

theorem Owned.current (h : Owned holds calls mutex) {c : κ} (hc : calls i = some c)
    (hholds : holds c = true) : mutex.bind calls = some c := by
  rw [h.holder hc hholds]
  exact hc

theorem Owned.ne_of_not_holds (h : Owned holds calls mutex) (hc : (calls i).any holds = false) :
    mutex ≠ some i := by
  intro hmutex
  rw [(h i).mpr hmutex] at hc
  cases hc

theorem Owned.unique (h : Owned holds calls mutex) {j : ι} (hi : (calls i).any holds = true)
    (hj : (calls j).any holds = true) : i = j :=
  Option.some.inj (((h i).mp hi).symm.trans ((h j).mp hj))

variable [DecidableEq ι]

/-- A call that is there after a change is the one that was set, or was there before. -/
theorem update_eq_some {c : κ} {j : ι} (h : Function.update calls i call j = some c) :
    j = i ∧ call = some c ∨ calls j = some c := by
  by_cases hj : j = i
  · subst hj
    rw [Function.update_self] at h
    exact .inl ⟨rfl, h⟩
  · rw [Function.update_of_ne hj] at h
    exact .inr h

/-- A caller without the mutex goes on without it. -/
theorem Owned.outside (h : Owned holds calls mutex) (hc : (calls i).any holds = false)
    (hcall : call.any holds = false) : Owned holds (Function.update calls i call) mutex := by
  intro j
  by_cases hj : j = i
  · subst hj
    rw [Function.update_self, hcall]
    exact iff_of_false Bool.false_ne_true (h.ne_of_not_holds hc)
  · rw [Function.update_of_ne hj]
    exact h j

theorem Owned.current_outside (h : Owned holds calls mutex) (hc : (calls i).any holds = false) :
    mutex.bind (Function.update calls i call) = mutex.bind calls := by
  cases hmutex : mutex with
  | none => rfl
  | some j =>
    have hj : j ≠ i := fun hj => h.ne_of_not_holds hc (hj ▸ hmutex)
    exact Function.update_of_ne hj _ _

/-- The caller that has the mutex, or takes it while it is free, goes on with it. -/
theorem Owned.within (h : Owned holds calls mutex) (hm : mutex = some i ∨ mutex = none)
    (hcall : call.any holds = true) : Owned holds (Function.update calls i call) (some i) := by
  intro j
  by_cases hj : j = i
  · subst hj
    rw [Function.update_self, hcall]
    exact iff_of_true rfl rfl
  · have hother : (calls j).any holds = false := by
      rw [Bool.eq_false_iff]
      intro hholds
      rw [h j] at hholds
      rcases hm with hm | hm
      · exact hj (Option.some.inj (hholds.symm.trans hm))
      · cases hholds.symm.trans hm
    rw [Function.update_of_ne hj, hother, Option.some.injEq]
    exact iff_of_false Bool.false_ne_true (Ne.symm hj)

/-- The caller that has the mutex gives it up, or the mutex stays free. -/
theorem Owned.release (h : Owned holds calls mutex) (hm : mutex = some i ∨ mutex = none)
    (hcall : call.any holds = false) : Owned holds (Function.update calls i call) none := by
  intro j
  by_cases hj : j = i
  · subst hj
    rw [Function.update_self, hcall]
    exact iff_of_false Bool.false_ne_true (by simp)
  · rw [Function.update_of_ne hj, h j]
    refine iff_of_false (fun heq => ?_) (by simp)
    rcases hm with hm | hm
    · exact hj (Option.some.inj (heq.symm.trans hm))
    · cases heq.symm.trans hm

/-- A caller leaves, and its guard with it if it has one. -/
theorem Owned.leave (h : Owned holds calls mutex) (hcall : call.any holds = false) :
    Owned holds (Function.update calls i call) (if mutex = some i then none else mutex) := by
  by_cases hm : mutex = some i
  · rw [if_pos hm]
    exact h.release (.inl hm) hcall
  · rw [if_neg hm]
    exact h.outside (Bool.eq_false_iff.mpr fun hholds => hm ((h i).mp hholds)) hcall

end Base
