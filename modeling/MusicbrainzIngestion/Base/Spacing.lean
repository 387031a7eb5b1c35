import Mathlib.Algebra.Group.Action.Defs
import Mathlib.Algebra.Order.Group.Nat
import Mathlib.Data.List.Basic
import Mathlib.Tactic.GCongr

/-! Times that keep their distance, and how many of them a window can hold. -/

namespace Base

universe u

section

variable {τ : Type u} [AddCommMonoid τ] [PartialOrder τ] [IsOrderedAddMonoid τ] {gap : τ}

/-- Times, the latest first, each at least `gap` after every one before it. -/
def Spaced (gap : τ) (times : List τ) : Prop :=
  times.Pairwise fun later earlier => earlier + gap ≤ later

omit [IsOrderedAddMonoid τ] in
theorem Spaced.filter {times : List τ} (h : Spaced gap times) (p : τ → Bool) :
    Spaced gap (times.filter p) := List.Pairwise.filter p h

/-- A new time need only be compared with the latest. -/
theorem Spaced.push (hgap : 0 ≤ gap) {times : List τ} (h : Spaced gap times) {time : τ}
    (hlatest : ∀ latest, times.head? = some latest → latest + gap ≤ time) :
    Spaced gap (time :: times) := by
  refine List.pairwise_cons.mpr ⟨?_, h⟩
  intro t ht
  cases times with
  | nil => cases ht
  | cons latest rest =>
    have hnew := hlatest latest rfl
    rcases List.mem_cons.mp ht with rfl | ht
    · exact hnew
    · calc t + gap
        _ ≤ latest := (List.pairwise_cons.mp h).1 t ht
        _ ≤ latest + gap := le_add_of_nonneg_right hgap
        _ ≤ time := hnew

end

/-- The times that lie in a window. -/
def within (start width : Nat) (times : List Nat) : List Nat :=
  times.filter fun t => start ≤ t && t ≤ start + width

end Base
