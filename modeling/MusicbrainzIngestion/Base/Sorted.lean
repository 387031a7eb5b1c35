import Mathlib.Data.List.Dedup
import Mathlib.Data.List.Destutter
import Mathlib.Data.List.Sort

/-! `sort` then `dedup`: in a linear order only adjacent duplicates are left to drop. -/

namespace Base

universe u

variable {α : Type u} [DecidableEq α] (r : α → α → Prop) [DecidableRel r]

def sortDedup (values : List α) : List α := (values.insertionSort r).destutter (· ≠ ·)

variable {r} [Std.Total r] [IsTrans α r] [Std.Antisymm r] {values : List α}

theorem sortDedup_eq_dedup : sortDedup r values = (values.insertionSort r).dedup :=
  (List.pairwise_insertionSort r values).destutter_eq_dedup

theorem mem_sortDedup {value : α} : value ∈ sortDedup r values ↔ value ∈ values := by
  rw [sortDedup_eq_dedup, List.mem_dedup, List.mem_insertionSort]

theorem pairwise_sortDedup : (sortDedup r values).Pairwise fun a b => r a b ∧ a ≠ b := by
  rw [sortDedup_eq_dedup]
  have hsorted := (List.pairwise_insertionSort r values).sublist (List.dedup_sublist _)
  exact hsorted.and (List.nodup_dedup (values.insertionSort r))

end Base
