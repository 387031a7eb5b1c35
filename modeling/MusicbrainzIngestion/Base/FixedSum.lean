import MusicbrainzIngestion.Base.FixedWidth
import MusicbrainzIngestion.Base.Table

/-! Sums and counters of fixed width. A sum is taken one number after the other, so it overflows
exactly where the exact sum is out of range, whatever the order. -/

namespace Base

namespace Computed

variable {w : Nat}

def sum (ns : List (BitVec w)) : Computed (BitVec w) :=
  ns.foldl (fun c n => c.bind fun total => add total n) (exact 0)

theorem foldl_add (ns : List (BitVec w)) (c : Computed (BitVec w)) :
    (ns.foldl (fun c n => c.bind fun total => add total n) c).value.toNat =
        (c.value.toNat + (ns.map BitVec.toNat).sum) % 2 ^ w ∧
      (ns.foldl (fun c n => c.bind fun total => add total n) c).overflowed =
        (c.overflowed || decide (2 ^ w ≤ c.value.toNat + (ns.map BitVec.toNat).sum)) := by
  induction ns generalizing c with
  | nil =>
    have hlt := c.value.isLt
    simp [Nat.mod_eq_of_lt hlt, Nat.not_le.mpr hlt]
  | cons n ns ih =>
    obtain ⟨hvalue, hoverflowed⟩ := ih (c.bind fun total => add total n)
    have hadd : (c.bind fun total => add total n).value.toNat =
        (c.value.toNat + n.toNat) % 2 ^ w := BitVec.toNat_add _ _
    rw [List.foldl_cons, List.map_cons, List.sum_cons, hvalue, hoverflowed, hadd, ← Nat.add_assoc]
    refine ⟨Nat.mod_add_mod _ _ _, ?_⟩
    rw [bind_overflowed, add_overflowed, Bool.or_assoc]
    congr 1
    by_cases h : 2 ^ w ≤ c.value.toNat + n.toNat
    · have hmore : 2 ^ w ≤ c.value.toNat + n.toNat + (ns.map BitVec.toNat).sum := by omega
      simp [h, hmore]
    · rw [Nat.mod_eq_of_lt (Nat.lt_of_not_le h), decide_eq_false h, Bool.false_or]

theorem sum_toNat (ns : List (BitVec w)) :
    (sum ns).value.toNat = (ns.map BitVec.toNat).sum % 2 ^ w := by
  have h := (foldl_add ns (exact 0)).1
  rwa [exact_value, BitVec.ofNat_eq_ofNat, BitVec.toNat_zero, Nat.zero_add] at h

theorem sum_overflowed (ns : List (BitVec w)) :
    (sum ns).overflowed = decide (2 ^ w ≤ (ns.map BitVec.toNat).sum) := by
  have h := (foldl_add ns (exact 0)).2
  rwa [exact_value, exact_overflowed, BitVec.ofNat_eq_ofNat, BitVec.toNat_zero, Nat.zero_add,
    Bool.false_or] at h

end Computed

theorem Build.run_eq_some {α : Type} {b : Build} {c : Computed α} {a : α} (h : b.run c = some a) :
    c.value = a ∧ (b = .checked → c.overflowed = false) := by
  unfold Build.run at h
  split at h
  · cases h
  · next hnot =>
    refine ⟨Option.some.inj h, fun hb => Bool.eq_false_iff.mpr fun hover => hnot ⟨hb, hover⟩⟩

/-! ## The total of a table -/

section Total
universe u v
variable {κ : Type u} {ν : Type v} [DecidableEq κ] (b : Build) (f : ν → Nat) (t : Table κ ν)

/-- The total of a number of each entry, all of them of 64 bits. -/
def total : Option Nat :=
  (b.run (Computed.sum (t.values.map fun v => BitVec.ofNat 64 (f v)))).map BitVec.toNat

/-- The total does not overflow. -/
def TotalFits : Prop := Table.sumBy (fun v => f v % 2 ^ 64) t < 2 ^ 64

omit [DecidableEq κ] in
theorem sum_values : ((t.values.map fun v => BitVec.ofNat 64 (f v)).map BitVec.toNat).sum =
    Table.sumBy (fun v => f v % 2 ^ 64) t := by
  rw [List.map_map]
  rfl

omit [DecidableEq κ] in
theorem sumBy_mod : Table.sumBy (fun v => f v % 2 ^ 64) t % 2 ^ 64 = Table.sumBy f t % 2 ^ 64 := by
  unfold Table.sumBy
  induction t.values with
  | nil => rfl
  | cons v vs ih =>
    rw [List.map_cons, List.sum_cons, List.map_cons, List.sum_cons, Nat.add_mod, ih,
      Nat.mod_mod, ← Nat.add_mod]

omit [DecidableEq κ] in
theorem sumBy_mod_le : Table.sumBy (fun v => f v % 2 ^ 64) t ≤ Table.sumBy f t := by
  unfold Table.sumBy
  induction t.values with
  | nil => exact Nat.le_refl 0
  | cons v vs ih => exact Nat.add_le_add (Nat.mod_le _ _) ih

variable {b f t}

omit [DecidableEq κ] in
theorem total_mod {n : Nat} (h : total b f t = some n) : n = Table.sumBy f t % 2 ^ 64 := by
  obtain ⟨a, hrun, rfl⟩ := Option.map_eq_some_iff.mp h
  rw [← (Build.run_eq_some hrun).1, Computed.sum_toNat, sum_values, sumBy_mod]

omit [DecidableEq κ] in
theorem fits_of_total {n : Nat} (h : total .checked f t = some n) : TotalFits f t := by
  obtain ⟨a, hrun, rfl⟩ := Option.map_eq_some_iff.mp h
  have hover := (Build.run_eq_some hrun).2 rfl
  rw [Computed.sum_overflowed, sum_values] at hover
  exact Nat.lt_of_not_le (of_decide_eq_false hover)

omit [DecidableEq κ] in
theorem total_of_fits (h : b = .checked → TotalFits f t) :
    total b f t = some (Table.sumBy f t % 2 ^ 64) := by
  have hrun : ∃ a, b.run (Computed.sum (t.values.map fun v => BitVec.ofNat 64 (f v))) = some a := by
    unfold Build.run
    split
    · next hboth =>
      have hfits := h hboth.1
      rw [Computed.sum_overflowed, sum_values] at hboth
      exact absurd hfits (Nat.not_lt.mpr (of_decide_eq_true hboth.2))
    · exact ⟨_, rfl⟩
  obtain ⟨a, ha⟩ := hrun
  have htotal : total b f t = some a.toNat := by rw [total, ha, Option.map_some]
  rw [htotal, total_mod htotal]

omit [DecidableEq κ] in
theorem total_of_lt (h : Table.sumBy f t < 2 ^ 64) : total b f t = some (Table.sumBy f t) := by
  rw [total_of_fits fun _ => Nat.lt_of_le_of_lt (sumBy_mod_le f t) h, Nat.mod_eq_of_lt h]

end Total

/-! ## Counters -/

section Counter
variable {b : Build} {w n k : Nat}

/-- A counter of `w` bits is raised by one. -/
def increment (b : Build) (w n : Nat) : Option Nat :=
  (b.run (Computed.add (BitVec.ofNat w n) 1)).map BitVec.toNat

theorem increment_of_lt (h : n + 1 < 2 ^ w) : increment b w n = some (n + 1) := by
  have hone : 1 < 2 ^ w := by omega
  have hn : (BitVec.ofNat w n).toNat = n := BitVec.toNat_ofNat n w ▸ Nat.mod_eq_of_lt (by omega)
  have h1 : (1 : BitVec w).toNat = 1 := BitVec.toNat_ofNat 1 w ▸ Nat.mod_eq_of_lt hone
  have hsum : (BitVec.ofNat w n).toNat + (1 : BitVec w).toNat < 2 ^ w := by rw [hn, h1]; exact h
  have hover : (Computed.add (BitVec.ofNat w n) 1).overflowed = false := by
    rw [Computed.add_overflowed]
    exact decide_eq_false (Nat.not_le.mpr hsum)
  rw [increment, Build.run_exact b hover, Option.map_some, Computed.add_toNat hsum, hn, h1]

/-- Raised, or back at nothing. -/
theorem increment_eq (hn : n < 2 ^ w) (h : increment b w n = some k) :
    k = n + 1 ∧ n + 1 < 2 ^ w ∨ k = 0 := by
  by_cases hlt : n + 1 < 2 ^ w
  · rw [increment_of_lt hlt] at h
    exact .inl ⟨(Option.some.inj h).symm, hlt⟩
  · obtain ⟨a, hrun, rfl⟩ := Option.map_eq_some_iff.mp h
    have hvalue := congrArg BitVec.toNat (Build.run_eq_some hrun).1
    have hadd : (BitVec.ofNat w n + 1).toNat = a.toNat := hvalue
    rw [BitVec.toNat_add, BitVec.toNat_ofNat, BitVec.ofNat_eq_ofNat, BitVec.toNat_ofNat,
      ← Nat.add_mod, show n + 1 = 2 ^ w by omega, Nat.mod_self] at hadd
    exact .inr hadd.symm

end Counter

end Base
