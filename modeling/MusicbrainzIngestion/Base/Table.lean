import Mathlib.Data.List.AList
import Mathlib.Data.List.Dedup
import Mathlib.Algebra.BigOperators.Group.List.Basic
import Mathlib.Algebra.GroupWithZero.Nat

/-! Finite maps with a computable sum over their values. The maps are Mathlib's
association lists without duplicate keys; what is added is updating an entry in
place and the law that lets a total be read off key by key. -/

namespace Base

universe u v

abbrev Table (κ : Type u) (ν : Type v) := AList fun _ : κ => ν

namespace Table

variable {κ : Type u} {ν : Type v} [DecidableEq κ]

/-- Change the entry of `k` when there is one. -/
def modify (t : Table κ ν) (k : κ) (f : ν → ν) : Table κ ν :=
  match t.lookup k with
  | some v => t.insert k (f v)
  | none => t

def values (t : Table κ ν) : List ν := t.entries.map Sigma.snd

def sumBy (f : ν → Nat) (t : Table κ ν) : Nat := (t.values.map f).sum

theorem lookup_modify (t : Table κ ν) (k : κ) (f : ν → ν) :
    (t.modify k f).lookup k = (t.lookup k).map f := by
  unfold modify
  cases h : t.lookup k with
  | none => simp [h]
  | some v => simp

theorem lookup_modify_ne (t : Table κ ν) {k j : κ} (f : ν → ν) (hne : j ≠ k) :
    (t.modify k f).lookup j = t.lookup j := by
  unfold modify
  cases h : t.lookup k with
  | none => rfl
  | some v => simp [AList.lookup_insert_ne hne]

/-- A total is the entry of any one key plus the total of the rest. -/
theorem sumBy_eq_lookup_add_erase (f : ν → Nat) (t : Table κ ν) (k : κ) :
    sumBy f t = ((t.lookup k).map f).getD 0 + sumBy f (t.erase k) := by
  by_cases hk : k ∈ t
  · obtain ⟨v, l₁, l₂, hnot, he, hrest⟩ := List.exists_of_kerase (AList.mem_keys.mp hk)
    have hmem : (⟨k, v⟩ : Sigma fun _ : κ => ν) ∈ t.entries := by simp [he]
    have hl : t.lookup k = some v := AList.mem_lookup_iff.mpr hmem
    have her : (t.erase k).entries = l₁ ++ l₂ := hrest
    simp only [sumBy, values, he, her, hl, List.map_append, List.map_cons, List.sum_append,
      List.sum_cons, Option.map_some, Option.getD_some]
    omega
  · have hl : t.lookup k = none := AList.lookup_eq_none.mpr hk
    have her : (t.erase k).entries = t.entries :=
      List.kerase_of_notMem_keys fun h => hk (AList.mem_keys.mpr h)
    simp [sumBy, values, hl, her]

/-- A total over a table whose keys all occur in `ks` is the sum of the entries of `ks`. -/
theorem sumBy_eq_sum (f : ν → Nat) {ks : List κ} (hn : ks.Nodup) (t : Table κ ν)
    (hk : ∀ k ∈ t, k ∈ ks) :
    sumBy f t = (ks.map fun k => ((t.lookup k).map f).getD 0).sum := by
  induction ks generalizing t with
  | nil =>
    have : t.entries = [] := by
      cases he : t.entries with
      | nil => rfl
      | cons e rest =>
        have hm : e.1 ∈ t := AList.mem_keys.mpr (by simp [AList.keys, he, List.keys])
        exact absurd (hk _ hm) (by simp)
    simp [sumBy, values, this]
  | cons k ks ih =>
    obtain ⟨hnot, hn⟩ := List.nodup_cons.mp hn
    have herase : ∀ j ∈ t.erase k, j ∈ ks := by
      intro j hj
      obtain ⟨hne, hjt⟩ := AList.mem_erase.mp hj
      exact (List.mem_cons.mp (hk j hjt)).resolve_left hne
    rw [sumBy_eq_lookup_add_erase f t k, ih hn (t.erase k) herase, List.map_cons, List.sum_cons]
    congr 2
    apply List.map_congr_left
    intro j hj
    have hne : j ≠ k := fun h => hnot (h ▸ hj)
    rw [AList.lookup_erase_ne hne]

/-! ## Totals after an update -/

variable (f : ν → Nat) (p : ν → Bool) (t : Table κ ν) (k : κ)

theorem sumBy_insert (v : ν) : sumBy f (t.insert k v) = f v + sumBy f (t.erase k) := by
  unfold sumBy values
  rw [AList.entries_insert]
  rfl

theorem sumBy_modify {g : ν → ν} (h : ∀ v, f (g v) = f v) :
    sumBy f (t.modify k g) = sumBy f t := by
  rw [sumBy_eq_lookup_add_erase f t k]
  unfold modify
  cases hk : t.lookup k with
  | none => rw [sumBy_eq_lookup_add_erase f t k, hk]
  | some v => simp [sumBy_insert, h]

omit [DecidableEq κ] in
/-- A count is the total of the indicator. -/
theorem countP_values : t.values.countP p = sumBy (fun v => (p v).toNat) t := by
  unfold sumBy
  induction t.values with
  | nil => rfl
  | cons v vs ih =>
    rw [List.countP_cons, ih, List.map_cons, List.sum_cons]
    cases p v <;> simp [Nat.add_comm]

theorem mem_values {t : Table κ ν} {v : ν} : v ∈ t.values ↔ ∃ k, t.lookup k = some v := by
  simp only [values, List.mem_map, ← AList.mem_lookup_iff, Option.mem_def, Sigma.exists]
  constructor
  · rintro ⟨k, w, h, rfl⟩
    exact ⟨k, h⟩
  · rintro ⟨k, h⟩
    exact ⟨k, v, h, rfl⟩

theorem le_sumBy {k : κ} {v : ν} (h : t.lookup k = some v) : f v ≤ sumBy f t := by
  rw [sumBy_eq_lookup_add_erase f t k, h]
  exact Nat.le_add_right _ _

theorem sumBy_eq_zero (h : ∀ k v, t.lookup k = some v → f v = 0) : sumBy f t = 0 := by
  unfold sumBy
  refine List.sum_eq_zero fun n hn => ?_
  obtain ⟨v, hv, rfl⟩ := List.mem_map.mp hn
  obtain ⟨k, hk⟩ := mem_values.mp hv
  exact h k v hk

/-- Two totals are equal when their entries are, key by key. -/
theorem sumBy_eq_sumBy {μ : Type*} {f : ν → Nat} {g : μ → Nat} {t : Table κ ν} {t' : Table κ μ}
    (h : ∀ k, ((t.lookup k).map f).getD 0 = ((t'.lookup k).map g).getD 0) :
    sumBy f t = sumBy g t' := by
  have hnodup : (t.keys ++ t'.keys).dedup.Nodup := List.nodup_dedup _
  rw [sumBy_eq_sum f hnodup t fun k hk =>
      List.mem_dedup.mpr (List.mem_append_left _ (AList.mem_keys.mp hk)),
    sumBy_eq_sum g hnodup t' fun k hk =>
      List.mem_dedup.mpr (List.mem_append_right _ (AList.mem_keys.mp hk))]
  exact congrArg List.sum (List.map_congr_left fun k _ => h k)

/-- A total depends on the entries, not on their order. -/
theorem sumBy_congr {t t' : Table κ ν} (h : ∀ k, (t.lookup k).map f = (t'.lookup k).map f) :
    sumBy f t = sumBy f t' :=
  sumBy_eq_sumBy fun k => by rw [h]

omit [DecidableEq κ] in
/-- Every entry counts one. -/
theorem sumBy_one : sumBy (fun _ => 1) t = t.keys.length := by
  unfold sumBy values
  rw [AList.keys, List.keys, List.length_map, List.map_const', List.sum_replicate_nat,
    Nat.mul_one, List.length_map]

omit [DecidableEq κ] in
/-- The total over a part, when the rest has nothing to add. -/
theorem sum_filter_values (h : ∀ v ∈ t.values, p v = false → f v = 0) :
    ((t.values.filter p).map f).sum = sumBy f t := by
  unfold sumBy
  generalize t.values = vs at h ⊢
  induction vs with
  | nil => rfl
  | cons v vs ih =>
    have hrest := ih fun w hw => h w (List.mem_cons_of_mem _ hw)
    cases hv : p v with
    | true => simp [hv, hrest]
    | false => simp [hv, hrest, h v List.mem_cons_self hv]

end Table

end Base
