import MusicbrainzIngestion.Base.JsonCanonical

/-! The part of JSON Schema that closed records need: every property is required and no
other is allowed. The elements of a unique array are compared as they are, which is
right for values in canonical form. -/

namespace Base.Json

inductive Schema where
  | const (text : String)
  | enum (names : List String)
  | string (minLength : Nat)
  | stringOrNull (minLength : Nat)
  | array (items : Schema)
  | uniqueArray (items : Schema)
  | record (fields : List (String × Schema))

inductive Valid : Schema → Value → Prop
  | const {s : String} : Valid (.const s) (.string s)
  | enum {names : List String} {s : String} : s ∈ names → Valid (.enum names) (.string s)
  | string {n : Nat} {s : String} : n ≤ s.length → Valid (.string n) (.string s)
  | stringOf {n : Nat} {s : String} : n ≤ s.length → Valid (.stringOrNull n) (.string s)
  | null {n : Nat} : Valid (.stringOrNull n) .null
  | array {items : Schema} {xs : List Value} : (∀ x ∈ xs, Valid items x) →
      Valid (.array items) (.array xs)
  | uniqueArray {items : Schema} {xs : List Value} : xs.Nodup → (∀ x ∈ xs, Valid items x) →
      Valid (.uniqueArray items) (.array xs)
  | record {fields : List (String × Schema)} {m : Entries} :
      (∀ e ∈ m, e.1 ∈ fields.map Prod.fst) → (∀ f ∈ fields, (Entries.get f.1 m).isSome) →
      (∀ f ∈ fields, ∀ v, Entries.get f.1 m = some v → Valid f.2 v) →
      Valid (.record fields) (.object m)

theorem Entries.get_foldl_of_not_mem {key : String} {es : List (String × Value)}
    (h : key ∉ es.map Prod.fst) (m : Entries) :
    Entries.get key (es.foldl (fun m e => Entries.insert e.1 e.2 m) m) = Entries.get key m := by
  induction es generalizing m with
  | nil => rfl
  | cons e es ih =>
    rw [List.map_cons, List.mem_cons, not_or] at h
    rw [List.foldl_cons, ih h.2, Entries.get_insert, if_neg (Ne.symm h.1)]

/-- An object literal without repeated keys has what it says. -/
theorem Entries.get_ofList {es : List (String × Value)} (hnodup : (es.map Prod.fst).Nodup)
    {key : String} {v : Value} (h : (key, v) ∈ es) : Entries.get key (Entries.ofList es) = some v := by
  unfold Entries.ofList
  suffices hfold : ∀ m, Entries.get key (es.foldl (fun m e => Entries.insert e.1 e.2 m) m) = some v from
    hfold []
  induction es with
  | nil => cases h
  | cons e es ih =>
    intro m
    rw [List.map_cons, List.nodup_cons] at hnodup
    rcases List.mem_cons.mp h with rfl | h
    · rw [List.foldl_cons, Entries.get_foldl_of_not_mem hnodup.1, Entries.get_insert, if_pos rfl]
    · exact ih hnodup.2 h _

/-- A literal with the keys of a record and valid values is valid. -/
theorem Valid.json {fields : List (String × Schema)} {es : List (String × Value)}
    (hnodup : (fields.map Prod.fst).Nodup)
    (h : List.Forall₂ (fun f e => f.1 = e.1 ∧ Valid f.2 e.2) fields es) :
    Valid (.record fields) (.json es) := by
  have hkeys : es.map Prod.fst = fields.map Prod.fst := by
    induction h with
    | nil => rfl
    | cons hfe _ ih =>
      rw [List.map_cons, List.nodup_cons] at hnodup
      rw [List.map_cons, List.map_cons, hfe.1, ih hnodup.2]
  have hget : ∀ f ∈ fields, ∃ v, Entries.get f.1 (Entries.ofList es) = some v ∧ Valid f.2 v := by
    intro f hf
    obtain ⟨e, he, hkey, hvalid⟩ : ∃ e ∈ es, f.1 = e.1 ∧ Valid f.2 e.2 := by
      clear hnodup hkeys
      induction h with
      | nil => cases hf
      | @cons f' e' _ _ hfe _ ih =>
        rcases List.mem_cons.mp hf with rfl | hf
        · exact ⟨e', List.mem_cons_self, hfe⟩
        · obtain ⟨e, he, hrest⟩ := ih hf
          exact ⟨e, List.mem_cons_of_mem _ he, hrest⟩
    exact ⟨e.2, by rw [hkey]; exact Entries.get_ofList (hkeys ▸ hnodup) he, hvalid⟩
  refine .record (fun e he => ?_) (fun f hf => ?_) (fun f hf v hv => ?_)
  · rw [← hkeys]
    exact List.mem_map_of_mem (Entries.mem_of_ofList he)
  · obtain ⟨v, hv, -⟩ := hget f hf
    rw [hv]
    rfl
  · obtain ⟨w, hw, hvalid⟩ := hget f hf
    rw [hv] at hw
    cases hw
    exact hvalid

end Base.Json
