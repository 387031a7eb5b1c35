import MusicbrainzIngestion.Base.JsonCode

/-! JSON values whose objects are sorted maps at every level, as a reader builds them that inserts
each entry into such a map. Two values are the same when the maps they are read into are equal. -/

namespace Base.Json

mutual

/-- Every object inserted into a sorted map, entry by entry. -/
def Value.canonical : Value → Value
  | .null => .null
  | .bool b => .bool b
  | .number n => .number n
  | .string s => .string s
  | .array vs => .array (canonicalElements vs)
  | .object es => .object (Entries.ofList (canonicalEntries es))

def canonicalElements : List Value → List Value
  | [] => []
  | v :: vs => v.canonical :: canonicalElements vs

def canonicalEntries : List (String × Value) → List (String × Value)
  | [] => []
  | (k, v) :: es => (k, v.canonical) :: canonicalEntries es

end

inductive Value.Canonical : Value → Prop where
  | null : Canonical .null
  | bool (b : Bool) : Canonical (.bool b)
  | number (n : Number) : Canonical (.number n)
  | string (s : String) : Canonical (.string s)
  | array {vs : List Value} (h : ∀ v ∈ vs, Canonical v) : Canonical (.array vs)
  | object {es : Entries} (hs : Entries.Sorted es) (h : ∀ e ∈ es, Canonical e.2) :
    Canonical (.object es)

/-- Equal up to the order of keys. -/
def Value.Same (v w : Value) : Prop := v.canonical = w.canonical

instance Value.Same.decidable (v w : Value) : Decidable (v.Same w) :=
  inferInstanceAs (Decidable (v.canonical = w.canonical))

/-! ## Sorted maps -/

namespace Entries

theorem insert_last {key : String} {m : Entries} (h : ∀ e ∈ m, e.1 < key) (value : Value) :
    insert key value m = m ++ [(key, value)] := by
  induction m with
  | nil => rfl
  | cons e rest ih =>
    obtain ⟨k, v⟩ := e
    have hlt : k < key := h _ List.mem_cons_self
    rw [insert, if_neg (lt_asymm hlt), if_neg (ne_of_gt hlt),
      ih fun e he => h e (List.mem_cons_of_mem _ he)]
    rfl

/-- A sorted map is rebuilt from its entries. -/
theorem ofList_of_sorted {m : Entries} (h : Sorted m) : ofList m = m := by
  suffices hfold : ∀ before : Entries, Sorted (before ++ m) →
      m.foldl (fun m e => insert e.1 e.2 m) before = before ++ m from hfold [] h
  intro before hs
  induction m generalizing before with
  | nil => simp
  | cons e rest ih =>
    obtain ⟨k, v⟩ := e
    have hlast : ∀ e ∈ before, e.1 < k := fun e he =>
      (List.pairwise_append.mp hs).2.2 e he _ List.mem_cons_self
    rw [List.foldl_cons, insert_last hlast]
    have hsplit : before ++ (k, v) :: rest = (before ++ [(k, v)]) ++ rest := by simp
    rw [hsplit] at hs ⊢
    exact ih (List.pairwise_cons.mp h).2 _ hs

theorem mem_of_ofList {es : List (String × Value)} {e : String × Value} (h : e ∈ ofList es) :
    e ∈ es := by
  suffices hfold : ∀ m : Entries, e ∈ es.foldl (fun m e => insert e.1 e.2 m) m → e ∈ m ∨ e ∈ es from
    (hfold [] h).resolve_left (by simp)
  clear h
  induction es with
  | nil =>
    intro m hm
    exact Or.inl hm
  | cons e' es ih =>
    intro m hm
    rcases ih _ hm with hin | hin
    · rcases mem_insert hin with rfl | hin
      · exact Or.inr List.mem_cons_self
      · exact Or.inl hin
    · exact Or.inr (List.mem_cons_of_mem _ hin)

theorem mem_of_get {m : Entries} {key : String} {v : Value} (h : get key m = some v) :
    (key, v) ∈ m := by
  induction m with
  | nil => cases h
  | cons e rest ih =>
    obtain ⟨k, w⟩ := e
    rw [get_cons] at h
    by_cases hk : k = key
    · rw [if_pos hk] at h
      cases h
      rw [hk]
      exact List.mem_cons_self
    · rw [if_neg hk] at h
      exact List.mem_cons_of_mem _ (ih h)

end Entries

/-! ## Canonical values -/

theorem canonicalElements_eq_map (vs : List Value) : canonicalElements vs = vs.map Value.canonical := by
  induction vs with
  | nil => rfl
  | cons v vs ih => rw [canonicalElements, ih, List.map_cons]

theorem canonicalEntries_eq_map (es : List (String × Value)) :
    canonicalEntries es = es.map fun e => (e.1, e.2.canonical) := by
  induction es with
  | nil => rfl
  | cons e es ih => rw [canonicalEntries, ih, List.map_cons]

namespace Value

theorem Canonical.canonical {v : Value} (h : v.Canonical) : v.canonical = v := by
  induction h with
  | null | bool | number | string => rfl
  | @array vs _ ih =>
    rw [Value.canonical, canonicalElements_eq_map, List.map_congr_left ih, List.map_id']
  | @object es hs _ ih =>
    have hsame : es.map (fun e => (e.1, e.2.canonical)) = es := by
      rw [List.map_congr_left fun e he => by rw [ih e he], List.map_id']
    rw [Value.canonical, canonicalEntries_eq_map, hsame, Entries.ofList_of_sorted hs]

/-- Between canonical values nothing but equality is left of being the same. -/
theorem Same.eq {v w : Value} (h : v.Same w) (hv : v.Canonical) (hw : w.Canonical) : v = w := by
  rw [← hv.canonical, ← hw.canonical]
  exact h

theorem Canonical.elements {v : Value} (h : v.Canonical) : ∀ w ∈ v.elements, w.Canonical := by
  cases h with
  | array h => exact h
  | _ => exact fun w hw => by cases hw

theorem Canonical.get {v w : Value} {key : String} (h : v.Canonical) (hw : v.get key = some w) :
    w.Canonical := by
  cases h with
  | object hs h => exact h _ (Entries.mem_of_get hw)
  | _ => cases hw

theorem Canonical.index {v : Value} (h : v.Canonical) (key : String) : (v.index key).Canonical := by
  unfold Value.index
  cases hw : v.get key with
  | none => exact .null
  | some w => exact h.get hw

/-- An object literal of canonical values. -/
theorem canonical_json {es : List (String × Value)} (h : ∀ e ∈ es, e.2.Canonical) :
    (json es).Canonical :=
  .object (Entries.sorted_ofList es) fun e he => h e (Entries.mem_of_ofList he)

theorem Canonical.insert {v w : Value} (h : v.Canonical) (hw : w.Canonical) (key : String) :
    (v.insert key w).Canonical := by
  cases h with
  | object hs h =>
    refine .object (hs.insert _ _) fun e he => ?_
    rcases Entries.mem_insert he with rfl | he
    · exact hw
    · exact h e he
  | array h => exact .array h
  | null => exact .null
  | bool b => exact .bool b
  | number n => exact .number n
  | string s => exact .string s

theorem canonical_ofOption (s : Option String) : (ofOption s).Canonical := by
  cases s with
  | none => exact .null
  | some s => exact .string s

end Value

mutual

/-- What a reader builds is canonical. -/
theorem Value.canonical_isCanonical : ∀ v : Value, v.canonical.Canonical
  | .null => .null
  | .bool b => .bool b
  | .number n => .number n
  | .string s => .string s
  | .array vs => .array (canonicalElements_canonical vs)
  | .object es => .object (Entries.sorted_ofList _) fun e he =>
    canonicalEntries_canonical es e (Entries.mem_of_ofList he)

theorem canonicalElements_canonical : ∀ vs : List Value, ∀ v ∈ canonicalElements vs, v.Canonical
  | [], v, h => by cases h
  | w :: vs, v, h => by
    rw [canonicalElements] at h
    rcases List.mem_cons.mp h with rfl | h
    · exact w.canonical_isCanonical
    · exact canonicalElements_canonical vs v h

theorem canonicalEntries_canonical :
    ∀ es : List (String × Value), ∀ e ∈ canonicalEntries es, e.2.Canonical
  | [], e, h => by cases h
  | (k, w) :: es, e, h => by
    rw [canonicalEntries] at h
    rcases List.mem_cons.mp h with rfl | h
    · exact w.canonical_isCanonical
    · exact canonicalEntries_canonical es e h

end

end Base.Json
