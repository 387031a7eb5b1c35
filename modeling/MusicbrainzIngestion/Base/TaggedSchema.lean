import MusicbrainzIngestion.Base.Json

/-! The part of JSON Schema that tagged events need: exactly one of several object
schemas, each with a constant under the same key, some properties, some of them
required, and other properties allowed or not. When the constants differ, one
alternative that accepts a value is the only one. -/

namespace Base.Json

/-- What a property may hold. A number written with a fraction or an exponent is not taken for
an integer. -/
inductive Property where
  | text (minLength : Nat)
  | dateTime
  | natural
  | naturals
deriving DecidableEq, Repr

def Value.isNatural : Value → Bool
  | .number (.posInt _) => true
  | _ => false

def Property.accepts (isDateTime : String → Bool) : Property → Value → Bool
  | .text minLength, .string s => minLength ≤ s.length
  | .dateTime, .string s => isDateTime s
  | .natural, v => v.isNatural
  | .naturals, .object es => es.all fun e => e.2.isNatural
  | _, _ => false

/-- One alternative, told apart by its tag. -/
structure Variant where
  tag : String
  properties : List (String × Property)
  required : List String
  additional : Bool

section Accepts

variable (isDateTime : String → Bool) (tagKey : String)

def Variant.accepts (w : Variant) : Value → Bool
  | .object es =>
    (Entries.get tagKey es).any (fun v => match v with
      | .string s => s == w.tag
      | _ => false) &&
    w.required.all (fun key => (Entries.get key es).isSome) &&
    w.properties.all (fun p => (Entries.get p.1 es).all (p.2.accepts isDateTime)) &&
    (w.additional || es.all fun e => e.1 == tagKey || w.properties.any fun p => p.1 == e.1)
  | _ => false

/-- Exactly one alternative accepts the value. -/
def oneOf (variants : List Variant) (v : Value) : Bool :=
  (variants.filter fun w => w.accepts isDateTime tagKey v).length == 1

variable {isDateTime tagKey} {v : Value} {w w' : Variant} {variants : List Variant}

theorem Variant.tag_of_accepts (h : w.accepts isDateTime tagKey v = true) :
    ∃ es, v = .object es ∧ Entries.get tagKey es = some (.string w.tag) := by
  cases v with
  | object es =>
    simp only [accepts, Bool.and_eq_true] at h
    obtain ⟨value, hget, hvalue⟩ := (Option.any_eq_true _ _).mp h.1.1.1
    refine ⟨es, rfl, ?_⟩
    rw [hget]
    cases value with
    | string s => simpa using hvalue
    | _ => cases hvalue
  | _ => cases h

theorem Variant.tag_unique (h : w.accepts isDateTime tagKey v = true)
    (h' : w'.accepts isDateTime tagKey v = true) : w.tag = w'.tag := by
  obtain ⟨es, rfl, hget⟩ := tag_of_accepts h
  obtain ⟨es', hes, hget'⟩ := tag_of_accepts h'
  cases hes
  rw [hget] at hget'
  exact Value.string.inj (Option.some.inj hget')

/-- Alternatives with different tags: one that accepts is enough. -/
theorem oneOf_iff (hn : (variants.map Variant.tag).Nodup) :
    oneOf isDateTime tagKey variants v = true ↔
      ∃ w ∈ variants, w.accepts isDateTime tagKey v = true := by
  rw [oneOf, beq_iff_eq, List.length_eq_one_iff]
  constructor
  · rintro ⟨w, hw⟩
    have hmem : w ∈ variants.filter fun w => w.accepts isDateTime tagKey v := by simp [hw]
    exact ⟨w, List.mem_filter.mp hmem⟩
  · rintro ⟨w, hw, haccepts⟩
    induction variants with
    | nil => cases hw
    | cons first rest ih =>
      rw [List.map_cons, List.nodup_cons] at hn
      have hrest : ∀ x ∈ rest, x.tag = w.tag → w.tag ≠ first.tag := by
        intro x hx htag hfirst
        exact hn.1 (hfirst ▸ htag ▸ List.mem_map_of_mem hx)
      rcases List.mem_cons.mp hw with rfl | hw
      · refine ⟨w, ?_⟩
        rw [List.filter_cons, if_pos haccepts, List.filter_eq_nil_iff.mpr]
        intro x hx hacc
        exact hrest x hx (Variant.tag_unique hacc haccepts) rfl
      · have hfirst : ¬ first.accepts isDateTime tagKey v = true := fun hacc =>
          hrest w hw rfl (Variant.tag_unique haccepts hacc)
        rw [List.filter_cons, if_neg hfirst]
        exact ih hn.2 hw

end Accepts

end Base.Json
