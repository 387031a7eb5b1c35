import Mathlib.Data.List.Basic
import Mathlib.Data.String.Basic

/-! JSON values in memory. An object is an association list kept in key order by
`insert`, which is what a sorted map iterates and prints; reads take the first
entry of a key. A number keeps the three forms a reader distinguishes, a
non-integral one by the shortest text it prints as. -/

namespace Base.Json

inductive Number where
  | posInt (n : UInt64)
  | negInt (n : Int64)
  | float (text : String)
deriving DecidableEq, Repr

inductive Value where
  | null
  | bool (b : Bool)
  | number (n : Number)
  | string (s : String)
  | array (elements : List Value)
  | object (entries : List (String × Value))

def Number.ofI64 (n : Int64) : Number := if n < 0 then .negInt n else .posInt n.toUInt64

def Number.toText : Number → String
  | .posInt n => toString n.toNat
  | .negInt n => toString n.toInt
  | .float text => text

def Number.asI64 : Number → Option Int64
  | .posInt n => if n.toNat ≤ 9223372036854775807 then some n.toInt64 else none
  | .negInt n => some n
  | .float _ => none

/-! ## Objects -/

abbrev Entries := List (String × Value)

namespace Entries

def get (key : String) : Entries → Option Value
  | [] => none
  | (k, v) :: rest => if k = key then some v else get key rest

def insert (key : String) (value : Value) : Entries → Entries
  | [] => [(key, value)]
  | (k, v) :: rest =>
    if key < k then (key, value) :: (k, v) :: rest
    else if key = k then (key, value) :: rest
    else (k, v) :: insert key value rest

/-- The entries of an object literal, later duplicates winning. -/
def ofList (es : List (String × Value)) : Entries :=
  es.foldl (fun m e => insert e.1 e.2 m) []

def Sorted (m : Entries) : Prop := m.Pairwise fun a b => a.1 < b.1

@[simp] theorem get_nil (key : String) : get key [] = none := rfl

theorem get_cons (key k : String) (v : Value) (rest : Entries) :
    get key ((k, v) :: rest) = if k = key then some v else get key rest := rfl

@[simp] theorem get_insert (key j : String) (value : Value) (m : Entries) :
    get j (insert key value m) = if key = j then some value else get j m := by
  induction m with
  | nil => rfl
  | cons e rest ih =>
    obtain ⟨k, v⟩ := e
    simp only [insert]
    split
    · rfl
    · split
      · next heq =>
        subst heq
        by_cases hj : key = j <;> simp [get, hj]
      · next hne =>
        by_cases hk : k = j
        · subst hk
          simp [get, hne]
        · simp [get, hk, ih]

theorem mem_insert {key : String} {value : Value} {m : Entries} {e : String × Value}
    (h : e ∈ insert key value m) : e = (key, value) ∨ e ∈ m := by
  induction m with
  | nil => exact Or.inl (List.mem_singleton.mp h)
  | cons e' rest ih =>
    obtain ⟨k, v⟩ := e'
    simp only [insert] at h
    split at h
    · exact List.mem_cons.mp h
    · split at h
      · exact (List.mem_cons.mp h).imp_right (List.mem_cons_of_mem _)
      · rcases List.mem_cons.mp h with rfl | h
        · exact Or.inr List.mem_cons_self
        · exact (ih h).imp_right (List.mem_cons_of_mem _)

theorem Sorted.insert {m : Entries} (hm : Sorted m) (key : String) (value : Value) :
    Sorted (Entries.insert key value m) := by
  induction m with
  | nil => exact List.pairwise_singleton _ _
  | cons e rest ih =>
    obtain ⟨k, v⟩ := e
    obtain ⟨hk, hrest⟩ := List.pairwise_cons.mp hm
    simp only [Entries.insert]
    split
    · next hlt =>
      refine List.pairwise_cons.mpr ⟨fun b hb => ?_, hm⟩
      rcases List.mem_cons.mp hb with rfl | hb
      · exact hlt
      · exact lt_trans hlt (hk b hb)
    · next hnlt =>
      split
      · next heq =>
        subst heq
        exact List.pairwise_cons.mpr ⟨hk, hrest⟩
      · next hne =>
        refine List.pairwise_cons.mpr ⟨fun b hb => ?_, ih hrest⟩
        rcases mem_insert hb with rfl | hb
        · exact lt_of_le_of_ne (not_lt.mp hnlt) (Ne.symm hne)
        · exact hk b hb

theorem sorted_ofList (es : List (String × Value)) : Sorted (ofList es) := by
  unfold ofList
  suffices h : ∀ m, Sorted m → Sorted (es.foldl (fun m e => insert e.1 e.2 m) m) from
    h [] List.Pairwise.nil
  induction es with
  | nil => exact fun m hm => hm
  | cons e es ih => exact fun m hm => ih _ (hm.insert e.1 e.2)

/-- Writing back the value a key already has changes nothing. -/
theorem insert_get {m : Entries} (hm : Sorted m) {key : String} {value : Value}
    (h : get key m = some value) : insert key value m = m := by
  induction m with
  | nil => cases h
  | cons e rest ih =>
    obtain ⟨k, v⟩ := e
    obtain ⟨hk, hrest⟩ := List.pairwise_cons.mp hm
    rw [get_cons] at h
    by_cases heq : k = key
    · subst heq
      rw [if_pos rfl] at h
      cases h
      simp [insert]
    · rw [if_neg heq] at h
      have hmem : ∃ w, (key, w) ∈ rest := by
        clear ih hm hk hrest
        induction rest with
        | nil => cases h
        | cons e' rest ih' =>
          obtain ⟨k', v'⟩ := e'
          rw [get_cons] at h
          by_cases h' : k' = key
          · exact ⟨v', by rw [h']; exact List.mem_cons_self⟩
          · rw [if_neg h'] at h
            obtain ⟨w, hw⟩ := ih' h
            exact ⟨w, List.mem_cons_of_mem _ hw⟩
      obtain ⟨w, hw⟩ := hmem
      have hlt : k < key := hk _ hw
      simp only [insert, if_neg (lt_asymm hlt), if_neg (Ne.symm heq), ih hrest h]

end Entries

/-! ## Reading values -/

namespace Value

/-- An object literal. -/
def json (es : List (String × Value)) : Value := .object (Entries.ofList es)

def asObject : Value → Option Entries
  | .object m => some m
  | _ => none

def asArray : Value → Option (List Value)
  | .array vs => some vs
  | _ => none

def asStr : Value → Option String
  | .string s => some s
  | _ => none

def asNumber : Value → Option Number
  | .number n => some n
  | _ => none

def asI64 (v : Value) : Option Int64 := v.asNumber.bind Number.asI64

def isNull : Value → Bool
  | .null => true
  | _ => false

/-- `value.get(key)`: absent unless `v` is an object with that key. -/
def get (v : Value) (key : String) : Option Value := v.asObject.bind (Entries.get key)

/-- `value[key]`: `null` unless `v` is an object with that key. -/
def index (v : Value) (key : String) : Value := (v.get key).getD .null

/-- The elements of an array, none for anything else. -/
def elements (v : Value) : List Value := v.asArray.getD []

/-- An optional string as a value. -/
def ofOption : Option String → Value
  | some s => .string s
  | none => .null

/-- `as_object_mut` followed by an insertion: anything else is left alone. -/
def insert (v : Value) (key : String) (value : Value) : Value :=
  match v with
  | .object m => .object (Entries.insert key value m)
  | v => v

@[simp] theorem get_object (m : Entries) (key : String) :
    (Value.object m).get key = Entries.get key m := rfl

@[simp] theorem get_insert_object (m : Entries) (key j : String) (value : Value) :
    ((Value.object m).insert key value).get j = if key = j then some value else Entries.get j m :=
  Entries.get_insert key j value m

end Value

end Base.Json
