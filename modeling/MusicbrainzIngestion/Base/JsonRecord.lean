import MusicbrainzIngestion.Base.Json
import MusicbrainzIngestion.Base.Table

/-! Records as JSON objects. A record is read field by field, in any order: a field that occurs
twice is an error, an optional one may be missing or `null`. Tables are objects too. -/

namespace Base.Json

universe u

variable {α : Type u}

namespace Value

/-! ## Optional values and sequences -/

def nullable (encode : α → Value) : Option α → Value
  | some a => encode a
  | none => .null

def asNullable (decode : Value → Option α) : Value → Option (Option α)
  | .null => some none
  | v => (decode v).map some

def ofElements (encode : α → Value) (as : List α) : Value := .array (as.map encode)

def asElements (decode : Value → Option α) : Value → Option (List α)
  | .array vs => vs.mapM decode
  | _ => none

theorem asNullable_nullable {encode : α → Value} {decode : Value → Option α} {o : Option α}
    (h : ∀ a, o = some a → decode (encode a) = some a) (hnull : ∀ a, encode a ≠ .null) :
    asNullable decode (nullable encode o) = some o := by
  cases o with
  | none => rfl
  | some a =>
    have hsome : ∀ v, v ≠ .null → asNullable decode v = (decode v).map some := by
      intro v hv
      cases v with
      | null => exact absurd rfl hv
      | _ => rfl
    rw [nullable, hsome _ (hnull a), h a rfl, Option.map_some]

theorem asElements_ofElements {encode : α → Value} {decode : Value → Option α} {as : List α}
    (h : ∀ a ∈ as, decode (encode a) = some a) : asElements decode (ofElements encode as) = some as := by
  rw [ofElements, asElements]
  induction as with
  | nil => rfl
  | cons a as ih =>
    have hrest := ih fun b hb => h b (List.mem_cons_of_mem _ hb)
    rw [List.map_cons, List.mapM_cons, h a List.mem_cons_self, hrest]
    rfl

end Value

namespace Entries

/-- The values written for a key, in order. -/
def occurrences (key : String) (es : Entries) : List Value :=
  es.filterMap fun e => if e.1 = key then some e.2 else none

def required (key : String) (decode : Value → Option α) (es : Entries) : Option α :=
  match occurrences key es with
  | [v] => decode v
  | _ => none

def optional (key : String) (decode : Value → Option α) (es : Entries) : Option (Option α) :=
  match occurrences key es with
  | [] => some none
  | [v] => v.asNullable decode
  | _ => none

/-- A field that may be missing takes a default. -/
def withDefault (key : String) (decode : Value → Option α) (default : α) (es : Entries) : Option α :=
  match occurrences key es with
  | [] => some default
  | [v] => decode v
  | _ => none

/-- The entries under other keys. -/
def others (keys : List String) (es : Entries) : Entries := es.filter fun e => e.1 ∉ keys

theorem occurrences_append (key : String) (es es' : Entries) :
    occurrences key (es ++ es') = occurrences key es ++ occurrences key es' :=
  List.filterMap_append

theorem others_append (keys : List String) (es es' : Entries) :
    others keys (es ++ es') = others keys es ++ others keys es' :=
  List.filter_append ..

theorem occurrences_of_not_mem {key : String} {es : Entries} (h : key ∉ es.map Prod.fst) :
    occurrences key es = [] := by
  unfold occurrences
  refine List.filterMap_eq_nil_iff.mpr fun e he => if_neg fun heq => h ?_
  exact List.mem_map.mpr ⟨e, he, heq⟩

theorem others_of_disjoint {keys : List String} {es : Entries} (h : ∀ e ∈ es, e.1 ∉ keys) :
    others keys es = es :=
  List.filter_eq_self.mpr fun e he => decide_eq_true (h e he)

end Entries

namespace Value

/-! ## Counters -/

def ofNat (n : Nat) : Value := .number (.posInt n.toUInt64)

def asNat : Value → Option Nat
  | .number (.posInt n) => some n.toNat
  | _ => none

theorem asNat_ofNat {n : Nat} (h : n < 2 ^ 64) : (ofNat n).asNat = some n := by
  have hn : n.toUInt64.toNat = n := by
    rw [Nat.toUInt64_eq, UInt64.toNat_ofNat']
    exact Nat.mod_eq_of_lt h
  rw [ofNat, asNat, hn]

/-! ## Tables -/

def ofTable (encode : α → Value) (t : Table String α) : Value :=
  .object (t.entries.map fun e => (e.1, encode e.2))

def insertAll (decode : Value → Option α) : Entries → Table String α → Option (Table String α)
  | [], t => some t
  | (k, v) :: es, t => (decode v).bind fun a => insertAll decode es (t.insert k a)

/-- Later entries of a key win. -/
def asTable (decode : Value → Option α) : Value → Option (Table String α)
  | .object es => insertAll decode es ∅
  | _ => none

theorem insertAll_lookup (encode : α → Value) (decode : Value → Option α)
    {es : List (Sigma fun _ : String => α)} (hn : es.NodupKeys)
    (h : ∀ e ∈ es, decode (encode e.2) = some e.2) (t : Table String α) :
    ∃ t', insertAll decode (es.map fun e => (e.1, encode e.2)) t = some t' ∧
      ∀ k, t'.lookup k = (es.dlookup k).or (t.lookup k) := by
  induction es generalizing t with
  | nil => exact ⟨t, rfl, fun k => rfl⟩
  | cons e es ih =>
    obtain ⟨key, a⟩ := e
    obtain ⟨hkey, hrest⟩ := List.nodupKeys_cons.mp hn
    obtain ⟨t', ht', hlookup⟩ := ih hrest (fun e he => h e (List.mem_cons_of_mem _ he)) (t.insert key a)
    refine ⟨t', ?_, fun k => ?_⟩
    · rw [List.map_cons, insertAll, h _ List.mem_cons_self, Option.bind_some]
      exact ht'
    · rw [hlookup]
      by_cases hk : k = key
      · subst hk
        rw [List.dlookup_eq_none.mpr hkey, List.dlookup_cons_eq, AList.lookup_insert]
        rfl
      · rw [List.dlookup_cons_ne _ _ hk, AList.lookup_insert_ne hk]

/-- A table is read back entry for entry. -/
theorem asTable_ofTable {encode : α → Value} {decode : Value → Option α} {t : Table String α}
    (h : ∀ k a, t.lookup k = some a → decode (encode a) = some a) :
    ∃ t', (ofTable encode t).asTable decode = some t' ∧ ∀ k, t'.lookup k = t.lookup k := by
  obtain ⟨t', ht', hlookup⟩ := insertAll_lookup encode decode t.nodupKeys
    (fun e he => h e.1 e.2 (AList.mem_lookup_iff.mpr he)) ∅
  refine ⟨t', ht', fun k => (hlookup k).trans ?_⟩
  rw [AList.lookup_empty, Option.or_none]
  rfl

end Value

end Base.Json
