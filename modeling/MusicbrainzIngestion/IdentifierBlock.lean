import MusicbrainzIngestion.Identifiers
import MusicbrainzIngestion.Base.JsonSchema
import MusicbrainzIngestion.Base.Words

/-! What the identifiers block of a release holds. The closure that fills it is run over
the identifiers received; each of its four collections is a function of those read so far. -/

namespace MusicbrainzIngestion.Identifiers
open Base Base.Json

/-! ## Ordered sets -/

section
variable {α : Type} [DecidableEq α] {lt : α → α → Bool}

theorem mem_setInsert {a b : α} {s : List α} : b ∈ setInsert lt a s ↔ b = a ∨ b ∈ s := by
  induction s with
  | nil => simp [setInsert]
  | cons c rest ih =>
    simp only [setInsert]
    split
    · next h => simp [h]
    · split
      · simp
      · rw [List.mem_cons, ih, List.mem_cons]
        exact or_left_comm

theorem pairwise_setInsert (htrans : ∀ a b c, lt a b = true → lt b c = true → lt a c = true)
    (htotal : ∀ a b, a ≠ b → lt a b = false → lt b a = true) {a : α} {s : List α}
    (hs : s.Pairwise fun x y => lt x y = true) :
    (setInsert lt a s).Pairwise fun x y => lt x y = true := by
  induction s with
  | nil => simp [setInsert]
  | cons c rest ih =>
    obtain ⟨hc, hrest⟩ := List.pairwise_cons.mp hs
    simp only [setInsert]
    split
    · exact hs
    · next hne =>
      split
      · next hlt =>
        refine List.pairwise_cons.mpr ⟨fun x hx => ?_, hs⟩
        rcases List.mem_cons.mp hx with rfl | hx
        · exact hlt
        · exact htrans a c x hlt (hc x hx)
      · next hlt =>
        refine List.pairwise_cons.mpr ⟨fun x hx => ?_, ih hrest⟩
        rcases mem_setInsert.mp hx with rfl | hx
        · exact htotal x c hne (by simpa using hlt)
        · exact hc x hx

end

theorem ltString_iff {a b : String} : ltString a b = true ↔ a < b := decide_eq_true_iff

theorem pairwise_setInsert_string {a : String} {s : List String} (hs : s.Pairwise (· < ·)) :
    (setInsert ltString a s).Pairwise (· < ·) := by
  refine (pairwise_setInsert ?_ ?_ (hs.imp ltString_iff.mpr)).imp ltString_iff.mp
  · intro a b c hab hbc
    exact ltString_iff.mpr (lt_trans (ltString_iff.mp hab) (ltString_iff.mp hbc))
  · intro a b hne hlt
    have hle : b ≤ a := not_lt.mp fun h => by simp [ltString_iff.mpr h] at hlt
    exact ltString_iff.mpr (lt_of_le_of_ne hle (Ne.symm hne))

/-- Pairs in the order of their first and then of their second string. -/
def PairLt (a b : String × String) : Prop := a.1 < b.1 ∨ a.1 = b.1 ∧ a.2 < b.2

theorem ltPair_iff {a b : String × String} : ltPair a b = true ↔ PairLt a b := decide_eq_true_iff

theorem PairLt.trans {a b c : String × String} (hab : PairLt a b) (hbc : PairLt b c) : PairLt a c := by
  rcases hab with hab | ⟨hab, hab'⟩ <;> rcases hbc with hbc | ⟨hbc, hbc'⟩
  · exact .inl (lt_trans hab hbc)
  · exact .inl (hbc ▸ hab)
  · exact .inl (hab ▸ hbc)
  · exact .inr ⟨hab.trans hbc, lt_trans hab' hbc'⟩

theorem PairLt.total {a b : String × String} (hne : a ≠ b) (h : ¬ PairLt a b) : PairLt b a := by
  rw [PairLt, not_or, not_and, not_lt] at h
  rcases lt_or_eq_of_le h.1 with hlt | heq
  · exact .inl hlt
  · have hle : b.2 ≤ a.2 := not_lt.mp (h.2 heq.symm)
    exact .inr ⟨heq, lt_of_le_of_ne hle fun h' => hne (Prod.ext heq.symm h'.symm)⟩

theorem pairwise_setInsert_pair {a : String × String} {s : List (String × String)}
    (hs : s.Pairwise PairLt) : (setInsert ltPair a s).Pairwise PairLt := by
  refine (pairwise_setInsert ?_ ?_ (hs.imp ltPair_iff.mpr)).imp ltPair_iff.mp
  · intro a b c hab hbc
    exact ltPair_iff.mpr ((ltPair_iff.mp hab).trans (ltPair_iff.mp hbc))
  · intro a b hne hlt
    exact ltPair_iff.mpr (PairLt.total hne fun h => by simp [ltPair_iff.mpr h] at hlt)

/-! ## The identifiers of a release -/

/-- The string a field states, unless it is blank. -/
def stated (v : Option Value) : Option String := (v.bind Value.asStr).filter fun s => !Text.blank s

theorem trimmed_eq (v : Option Value) : trimmed v = (stated v).map Text.trim := by
  unfold trimmed stated
  cases v.bind Value.asStr with
  | none => rfl
  | some s =>
    have hblank := @Text.trim_eq_empty_iff s
    by_cases h : Text.trim s = ""
    · simp [h, hblank.mp h, Option.filter_some]
    · have hne : Text.blank s = false := by simpa using fun hb => h (hblank.mpr hb)
      simp [h, hne, Option.filter_some]

def labelInfo (release : Value) : List Value := ((release.get "label-info").bind Value.asArray).getD []

def statedCatalogNumber (entry : Value) : Option String := stated (entry.get "catalog-number")

/-- The strings a release states, the barcode first. -/
def statedStrings (release : Value) : List String :=
  (stated (release.get "barcode")).toList ++ (labelInfo release).filterMap statedCatalogNumber

/-! ## Normal forms -/

/-- What a namespace makes of a value under its rule: the digits of it, its words with one space
between them, or these in upper case. -/
inductive NormalForm (toUppercase : String → String) (rule value externalId : String) : Prop where
  | digits (hrule : rule = "digits_only")
    (h : externalId.toList = value.toList.filter fun c => decide ('0' ≤ c ∧ c ≤ '9'))
  | collapsed {words : List (List Char)} (hrule : rule = "collapse_space")
    (hwords : Text.Words value.toList words) (h : externalId.toList = [' '].intercalate words)
  | upper {words : List (List Char)} {spaced : String} (hrule : rule = "upper_collapse_space")
    (hwords : Text.Words value.toList words) (h : spaced.toList = [' '].intercalate words)
    (hupper : externalId = toUppercase spaced)

theorem digits_eq_iff {value s : String} :
    String.ofList (value.toList.filter Text.isAsciiDigit) = s ↔
      s.toList = value.toList.filter fun c => decide ('0' ≤ c ∧ c ≤ '9') := by
  have hdigit : Text.isAsciiDigit = fun c => decide ('0' ≤ c ∧ c ≤ '9') := by
    funext c
    rw [Text.isAsciiDigit, Bool.decide_and]
  rw [hdigit, ← String.toList_inj, String.toList_ofList]
  exact eq_comm

theorem collapsed_eq_iff {value s : String} :
    Text.joinWith " " (Text.splitWhitespace value) = s ↔
      ∃ words, Text.Words value.toList words ∧ s.toList = [' '].intercalate words := by
  rw [← String.toList_inj, Text.splitWhitespace, Text.toList_joinWith]
  constructor
  · intro h
    exact ⟨_, Text.splitWhitespaceChars_eq_iff.mp rfl, h.symm⟩
  · rintro ⟨words, hwords, h⟩
    rw [Text.splitWhitespaceChars_eq_iff.mpr hwords, h]

/-- The code's normal form, when there is one, and no other. -/
theorem aliasValue_eq_some_iff {toUppercase : String → String} {rule value s : String} :
    aliasValue toUppercase rule value = some s ↔ NormalForm toUppercase rule value s ∧ s ≠ "" := by
  unfold aliasValue
  rw [Option.filter_eq_some_iff, decide_eq_true_iff]
  refine and_congr_left fun _ => ?_
  split
  · rw [Option.some_inj, digits_eq_iff]
    constructor
    · exact .digits rfl
    · rintro (⟨-, h⟩ | ⟨hrule⟩ | ⟨hrule⟩)
      · exact h
      all_goals exact absurd hrule (by decide)
  · rw [Option.some_inj, collapsed_eq_iff]
    constructor
    · rintro ⟨words, hwords, h⟩
      exact .collapsed rfl hwords h
    · rintro (⟨hrule⟩ | ⟨-, hwords, h⟩ | ⟨hrule⟩)
      · exact absurd hrule (by decide)
      · exact ⟨_, hwords, h⟩
      · exact absurd hrule (by decide)
  · rw [Option.some_inj]
    constructor
    · rintro rfl
      obtain ⟨words, hwords, h⟩ := collapsed_eq_iff.mp (Eq.refl
        (Text.joinWith " " (Text.splitWhitespace value)))
      exact .upper rfl hwords h rfl
    · rintro (⟨hrule⟩ | ⟨hrule⟩ | ⟨-, hwords, h, hupper⟩)
      · exact absurd hrule (by decide)
      · exact absurd hrule (by decide)
      · rw [collapsed_eq_iff.mpr ⟨_, hwords, h⟩, hupper]
  · next hdigits hcollapse hupper =>
    constructor
    · intro hnone
      cases hnone
    · rintro (⟨hrule⟩ | ⟨hrule⟩ | ⟨hrule⟩)
      · exact absurd hrule hdigits
      · exact absurd hrule hcollapse
      · exact absurd hrule hupper

/-- One identifier: its upstream type, the value without surrounding white space, its field. -/
structure Received where
  rawType : String
  value : String
  field : String

def receivedBarcode (vocab : Vocabulary) (release : Value) : Option Received :=
  (stated (release.get "barcode")).map fun s =>
    ⟨"barcode", Text.trim s, vocab.musicbrainz.barcodeField⟩

def receivedCatalogNumber (vocab : Vocabulary) (entry : Value) : Option Received :=
  (stated (entry.get "catalog-number")).map fun s =>
    ⟨"catalog-number", Text.trim s, vocab.musicbrainz.catalogNumberField⟩

/-- The barcode, then the catalogue numbers in source order. -/
def received (vocab : Vocabulary) (release : Value) : List Received :=
  (receivedBarcode vocab release).toList ++ (labelInfo release).filterMap (receivedCatalogNumber vocab)

namespace Received
variable (vocab : Vocabulary)

/-- The type the vocabulary maps the upstream type to, else the unmapped one. -/
def typeId (r : Received) : String :=
  (vocab.musicbrainz.types.lookup r.rawType).getD vocab.unmappedType

def item (r : Received) : Value :=
  .json [
    ("type", .string (r.typeId vocab)), ("value", .string r.value), ("description", .null),
    ("source", .json [
      ("provider", .string "musicbrainz"), ("type", .null), ("field", .string r.field)])]

/-- The normal form of the value in a namespace of its type, when it is not empty. -/
def Mints (toUppercase : String → String) (r : Received) (p : String × String) : Prop :=
  ∃ ns ∈ vocab.aliasNamespaces, ns.typeId = r.typeId vocab ∧ p.1 = ns.provider ∧
    NormalForm toUppercase ns.normalization r.value p.2 ∧ p.2 ≠ ""

end Received

/-! ## The collections -/

/-- The four collections after some identifiers. -/
structure Collects (toUppercase : String → String) (vocab : Vocabulary) (rs : List Received)
    (c : Collected) : Prop where
  items : c.items = rs.map (Received.item vocab)
  types : c.types.Pairwise (· < ·)
  memTypes : ∀ t, t ∈ c.types ↔ ∃ r ∈ rs, r.typeId vocab = t
  aliases : c.aliases.Pairwise PairLt
  memAliases : ∀ p, p ∈ c.aliases ↔ ∃ r ∈ rs, r.Mints vocab toUppercase p
  unmapped : c.unmapped.Pairwise (· < ·)
  memUnmapped : ∀ t, t ∈ c.unmapped ↔
    ∃ r ∈ rs, r.rawType = t ∧ vocab.musicbrainz.types.lookup t = none

theorem foldl_aliases (toUppercase : String → String) (value : String) (nss : List Namespace)
    {aliases : List (String × String)} (h : aliases.Pairwise PairLt) :
    let after := nss.foldl (fun aliases ns => match aliasValue toUppercase ns.normalization value with
      | some externalId => setInsert ltPair (ns.provider, externalId) aliases
      | none => aliases) aliases
    after.Pairwise PairLt ∧ ∀ p, p ∈ after ↔ p ∈ aliases ∨ ∃ ns ∈ nss, p.1 = ns.provider ∧
      NormalForm toUppercase ns.normalization value p.2 ∧ p.2 ≠ "" := by
  simp only [← aliasValue_eq_some_iff]
  induction nss generalizing aliases with
  | nil => simpa using h
  | cons ns nss ih =>
    rw [List.foldl_cons]
    cases hvalue : aliasValue toUppercase ns.normalization value with
    | none =>
      obtain ⟨hsorted, hmem⟩ := ih h
      refine ⟨hsorted, fun p => ?_⟩
      rw [hmem]
      simp [hvalue]
    | some externalId =>
      obtain ⟨hsorted, hmem⟩ := ih (pairwise_setInsert_pair h (a := (ns.provider, externalId)))
      refine ⟨hsorted, fun p => ?_⟩
      rw [hmem, mem_setInsert]
      simp only [List.mem_cons, exists_eq_or_imp, hvalue, Option.some.injEq, Prod.ext_iff]
      constructor
      · rintro ((⟨h1, h2⟩ | h) | h)
        · exact .inr (.inl ⟨h1, h2.symm⟩)
        · exact .inl h
        · exact .inr (.inr h)
      · rintro (h | ⟨h1, h2⟩ | h)
        · exact .inl (.inr h)
        · exact .inl (.inl ⟨h1, h2.symm⟩)
        · exact .inr h

theorem unmapped_add (toUppercase : String → String) (vocab : Vocabulary) (c : Collected)
    (rawType value field : String) :
    (Identifiers.add toUppercase vocab c rawType value field).unmapped =
      if (vocab.musicbrainz.types.lookup rawType).isSome then c.unmapped
      else setInsert ltString rawType c.unmapped := by
  unfold Identifiers.add
  cases vocab.musicbrainz.types.lookup rawType <;> rfl

theorem mem_unmapped_add (toUppercase : String → String) (vocab : Vocabulary) (c : Collected)
    (rawType value field t : String) :
    t ∈ (Identifiers.add toUppercase vocab c rawType value field).unmapped ↔
      t ∈ c.unmapped ∨ rawType = t ∧ vocab.musicbrainz.types.lookup t = none := by
  rw [unmapped_add]
  cases hlookup : vocab.musicbrainz.types.lookup rawType with
  | some typeId =>
    have hnew : ¬ (rawType = t ∧ vocab.musicbrainz.types.lookup t = none) := by
      rintro ⟨rfl, hnone⟩
      rw [hlookup] at hnone
      cases hnone
    simp only [Option.isSome_some, if_true, hnew, or_false]
  | none =>
    have hnew : (rawType = t ∧ vocab.musicbrainz.types.lookup t = none) ↔ t = rawType := by
      constructor
      · rintro ⟨rfl, -⟩
        rfl
      · rintro rfl
        exact ⟨rfl, hlookup⟩
    rw [hnew, Option.isSome_none, if_neg (by simp), mem_setInsert]
    exact or_comm

theorem exists_mem_snoc {α : Type} {p : α → Prop} {as : List α} {a : α} :
    (∃ b ∈ as ++ [a], p b) ↔ (∃ b ∈ as, p b) ∨ p a := by
  simp only [List.mem_append, List.mem_singleton, or_and_right, exists_or, exists_eq_left]

/-- One more identifier. -/
theorem Collects.add {toUppercase : String → String} {vocab : Vocabulary} {rs : List Received}
    {c : Collected} (h : Collects toUppercase vocab rs c) (r : Received) :
    Collects toUppercase vocab (rs ++ [r])
      (Identifiers.add toUppercase vocab c r.rawType r.value r.field) := by
  have haliases := foldl_aliases toUppercase r.value
    (vocab.aliasNamespaces.filter (·.typeId = r.typeId vocab)) h.aliases
  constructor
  case items =>
    rw [List.map_append, ← h.items]
    rfl
  case types => exact pairwise_setInsert_string h.types
  case memTypes =>
    intro t
    refine mem_setInsert.trans ?_
    rw [h.memTypes, exists_mem_snoc]
    exact or_comm.trans (or_congr_right eq_comm)
  case aliases => exact haliases.1
  case memAliases =>
    intro p
    refine (haliases.2 p).trans ?_
    rw [h.memAliases, exists_mem_snoc]
    refine or_congr_right ?_
    simp only [Received.Mints, List.mem_filter, decide_eq_true_eq, and_assoc]
  case unmapped =>
    rw [unmapped_add]
    split
    · exact h.unmapped
    · exact pairwise_setInsert_string h.unmapped
  case memUnmapped =>
    intro t
    rw [mem_unmapped_add, h.memUnmapped, exists_mem_snoc]

theorem Collects.foldl {toUppercase : String → String} {vocab : Vocabulary} {before : List Received}
    {c : Collected} (h : Collects toUppercase vocab before c) (rs : List Received) :
    Collects toUppercase vocab (before ++ rs) (rs.foldl (fun c r =>
      Identifiers.add toUppercase vocab c r.rawType r.value r.field) c) := by
  induction rs generalizing before c with
  | nil => rwa [List.append_nil]
  | cons r rs ih =>
    have hnext := ih (h.add r)
    rwa [List.append_assoc, List.singleton_append] at hnext

theorem collects_nil (toUppercase : String → String) (vocab : Vocabulary) :
    Collects toUppercase vocab [] {} := by
  constructor <;> simp

/-- The closure run over the identifiers of a release. -/
def collected (toUppercase : String → String) (vocab : Vocabulary) (release : Value) : Collected :=
  (received vocab release).foldl (fun c r => add toUppercase vocab c r.rawType r.value r.field) {}

theorem collected_collects (toUppercase : String → String) (vocab : Vocabulary) (release : Value) :
    Collects toUppercase vocab (received vocab release) (collected toUppercase vocab release) := by
  have h := (collects_nil toUppercase vocab).foldl (received vocab release)
  rwa [List.nil_append] at h

theorem foldl_receivedCatalogNumber (toUppercase : String → String) (vocab : Vocabulary)
    {step : Collected → Value → Collected}
    (hstep : ∀ c entry, step c entry = ((receivedCatalogNumber vocab entry).map fun r =>
      add toUppercase vocab c r.rawType r.value r.field).getD c) (entries : List Value) (c : Collected) :
    entries.foldl step c = (entries.filterMap (receivedCatalogNumber vocab)).foldl
      (fun c r => add toUppercase vocab c r.rawType r.value r.field) c := by
  induction entries generalizing c with
  | nil => rfl
  | cons entry entries ih =>
    rw [List.foldl_cons, ih, hstep]
    cases h : receivedCatalogNumber vocab entry with
    | none => rw [List.filterMap_cons_none h]; rfl
    | some r => rw [List.filterMap_cons_some h]; rfl

/-- The mapper collects over the identifiers received. -/
theorem mapMusicbrainzIdentifiers_eq (toUppercase : String → String) (vocab : Vocabulary)
    (release : Value) :
    mapMusicbrainzIdentifiers toUppercase vocab release =
      .json [
        ("identifiers_version", .string vocab.vocabularyVersion),
        ("items", .array (collected toUppercase vocab release).items),
        ("types", .array ((collected toUppercase vocab release).types.map .string)),
        ("aliases", .array ((collected toUppercase vocab release).aliases.map fun a =>
          .json [("provider", .string a.1), ("external_id", .string a.2)])),
        ("unmapped", .json [
          ("types", .array ((collected toUppercase vocab release).unmapped.map .string))])] := by
  unfold mapMusicbrainzIdentifiers
  dsimp only
  rw [foldl_receivedCatalogNumber toUppercase vocab, trimmed_eq]
  · unfold collected received receivedBarcode
    cases stated (release.get "barcode") <;> rfl
  · intro c entry
    rw [trimmed_eq, receivedCatalogNumber]
    cases stated (entry.get "catalog-number") <;> rfl

/-- Every identifier of a release in its place of the block, and nothing else. -/
structure ExactBlock (toUppercase : String → String) (vocab : Vocabulary) (release block : Value) :
    Prop where
  version : block.index "identifiers_version" = .string vocab.vocabularyVersion
  values : List.Forall₂ (fun s (r : Received) => Text.TrimsTo s.toList r.value.toList)
    (statedStrings release) (received vocab release)
  items : block.index "items" = .array ((received vocab release).map (Received.item vocab))
  types : ∃ types : List String, block.index "types" = .array (types.map .string) ∧
    types.Pairwise (· < ·) ∧ ∀ t, t ∈ types ↔ ∃ r ∈ received vocab release, r.typeId vocab = t
  aliases : ∃ aliases : List (String × String),
    block.index "aliases" = .array (aliases.map fun a =>
      .json [("provider", .string a.1), ("external_id", .string a.2)]) ∧
    aliases.Pairwise PairLt ∧
    ∀ p, p ∈ aliases ↔ ∃ r ∈ received vocab release, r.Mints vocab toUppercase p
  unmapped : ∃ types : List String,
    (block.index "unmapped").index "types" = .array (types.map .string) ∧ types.Pairwise (· < ·) ∧
    ∀ t, t ∈ types ↔ ∃ r ∈ received vocab release, r.rawType = t ∧
      vocab.musicbrainz.types.lookup t = none ∧ r.typeId vocab = vocab.unmappedType

theorem trimsTo_trim (s : String) : Text.TrimsTo s.toList (Text.trim s).toList := by
  rw [Text.trim, String.toList_ofList]
  exact Text.trimsTo_trimChars s.toList

/-- Each identifier has the string stated at its place, without the white space around it. -/
theorem received_values (vocab : Vocabulary) (release : Value) :
    List.Forall₂ (fun s (r : Received) => Text.TrimsTo s.toList r.value.toList)
      (statedStrings release) (received vocab release) := by
  refine List.rel_append ?_ ?_
  · unfold receivedBarcode
    cases stated (release.get "barcode") with
    | none => exact .nil
    | some s => exact .cons (trimsTo_trim s) .nil
  · induction labelInfo release with
    | nil => exact .nil
    | cons entry entries ih =>
      have hreceived : receivedCatalogNumber vocab entry = (statedCatalogNumber entry).map fun s =>
        ⟨"catalog-number", Text.trim s, vocab.musicbrainz.catalogNumberField⟩ := rfl
      cases h : statedCatalogNumber entry with
      | none =>
        rw [List.filterMap_cons_none h, List.filterMap_cons_none (by rw [hreceived, h]; rfl)]
        exact ih
      | some s =>
        rw [List.filterMap_cons_some h, List.filterMap_cons_some (by rw [hreceived, h]; rfl)]
        exact .cons (trimsTo_trim s) ih

theorem exactBlock (toUppercase : String → String) (vocab : Vocabulary) (release : Value) :
    ExactBlock toUppercase vocab release (mapMusicbrainzIdentifiers toUppercase vocab release) := by
  have h := collected_collects toUppercase vocab release
  rw [mapMusicbrainzIdentifiers_eq]
  constructor
  case version => simp [Value.json, Value.index, Entries.ofList]
  case values => exact received_values vocab release
  case items =>
    rw [← h.items]
    simp [Value.json, Value.index, Entries.ofList]
  case types =>
    exact ⟨_, by simp [Value.json, Value.index, Entries.ofList], h.types, h.memTypes⟩
  case aliases =>
    exact ⟨_, by simp [Value.json, Value.index, Entries.ofList], h.aliases, h.memAliases⟩
  case unmapped =>
    refine ⟨_, by simp [Value.json, Value.index, Entries.ofList], h.unmapped, fun t => ?_⟩
    rw [h.memUnmapped]
    refine exists_congr fun r => and_congr_right fun _ => and_congr_right fun hr => ?_
    refine (and_iff_left_of_imp fun hnone => ?_).symm
    rw [Received.typeId, hr, hnone]
    rfl

/-! ## The schema of the block -/

def identifierTypeId : Schema :=
  .enum ["barcode", "matrix_runout", "label_code", "rights_society", "asin", "other", "catalog_number"]

def itemSchema : Schema :=
  .record [
    ("type", identifierTypeId), ("value", .string 1), ("description", .stringOrNull 1),
    ("source", .record [
      ("provider", .enum ["discogs", "musicbrainz"]), ("type", .stringOrNull 1),
      ("field", .enum ["identifiers", "labels[].catno", "barcode", "label-info[].catalog-number"])])]

def aliasSchema : Schema :=
  .record [("provider", .enum ["barcode", "catalog_number", "matrix"]), ("external_id", .string 1)]

def identifierBlockSchema : Schema :=
  .record [
    ("identifiers_version", .const "1"),
    ("items", .array itemSchema),
    ("types", .uniqueArray identifierTypeId),
    ("aliases", .uniqueArray aliasSchema),
    ("unmapped", .record [("types", .uniqueArray (.string 1))])]

theorem length_pos {s : String} (h : s ≠ "") : 1 ≤ s.length := by
  rw [← String.length_toList]
  refine List.length_pos_iff.mpr fun hnil => h ?_
  rw [← String.toList_inj, hnil]
  rfl

theorem value_ne_empty {vocab : Vocabulary} {release : Value} {r : Received}
    (h : r ∈ received vocab release) : r.value ≠ "" := by
  have hstated : ∀ {v : Option Value} {s : String}, stated v = some s → Text.trim s ≠ "" := by
    intro v s hs hempty
    have hblank := (Option.filter_eq_some_iff.mp hs).2
    rw [Text.trim_eq_empty_iff.mp hempty] at hblank
    cases hblank
  rcases List.mem_append.mp h with h | h
  · obtain ⟨s, hs, rfl⟩ := Option.map_eq_some_iff.mp (Option.mem_toList.mp h)
    exact hstated hs
  · obtain ⟨entry, -, hentry⟩ := List.mem_filterMap.mp h
    obtain ⟨s, hs, rfl⟩ := Option.map_eq_some_iff.mp hentry
    exact hstated hs

theorem rawType_field {vocab : Vocabulary} {release : Value} {r : Received}
    (h : r ∈ received vocab release) :
    r.rawType = "barcode" ∧ r.field = vocab.musicbrainz.barcodeField ∨
      r.rawType = "catalog-number" ∧ r.field = vocab.musicbrainz.catalogNumberField := by
  rcases List.mem_append.mp h with h | h
  · obtain ⟨s, -, rfl⟩ := Option.map_eq_some_iff.mp (Option.mem_toList.mp h)
    exact .inl ⟨rfl, rfl⟩
  · obtain ⟨entry, -, hentry⟩ := List.mem_filterMap.mp h
    obtain ⟨s, -, rfl⟩ := Option.map_eq_some_iff.mp hentry
    exact .inr ⟨rfl, rfl⟩

theorem vendored_typeId_field {release : Value} {r : Received} (h : r ∈ received vocabulary release) :
    r.typeId vocabulary = "barcode" ∧ r.field = "barcode" ∨
      r.typeId vocabulary = "catalog_number" ∧ r.field = "label-info[].catalog-number" := by
  rcases rawType_field h with ⟨hraw, hfield⟩ | ⟨hraw, hfield⟩
  · exact .inl ⟨by rw [Received.typeId, hraw]; decide, hfield⟩
  · exact .inr ⟨by rw [Received.typeId, hraw]; decide, hfield⟩

theorem valid_item {release : Value} {r : Received} (h : r ∈ received vocabulary release) :
    Valid itemSchema (r.item vocabulary) := by
  obtain ⟨htype, hfield⟩ : r.typeId vocabulary ∈ ["barcode", "matrix_runout", "label_code",
      "rights_society", "asin", "other", "catalog_number"] ∧
      r.field ∈ ["identifiers", "labels[].catno", "barcode", "label-info[].catalog-number"] := by
    rcases vendored_typeId_field h with ⟨ht, hf⟩ | ⟨ht, hf⟩ <;> rw [ht, hf] <;> decide
  refine .json (by decide) (.cons ⟨rfl, .enum htype⟩ (.cons ⟨rfl, .string (length_pos (value_ne_empty h))⟩
    (.cons ⟨rfl, .null⟩ (.cons ⟨rfl, ?_⟩ .nil))))
  exact .json (by decide) (.cons ⟨rfl, .enum (by decide)⟩ (.cons ⟨rfl, .null⟩
    (.cons ⟨rfl, .enum hfield⟩ .nil)))

theorem valid_alias {toUppercase : String → String} {r : Received} {p : String × String}
    (h : r.Mints vocabulary toUppercase p) :
    Valid aliasSchema (.json [("provider", .string p.1), ("external_id", .string p.2)]) := by
  obtain ⟨ns, hns, -, hprovider, -, hvalue⟩ := h
  have hproviders : ∀ ns ∈ vocabulary.aliasNamespaces,
      ns.provider ∈ ["barcode", "catalog_number", "matrix"] := by decide
  have hknown : p.1 ∈ ["barcode", "catalog_number", "matrix"] := hprovider ▸ hproviders ns hns
  exact .json (by decide) (.cons ⟨rfl, .enum hknown⟩
    (.cons ⟨rfl, .string (length_pos hvalue)⟩ .nil))

theorem nodup_strings {values : List String} (h : values.Pairwise (· < ·)) :
    (values.map Value.string).Nodup := by
  refine List.Nodup.map (fun a b hab => Value.string.inj hab) (h.imp fun hlt heq => ?_)
  exact lt_irrefl _ (heq ▸ hlt)

theorem nodup_aliases {pairs : List (String × String)} (h : pairs.Pairwise PairLt) :
    (pairs.map fun a => Value.json [("provider", .string a.1), ("external_id", .string a.2)]).Nodup := by
  refine List.Nodup.map (fun a b hab => ?_) (h.imp fun hlt heq => ?_)
  · have hprovider : a.1 = b.1 := by
      have h := congrArg (fun v => (v.index "provider").asStr) hab
      simpa [Value.json, Value.index, Entries.ofList, Value.asStr] using h
    have hexternal : a.2 = b.2 := by
      have h := congrArg (fun v => (v.index "external_id").asStr) hab
      simpa [Value.json, Value.index, Entries.ofList, Value.asStr] using h
    exact Prod.ext hprovider hexternal
  · subst heq
    rcases hlt with hlt | ⟨-, hlt⟩ <;> exact lt_irrefl _ hlt

theorem valid_block (toUppercase : String → String) (release : Value) :
    Valid identifierBlockSchema (mapMusicbrainzIdentifiers toUppercase vocabulary release) := by
  have h := collected_collects toUppercase vocabulary release
  have hitems : ∀ v ∈ (collected toUppercase vocabulary release).items, Valid itemSchema v := by
    rw [h.items]
    intro v hv
    obtain ⟨r, hr, rfl⟩ := List.mem_map.mp hv
    exact valid_item hr
  have htypes : ∀ v ∈ (collected toUppercase vocabulary release).types.map Value.string,
      Valid identifierTypeId v := by
    intro v hv
    obtain ⟨t, ht, rfl⟩ := List.mem_map.mp hv
    obtain ⟨r, hr, rfl⟩ := (h.memTypes t).mp ht
    rcases vendored_typeId_field hr with ⟨ht, -⟩ | ⟨ht, -⟩ <;> rw [ht] <;> exact .enum (by decide)
  have haliases : ∀ v ∈ (collected toUppercase vocabulary release).aliases.map
      (fun a => Value.json [("provider", .string a.1), ("external_id", .string a.2)]),
      Valid aliasSchema v := by
    intro v hv
    obtain ⟨p, hp, rfl⟩ := List.mem_map.mp hv
    obtain ⟨r, -, hmints⟩ := (h.memAliases p).mp hp
    exact valid_alias hmints
  have hunmapped : ∀ v ∈ (collected toUppercase vocabulary release).unmapped.map Value.string,
      Valid (.string 1) v := by
    intro v hv
    obtain ⟨t, ht, rfl⟩ := List.mem_map.mp hv
    obtain ⟨r, hr, rfl, -⟩ := (h.memUnmapped t).mp ht
    rcases rawType_field hr with ⟨hraw, -⟩ | ⟨hraw, -⟩ <;> rw [hraw] <;> exact .string (by decide)
  rw [mapMusicbrainzIdentifiers_eq]
  refine .json (by decide) (.cons ⟨rfl, .const⟩ (.cons ⟨rfl, .array hitems⟩
    (.cons ⟨rfl, .uniqueArray (nodup_strings h.types) htypes⟩
      (.cons ⟨rfl, .uniqueArray (nodup_aliases h.aliases) haliases⟩ (.cons ⟨rfl, ?_⟩ .nil)))))
  exact .json (by decide) (.cons ⟨rfl, .uniqueArray (nodup_strings h.unmapped) hunmapped⟩ .nil)

/-- The block is exact under any vocabulary, and fits its schema under the vendored one. -/
theorem identifier_block_exact (toUppercase : String → String) (release : Value) :
    (∀ vocab : Vocabulary,
      ExactBlock toUppercase vocab release (mapMusicbrainzIdentifiers toUppercase vocab release)) ∧
    Valid identifierBlockSchema (mapMusicbrainzIdentifiers toUppercase vocabulary release) :=
  ⟨fun vocab => exactBlock toUppercase vocab release, valid_block toUppercase release⟩

end MusicbrainzIngestion.Identifiers
