import MusicbrainzIngestion.JsonlParser
import MusicbrainzIngestion.IdentifierBlock

/-! The two forms in which a release carries its identifiers: the raw fields, and the
items of the canonical block. The block trims what it takes, the raw fields do not. -/

namespace MusicbrainzIngestion
open Base Base.Json JsonlParser Identifiers

/-! ## What a message carries -/

/-- The values of the items read from a field. -/
def itemValues (field : String) (data : Value) : List Value :=
  (((data.index "identifiers").index "items").elements.filter fun item =>
    ((item.index "source").index "field").asStr = some field).map (·.index "value")

def isBlankString (v : Value) : Bool := v.asStr.any Text.blank

/-- The raw catalogue numbers that are not blank. -/
def catalogNumbers (data : Value) : List Value :=
  ((data.index "catalog_numbers").elements.map (·.index "catalog_number")).filter (!isBlankString ·)

/-- The items have the values of the raw fields. -/
structure ValuesAgree (data : Value) : Prop where
  catalogNumbers : itemValues "label-info[].catalog-number" data = catalogNumbers data
  barcode : ∀ value ∈ itemValues "barcode" data, value = data.index "barcode"

/-- The catalogue numbers of a record that are not blank. -/
def statedNumbers (v : Value) : List String :=
  (labelInfo v).filterMap fun entry => stated (entry.get "catalog-number")

/-- No identifier has white space around it. -/
def StatedTrimmed (v : Value) : Prop :=
  (∀ s, stated (v.get "barcode") = some s → Text.trim s = s) ∧
    ∀ s ∈ statedNumbers v, Text.trim s = s

/-! ## The data of a release -/

theorem index_releaseData (env : Externals) (v : Value) {key : String} (hkey : key ≠ "identifiers")
    (hmedia : key ≠ "media") : (releaseData env v).index key = (releaseFields v).index key := by
  simp [releaseData, attachIdentifiersBlock, Media.attachMediaBlock, releaseFields, Value.json,
    Value.insert, Value.index, Ne.symm hkey, Ne.symm hmedia]

theorem index_identifiers (env : Externals) (v : Value) :
    (releaseData env v).index "identifiers" =
      mapMusicbrainzIdentifiers env.toUppercase vocabulary v := by
  simp [releaseData, attachIdentifiersBlock, Media.attachMediaBlock, releaseFields, Value.json,
    Value.insert, Value.index]

theorem index_barcode (env : Externals) (v : Value) :
    (releaseData env v).index "barcode" = v.index "barcode" := by
  rw [index_releaseData env v (by decide) (by decide)]
  simp [releaseFields, Value.json, Value.index, Entries.ofList]

theorem index_catalog_numbers (env : Externals) (v : Value) :
    (releaseData env v).index "catalog_numbers" =
      .array (extractCatalogNumbers (v.index "label-info").elements) := by
  rw [index_releaseData env v (by decide) (by decide)]
  simp [releaseFields, Value.json, Value.index, Entries.ofList]

theorem itemValues_releaseData (env : Externals) (v : Value) (field : String) :
    itemValues field (releaseData env v) =
      ((received vocabulary v).filter (·.field = field)).map (Value.string ·.value) := by
  have hfield : ∀ r : Received,
      (((r.item vocabulary).index "source").index "field").asStr = some r.field := by
    intro r
    simp [Received.item, Value.json, Value.index, Value.asStr, Entries.ofList]
  have hvalue : ∀ r : Received, (r.item vocabulary).index "value" = .string r.value := by
    intro r
    simp [Received.item, Value.json, Value.index, Entries.ofList]
  rw [itemValues, index_identifiers, (exactBlock env.toUppercase vocabulary v).items]
  simp only [Value.elements, Value.asArray, Option.getD_some, List.filter_map, List.map_map]
  congr 1
  · funext r
    exact hvalue r
  · congr 1
    funext r
    simp [hfield]

theorem field_receivedBarcode {v : Value} {r : Received}
    (h : r ∈ (receivedBarcode vocabulary v).toList) : r.field = "barcode" := by
  obtain ⟨s, -, rfl⟩ := Option.map_eq_some_iff.mp (Option.mem_toList.mp h)
  rfl

theorem field_receivedCatalogNumber {entries : List Value} {r : Received}
    (h : r ∈ entries.filterMap (receivedCatalogNumber vocabulary)) :
    r.field = "label-info[].catalog-number" := by
  obtain ⟨entry, -, hentry⟩ := List.mem_filterMap.mp h
  obtain ⟨s, -, rfl⟩ := Option.map_eq_some_iff.mp hentry
  rfl

theorem itemValues_catalogNumber (env : Externals) (v : Value) :
    itemValues "label-info[].catalog-number" (releaseData env v) =
      (statedNumbers v).map fun s => .string (Text.trim s) := by
  have hbarcode : (receivedBarcode vocabulary v).toList.filter
      (·.field = "label-info[].catalog-number") = [] := by
    refine List.filter_eq_nil_iff.mpr fun r hr => ?_
    rw [field_receivedBarcode hr]
    decide
  have hnumbers : ((labelInfo v).filterMap (receivedCatalogNumber vocabulary)).filter
      (·.field = "label-info[].catalog-number") =
      (labelInfo v).filterMap (receivedCatalogNumber vocabulary) :=
    List.filter_eq_self.mpr fun r hr => by simpa using field_receivedCatalogNumber hr
  rw [itemValues_releaseData, received, List.filter_append, hbarcode, hnumbers, List.nil_append,
    statedNumbers, List.map_filterMap, List.map_filterMap]
  congr 1
  funext entry
  rw [receivedCatalogNumber, Option.map_map]
  rfl

theorem itemValues_barcode (env : Externals) (v : Value) :
    itemValues "barcode" (releaseData env v) =
      (stated (v.get "barcode")).toList.map fun s => .string (Text.trim s) := by
  have hbarcode : (receivedBarcode vocabulary v).toList.filter (·.field = "barcode") =
      (receivedBarcode vocabulary v).toList :=
    List.filter_eq_self.mpr fun r hr => by simpa using field_receivedBarcode hr
  have hnumbers : ((labelInfo v).filterMap (receivedCatalogNumber vocabulary)).filter
      (·.field = "barcode") = [] := by
    refine List.filter_eq_nil_iff.mpr fun r hr => ?_
    rw [field_receivedCatalogNumber hr]
    decide
  rw [itemValues_releaseData, received, List.filter_append, hbarcode, hnumbers, List.append_nil,
    receivedBarcode]
  cases stated (v.get "barcode") <;> rfl

/-- A key that is missing reads as `null`, which states nothing. -/
theorem stated_index (v : Value) (key : String) : stated (some (v.index key)) = stated (v.get key) := by
  unfold Value.index
  cases v.get key <;> rfl

theorem labelInfo_eq (v : Value) : labelInfo v = (v.index "label-info").elements := by
  unfold labelInfo Value.index
  cases v.get "label-info" <;> rfl

theorem index_of_stated {v : Value} {key s : String} (h : stated (v.get key) = some s) :
    v.index key = .string s := by
  have hstr := (Option.filter_eq_some_iff.mp h).1
  rw [Value.index]
  cases hget : v.get key with
  | none => simp [hget] at hstr
  | some w => cases w <;> simp_all [Value.asStr]

/-- The raw form of one entry, blank or not. -/
theorem extractCatalogNumbers_cons (entry : Value) (entries : List Value) :
    (extractCatalogNumbers (entry :: entries)).map (·.index "catalog_number") =
      ((entry.index "catalog-number").asStr.map Value.string).toList ++
        (extractCatalogNumbers entries).map (·.index "catalog_number") := by
  unfold extractCatalogNumbers
  cases h : (entry.index "catalog-number").asStr with
  | none => rw [List.filterMap_cons_none (by rw [h]; rfl)]; rfl
  | some s =>
    rw [List.filterMap_cons_some (by rw [h]; rfl)]
    simp [Value.json, Value.index, Entries.ofList]

theorem catalogNumbers_releaseData (env : Externals) (v : Value) :
    catalogNumbers (releaseData env v) = (statedNumbers v).map .string := by
  rw [catalogNumbers, index_catalog_numbers, statedNumbers, labelInfo_eq]
  show ((extractCatalogNumbers (v.index "label-info").elements).map _).filter _ = _
  generalize (v.index "label-info").elements = entries
  induction entries with
  | nil => rfl
  | cons entry entries ih =>
    rw [extractCatalogNumbers_cons, List.filter_append, ih, List.filterMap_cons, ← stated_index]
    have hstated : stated (some (entry.index "catalog-number")) =
        (entry.index "catalog-number").asStr.filter (!Text.blank ·) := rfl
    have hblank : ∀ s, isBlankString (.string s) = Text.blank s := fun _ => rfl
    rw [hstated]
    cases (entry.index "catalog-number").asStr with
    | none => rfl
    | some s => cases h : Text.blank s <;> simp [h, hblank, Option.filter_some]

theorem valuesAgree_iff (env : Externals) (v : Value) :
    ValuesAgree (releaseData env v) ↔ StatedTrimmed v := by
  have hnumbers : itemValues "label-info[].catalog-number" (releaseData env v) =
      catalogNumbers (releaseData env v) ↔ ∀ s ∈ statedNumbers v, Text.trim s = s := by
    rw [itemValues_catalogNumber, catalogNumbers_releaseData, List.map_inj_left]
    exact forall₂_congr fun s _ => ⟨Value.string.inj, congrArg _⟩
  have hbarcode : (∀ value ∈ itemValues "barcode" (releaseData env v),
      value = (releaseData env v).index "barcode") ↔
        ∀ s, stated (v.get "barcode") = some s → Text.trim s = s := by
    rw [itemValues_barcode, index_barcode]
    cases hstated : stated (v.get "barcode") with
    | none => simp
    | some s => simp [index_of_stated hstated]
  exact ⟨fun h => ⟨hbarcode.mp h.barcode, hnumbers.mp h.catalogNumbers⟩,
    fun h => ⟨hnumbers.mpr h.2, hbarcode.mpr h.1⟩⟩

/-! ## The message of a line -/

def LineAgrees (env : Externals) (line dumpVersion : String) : Prop :=
  ∀ msg, parseMbReleaseLine env line dumpVersion = .ok msg → ValuesAgree msg.data

/-- The two forms agree exactly on the lines whose identifiers have no white space around them. -/
theorem release_values_agree_iff (env : Externals) (line dumpVersion : String) :
    LineAgrees env line dumpVersion ↔ ∀ v, env.fromStr line = .ok v → StatedTrimmed v := by
  unfold LineAgrees
  cases h : env.fromStr line with
  | error e =>
    obtain ⟨context, herror⟩ := parseFn_error env .releases line dumpVersion h
    have hparse : parseMbReleaseLine env line dumpVersion = .error [context, e] := herror
    rw [hparse]
    exact iff_of_true (fun _ h => by cases h) (fun _ h => by cases h)
  | ok v =>
    have hparse : parseMbReleaseLine env line dumpVersion =
        .ok (dataMessage env v (releaseData env v) dumpVersion) := parseFn_eq env .releases line dumpVersion h
    rw [hparse]
    constructor
    · intro hagree w hw
      cases hw
      exact (valuesAgree_iff env v).mp (hagree _ rfl)
    · intro htrimmed msg hmsg
      cases hmsg
      exact (valuesAgree_iff env v).mpr (htrimmed v rfl)

def paddedLine : String := "\x7b\"label-info\":[\x7b\"catalog-number\":\" 1-25158\"\x7d]\x7d"

def paddedRecord : Value :=
  .json [("label-info", .array [.json [("catalog-number", .string " 1-25158")]])]

def paddedExternals : Externals :=
  singleLine "release.jsonl" paddedLine paddedRecord (fun _ => "") (fun _ => "")

/-- The item has `1-25158`, the raw catalogue number starts with a space. -/
theorem padded_number_differs : ¬ LineAgrees paddedExternals paddedLine "20260101-000000" := by
  intro h
  have hread : paddedExternals.fromStr paddedLine = .ok paddedRecord := by
    simp [paddedExternals, singleLine]
  have hagree := h _ (parseFn_eq _ .releases paddedLine "20260101-000000" hread)
  have htrimmed := ((valuesAgree_iff _ paddedRecord).mp hagree).2 " 1-25158" (by decide +kernel)
  exact absurd htrimmed (by decide +kernel)

end MusicbrainzIngestion
