import MusicbrainzIngestion.Types
import MusicbrainzIngestion.Base.Table
import MusicbrainzIngestion.MediaTaxonomy
import MusicbrainzIngestion.Identifiers

/-! The JSONL parsers: one record per line, enriched with the Discogs ids that a
first pass over the artists collects. -/

namespace MusicbrainzIngestion.JsonlParser
open Base Base.Json

/-- `.jsonl` is read as plain text, every other file through the decompressor. -/
def openJsonlReader (env : Externals) (path : String) : Except Error Text.Stream :=
  match env.openFile path with
  | .error e => .error ["Failed to open file: \"" ++ path ++ "\"", e]
  | .ok stream =>
    .ok (if Text.extension path = some "jsonl" then stream else env.xzDecode stream)

/-! ## Relations -/

/-- The numeric id of `https://www.discogs.com/{entity_type}/{id}` or `…/{id}-Some-Slug`. -/
def extractDiscogsId (url entityType : String) : Option Int64 :=
  (Text.stripPrefix url ("https://www.discogs.com/" ++ entityType ++ "/")).bind fun idSegment =>
    Text.parseI64 (Text.splitFirst idSegment '-')

def extractUrlRels (relations : List Value) : List Value :=
  relations.filter fun rel => (rel.index "target-type").asStr = some "url"

/-- Collapse the spellings of an entity type to the hyphenated one. -/
def canonicalEntityType (entityType : String) : String :=
  match entityType with
  | "release_group" => "release-group"
  | other => other

/-- The embedded entity is keyed by the raw spelling, or by the canonical one. -/
def targetMbid (rel : Value) (targetType : String) : String :=
  match ((rel.index targetType).index "id").asStr with
  | some id => id
  | none => (((rel.index (canonicalEntityType targetType)).index "id").asStr).getD ""

def normalizeRel (rel : Value) (targetType : String) : Value :=
  .json [
    ("type", rel.index "type"),
    ("target_type", .string (canonicalEntityType targetType)),
    ("target_mbid", .string (targetMbid rel targetType)),
    ("direction", rel.index "direction"),
    ("attributes", rel.index "attributes"),
    ("begin_date", rel.index "begin"),
    ("end_date", rel.index "end"),
    ("ended", rel.index "ended")]

def extractEntityRel (rel : Value) : Option Value :=
  (rel.index "target-type").asStr.bind fun targetType =>
    if targetType = "url" then none else some (normalizeRel rel targetType)

def extractEntityRels (relations : List Value) : List Value := relations.filterMap extractEntityRel

def extractExternalLinks (urlRels : List Value) : List Value :=
  urlRels.filterMap fun rel =>
    (rel.index "type").asStr.bind fun relType =>
      if relType = "discogs" then none
      else ((rel.index "url").index "resource").asStr.map fun resource =>
        .json [("service", .string relType), ("url", .string resource)]

/-- The closure both readers of a file search the URL relations with. -/
def relDiscogsId (entityType : String) (rel : Value) : Option Int64 :=
  if (rel.index "type").asStr = some "discogs" then
    ((rel.index "url").index "resource").asStr.bind fun url => extractDiscogsId url entityType
  else none

def ofI64 (n : Option Int64) : Value := (n.map fun n => Value.number (Number.ofI64 n)).getD .null

def findDiscogsId (urlRels : List Value) (entityType : String) : Value :=
  ofI64 (urlRels.findSome? (relDiscogsId entityType))

/-! ## Release details -/

/-- A string, or `null` for anything else. -/
def stringOrNull (v : Value) : Value := .ofOption v.asStr

def rawMedium (m : Value) : Value :=
  .json [
    ("format", m.index "format"),
    ("format_id", m.index "format-id"),
    ("position", m.index "position"),
    ("title", m.index "title"),
    ("track_count", m.index "track-count")]

def extractMediaRaw (media : List Value) : List Value := media.map rawMedium

def extractReleaseEvents (releaseEvents : List Value) : List Value :=
  releaseEvents.filterMap fun event =>
    let date := stringOrNull (event.index "date")
    let areaName := stringOrNull ((event.index "area").index "name")
    let areaMbid := stringOrNull ((event.index "area").index "id")
    if date.isNull && areaName.isNull && areaMbid.isNull then none
    else some (.json [("date", date), ("area_name", areaName), ("area_mbid", areaMbid)])

def extractCatalogNumbers (labelInfo : List Value) : List Value :=
  labelInfo.filterMap fun info =>
    (info.index "catalog-number").asStr.map fun catalogNumber =>
      .json [
        ("catalog_number", .string catalogNumber),
        ("label_mbid", stringOrNull ((info.index "label").index "id")),
        ("label_name", stringOrNull ((info.index "label").index "name"))]

/-! ## The line parsers -/

def lifeSpanData (lifeSpan : Value) : Value :=
  .json [
    ("begin", lifeSpan.index "begin"),
    ("end", lifeSpan.index "end"),
    ("ended", lifeSpan.index "ended")]

def relationsOf (v : Value) : List Value := (v.index "relations").elements

def entityRels (v : Value) : Value := .array (extractEntityRels (relationsOf v))

def externalLinks (v : Value) : Value := .array (extractExternalLinks (extractUrlRels (relationsOf v)))

def discogsId (v : Value) (entityType : String) : Value :=
  findDiscogsId (extractUrlRels (relationsOf v)) entityType

def artistData (v : Value) : Value :=
  .json [
    ("discogs_artist_id", discogsId v "artist"),
    ("name", v.index "name"),
    ("sort_name", v.index "sort-name"),
    ("mb_type", v.index "type"),
    ("gender", v.index "gender"),
    ("life_span", lifeSpanData (v.index "life-span")),
    ("area", stringOrNull ((v.index "area").index "name")),
    ("begin_area", stringOrNull ((v.index "begin-area").index "name")),
    ("end_area", stringOrNull ((v.index "end-area").index "name")),
    ("disambiguation", v.index "disambiguation"),
    ("aliases", v.index "aliases"),
    ("tags", v.index "tags"),
    ("relations", entityRels v),
    ("external_links", externalLinks v)]

def labelData (v : Value) : Value :=
  .json [
    ("discogs_label_id", discogsId v "label"),
    ("name", v.index "name"),
    ("mb_type", v.index "type"),
    ("label_code", v.index "label-code"),
    ("life_span", lifeSpanData (v.index "life-span")),
    ("area", stringOrNull ((v.index "area").index "name")),
    ("disambiguation", v.index "disambiguation"),
    ("relations", entityRels v),
    ("external_links", externalLinks v)]

/-- The normalized release before the canonical blocks are attached to it. -/
def releaseFields (v : Value) : Value :=
  .json [
    ("discogs_release_id", discogsId v "release"),
    ("name", v.index "title"),
    ("disambiguation", v.index "disambiguation"),
    ("barcode", v.index "barcode"),
    ("country", v.index "country"),
    ("release_events", .array (extractReleaseEvents (v.index "release-events").elements)),
    ("catalog_numbers", .array (extractCatalogNumbers (v.index "label-info").elements)),
    ("status", v.index "status"),
    ("release_group_mbid", stringOrNull ((v.index "release-group").index "id")),
    ("aliases", v.index "aliases"),
    ("tags", v.index "tags"),
    ("relations", entityRels v),
    ("external_links", externalLinks v),
    ("media_raw", .array (extractMediaRaw (v.index "media").elements))]

/-- The canonical media and identifiers blocks are attached before the hash is taken. -/
def releaseData (env : Externals) (v : Value) : Value :=
  Identifiers.attachIdentifiersBlock env.toUppercase Identifiers.vocabulary
    (Media.attachMediaBlock Media.taxonomy (releaseFields v) v) v

def releaseGroupData (v : Value) : Value :=
  .json [
    ("discogs_master_id", discogsId v "master"),
    ("name", v.index "title"),
    ("mb_type", v.index "primary-type"),
    ("secondary_types", v.index "secondary-types"),
    ("first_release_date", v.index "first-release-date"),
    ("disambiguation", v.index "disambiguation"),
    ("relations", entityRels v),
    ("external_links", externalLinks v)]

/-- The message of a parsed record, hashed over the data given. -/
def dataMessage (env : Externals) (v data : Value) (dumpVersion : String) : DataMessage where
  id := (v.index "id").asStr.getD "unknown"
  sha256 := env.calculateContentHash data
  dumpVersion := dumpVersion
  data := data
  rawXml := none

/-- The shape the four line parsers share. -/
def parseLine (env : Externals) (context : String) (data : Value → Value)
    (line dumpVersion : String) : Except Error DataMessage :=
  match env.fromStr line with
  | .error e => .error [context, e]
  | .ok v => .ok (dataMessage env v (data v) dumpVersion)

def parseMbArtistLine (env : Externals) : String → String → Except Error DataMessage :=
  parseLine env "Failed to parse artist JSONL line" artistData

def parseMbLabelLine (env : Externals) : String → String → Except Error DataMessage :=
  parseLine env "Failed to parse label JSONL line" labelData

def parseMbReleaseLine (env : Externals) : String → String → Except Error DataMessage :=
  parseLine env "Failed to parse release JSONL line" (releaseData env)

def parseMbReleaseGroupLine (env : Externals) : String → String → Except Error DataMessage :=
  parseLine env "Failed to parse release-group JSONL line" releaseGroupData

/-! ## The first pass -/

abbrev DiscogsMap := Table String Int64

/-- What one line adds to the map; blank and malformed lines add nothing. -/
def mapLine (env : Externals) (entityType : String) (map : DiscogsMap) (line : String) :
    DiscogsMap :=
  let trimmed := Text.trim line
  if trimmed = "" then map
  else match env.fromStr trimmed with
    | .error _ => map
    | .ok v =>
      match (v.index "id").asStr with
      | none => map
      | some mbid =>
        match (extractUrlRels (relationsOf v)).findSome? (relDiscogsId entityType) with
        | some id => map.insert mbid id
        | none => map

/-- A read error is fatal: it would repeat on every later read. -/
def buildMapFromLines (env : Externals) (path entityType : String) (map : DiscogsMap) :
    List (Except String String) → Except Error DiscogsMap
  | [] => .ok map
  | .error e :: _ =>
    .error ["Failed to read line during MBID map build from \"" ++ path ++ "\"", e]
  | .ok line :: rest => buildMapFromLines env path entityType (mapLine env entityType map line) rest

def buildMbidDiscogsMapFromFile (env : Externals) (path entityType : String) :
    Except Error DiscogsMap :=
  match openJsonlReader env path with
  | .error e => .error (("Failed to open file for MBID map: \"" ++ path ++ "\"") :: e)
  | .ok stream => buildMapFromLines env path entityType ∅ stream.lines

/-! ## The second pass -/

def singularEntityType (entityType : String) : String :=
  match entityType with
  | "artists" => "artist"
  | "labels" => "label"
  | "releases" => "release"
  | "release-groups" => "release-group"
  | other => (Text.stripSuffix other "s").getD other

def targetFieldName (singular : String) : String :=
  "target_discogs_" ++ String.ofList (singular.toList.map fun c => if c = '-' then '_' else c) ++ "_id"

def enrichRelation (map : DiscogsMap) (singular : String) (rel : Value) : Value :=
  if (rel.index "target_type").asStr.getD "" ≠ singular then rel
  else
    rel.insert (targetFieldName singular)
      (ofI64 ((rel.index "target_mbid").asStr.bind fun mbid => map.lookup mbid))

def enrichRelations (relations : List Value) (map : DiscogsMap) (entityType : String) : List Value :=
  relations.map (enrichRelation map (singularEntityType entityType))

def parseFn (env : Externals) : DataType → String → String → Except Error DataMessage
  | .artists => parseMbArtistLine env
  | .labels => parseMbLabelLine env
  | .releases => parseMbReleaseLine env
  | .releaseGroups => parseMbReleaseGroupLine env

/-- The enrichment step: it rewrites `data` and leaves every other field of the message. -/
def enrichMessage (dt : DataType) (map : Option DiscogsMap) (msg : DataMessage) : DataMessage :=
  match map, (msg.data.get "relations").bind Value.asArray with
  | some map, some relations =>
    let enriched := enrichRelations relations map dt.asStr
    { msg with data := msg.data.insert "relations" (.array enriched) }
  | _, _ => msg

/-- What one line sends; blank and malformed lines send nothing. -/
def lineMessage (env : Externals) (dt : DataType) (map : Option DiscogsMap) (dumpVersion line : String) :
    Option DataMessage :=
  let trimmed := Text.trim line
  if trimmed = "" then none
  else match parseFn env dt trimmed dumpVersion with
    | .ok msg => some (enrichMessage dt map msg)
    | .error _ => none

def readError (path e : String) : Error :=
  ["Failed to read line while parsing MusicBrainz JSONL from \"" ++ path ++ "\"", e]

/-- The loop over the lines: the messages sent and what the call returns. `accepts` is how
many sends succeed before the receiver is dropped, `none` when it outlives the file. -/
def parseLines (message : String → Option DataMessage) (path : String) :
    List (Except String String) → Option Nat → Nat → List DataMessage × Except Error Nat
  | [], _, count => ([], .ok count)
  | .error e :: _, _, _ =>
    ([], .error (readError path e))
  | .ok line :: rest, accepts, count =>
    match message line with
    | none => parseLines message path rest accepts count
    | some msg =>
      if accepts = some 0 then ([], .ok count)
      else
        let (sent, result) := parseLines message path rest (accepts.map (· - 1)) (count + 1)
        (msg :: sent, result)

def parseMbJsonlFile (env : Externals) (path : String) (dt : DataType) (accepts : Option Nat)
    (map : Option DiscogsMap) (dumpVersion : String) : List DataMessage × Except Error Nat :=
  match openJsonlReader env path with
  | .error e => ([], .error (("Failed to open JSONL file: \"" ++ path ++ "\"") :: e))
  | .ok stream => parseLines (lineMessage env dt map dumpVersion) path stream.lines accepts 0

/-! ## Records and messages -/

/-- The data a line parser builds for a parsed record. -/
def recordData (env : Externals) : DataType → Value → Value
  | .artists => artistData
  | .labels => labelData
  | .releases => releaseData env
  | .releaseGroups => releaseGroupData

/-- The message a record is sent as. -/
def recordMessage (env : Externals) (dt : DataType) (map : Option DiscogsMap) (dumpVersion : String)
    (v : Value) : DataMessage :=
  enrichMessage dt map (dataMessage env v (recordData env dt v) dumpVersion)

/-- The record a line holds, if any. -/
def lineRecord (env : Externals) (line : String) : Option Value :=
  if Text.trim line = "" then none else (env.fromStr (Text.trim line)).toOption

/-- The lines before the first read error. -/
def readable : List (Except String String) → List String
  | .ok line :: rest => line :: readable rest
  | _ => []

def takeAccepted {α : Type} (accepts : Option Nat) (xs : List α) : List α :=
  match accepts with
  | some n => xs.take n
  | none => xs

/-- The records of a file that are sent before the receiver is dropped. -/
def publishedRecords (env : Externals) (path : String) (accepts : Option Nat) : List Value :=
  match openJsonlReader env path with
  | .error _ => []
  | .ok stream => takeAccepted accepts ((readable stream.lines).filterMap (lineRecord env))

theorem parseFn_eq (env : Externals) (dt : DataType) (line dumpVersion : String) {v : Value}
    (h : env.fromStr line = .ok v) :
    parseFn env dt line dumpVersion = .ok (dataMessage env v (recordData env dt v) dumpVersion) := by
  cases dt <;>
    simp only [parseFn, parseMbArtistLine, parseMbLabelLine, parseMbReleaseLine,
      parseMbReleaseGroupLine, parseLine, h, recordData]

theorem parseFn_error (env : Externals) (dt : DataType) (line dumpVersion : String) {e : String}
    (h : env.fromStr line = .error e) :
    ∃ context, parseFn env dt line dumpVersion = .error [context, e] := by
  cases dt <;>
    simp only [parseFn, parseMbArtistLine, parseMbLabelLine, parseMbReleaseLine,
      parseMbReleaseGroupLine, parseLine, h, Except.error.injEq, List.cons.injEq, and_true,
      exists_eq']

theorem lineMessage_eq (env : Externals) (dt : DataType) (map : Option DiscogsMap)
    (dumpVersion line : String) :
    lineMessage env dt map dumpVersion line =
      (lineRecord env line).map (recordMessage env dt map dumpVersion) := by
  unfold lineMessage lineRecord
  by_cases hblank : Text.trim line = ""
  · simp only [hblank, if_true, Option.map_none]
  · simp only [hblank, if_false]
    cases h : env.fromStr (Text.trim line) with
    | error e =>
      obtain ⟨context, hc⟩ := parseFn_error env dt _ dumpVersion h
      simp only [hc, Except.toOption, Option.map_none]
    | ok v =>
      simp only [parseFn_eq env dt _ dumpVersion h, Except.toOption, Option.map_some, recordMessage]

theorem parseLines_sent (message : String → Option DataMessage) (path : String)
    (lines : List (Except String String)) (accepts : Option Nat) (count : Nat) :
    (parseLines message path lines accepts count).1 =
      takeAccepted accepts ((readable lines).filterMap message) := by
  induction lines generalizing accepts count with
  | nil => cases accepts <;> simp [parseLines, readable, takeAccepted]
  | cons l rest ih =>
    cases l with
    | error e => cases accepts <;> simp [parseLines, readable, takeAccepted]
    | ok line =>
      cases hm : message line with
      | none => simp only [parseLines, hm, ih, readable, List.filterMap_cons_none]
      | some msg =>
        rcases accepts with _ | _ | n <;>
          simp [parseLines, hm, ih, readable, takeAccepted]

/-- A parse nobody interrupts counts what it sends. -/
theorem parseLines_count (message : String → Option DataMessage) (path : String)
    (lines : List (Except String String)) (count : Nat) {n : Nat}
    (h : (parseLines message path lines none count).2 = .ok n) :
    n = count + (parseLines message path lines none count).1.length := by
  induction lines generalizing count with
  | nil => cases h; rfl
  | cons l rest ih =>
    cases l with
    | error e => cases h
    | ok line =>
      cases hm : message line with
      | none =>
        simp only [parseLines, hm] at h ⊢
        exact ih count h
      | some msg =>
        simp only [parseLines, hm, reduceCtorEq, if_false, Option.map_none] at h ⊢
        rw [ih (count + 1) h, List.length_cons]
        omega

/-- The messages sent are the published records, each parsed and enriched. -/
theorem parseMbJsonlFile_sent (env : Externals) (path : String) (dt : DataType)
    (accepts : Option Nat) (map : Option DiscogsMap) (dumpVersion : String) :
    (parseMbJsonlFile env path dt accepts map dumpVersion).1 =
      (publishedRecords env path accepts).map (recordMessage env dt map dumpVersion) := by
  have hfun : lineMessage env dt map dumpVersion =
      fun line => (lineRecord env line).map (recordMessage env dt map dumpVersion) :=
    funext (lineMessage_eq env dt map dumpVersion)
  unfold parseMbJsonlFile publishedRecords
  cases openJsonlReader env path with
  | error e => rfl
  | ok stream =>
    simp only [parseLines_sent, hfun, ← List.map_filterMap]
    cases accepts <;> simp [takeAccepted]

/-- Enrichment changes the data and nothing else. -/
theorem recordMessage_eq (env : Externals) (dt : DataType) (map : Option DiscogsMap)
    (dumpVersion : String) (v : Value) :
    recordMessage env dt map dumpVersion v =
      { dataMessage env v (recordData env dt v) dumpVersion with
        data := (recordMessage env dt map dumpVersion v).data } := by
  unfold recordMessage enrichMessage
  split <;> rfl

theorem recordMessage_id (env : Externals) (dt : DataType) (map : Option DiscogsMap)
    (dumpVersion : String) (v : Value) :
    (recordMessage env dt map dumpVersion v).id = (v.index "id").asStr.getD "unknown" :=
  congrArg DataMessage.id (recordMessage_eq env dt map dumpVersion v)

theorem recordMessage_sha256 (env : Externals) (dt : DataType) (map : Option DiscogsMap)
    (dumpVersion : String) (v : Value) :
    (recordMessage env dt map dumpVersion v).sha256 =
      env.calculateContentHash (recordData env dt v) :=
  congrArg DataMessage.sha256 (recordMessage_eq env dt map dumpVersion v)

theorem recordMessage_dumpVersion (env : Externals) (dt : DataType) (map : Option DiscogsMap)
    (dumpVersion : String) (v : Value) :
    (recordMessage env dt map dumpVersion v).dumpVersion = dumpVersion :=
  congrArg DataMessage.dumpVersion (recordMessage_eq env dt map dumpVersion v)

theorem recordMessage_rawXml (env : Externals) (dt : DataType) (map : Option DiscogsMap)
    (dumpVersion : String) (v : Value) : (recordMessage env dt map dumpVersion v).rawXml = none :=
  congrArg DataMessage.rawXml (recordMessage_eq env dt map dumpVersion v)

/-! ## The data of a record -/

/-- Every record is an object in key order, and `relations` is the normalized array. -/
theorem recordData_object (env : Externals) (dt : DataType) (v : Value) :
    ∃ m, recordData env dt v = .object m ∧ Entries.Sorted m ∧
      Entries.get "relations" m = some (entityRels v) := by
  cases dt with
  | artists =>
    exact ⟨_, rfl, Entries.sorted_ofList _, by simp [Entries.ofList]⟩
  | labels =>
    exact ⟨_, rfl, Entries.sorted_ofList _, by simp [Entries.ofList]⟩
  | releaseGroups =>
    exact ⟨_, rfl, Entries.sorted_ofList _, by simp [Entries.ofList]⟩
  | releases =>
    refine ⟨_, rfl, ((Entries.sorted_ofList _).insert _ _).insert _ _, ?_⟩
    simp [Entries.ofList]

theorem index_target_type (rel : Value) (targetType : String) :
    (normalizeRel rel targetType).index "target_type" =
      .string (canonicalEntityType targetType) := by
  simp [normalizeRel, Value.index, Value.json, Entries.ofList]

theorem mem_extractEntityRels {relations : List Value} {r : Value} :
    r ∈ extractEntityRels relations ↔
      ∃ rel ∈ relations, ∃ targetType, (rel.index "target-type").asStr = some targetType ∧
        targetType ≠ "url" ∧ normalizeRel rel targetType = r := by
  unfold extractEntityRels extractEntityRel
  rw [List.mem_filterMap]
  constructor
  · rintro ⟨rel, hrel, h⟩
    obtain ⟨t, ht, h⟩ := Option.bind_eq_some_iff.mp h
    split at h
    · cases h
    · next hurl =>
      cases h
      exact ⟨rel, hrel, t, ht, hurl, rfl⟩
  · rintro ⟨rel, hrel, t, ht, hurl, rfl⟩
    exact ⟨rel, hrel, Option.bind_eq_some_iff.mpr ⟨t, ht, if_neg hurl⟩⟩

/-- The published data is what the line parser built, its relations enriched when there is
a map. -/
theorem recordMessage_data (env : Externals) (dt : DataType) (map : Option DiscogsMap)
    (dumpVersion : String) (v : Value) :
    (recordMessage env dt map dumpVersion v).data = match map with
      | some map => (recordData env dt v).insert "relations"
          (.array (enrichRelations (extractEntityRels (relationsOf v)) map dt.asStr))
      | none => recordData env dt v := by
  obtain ⟨m, hdata, -, hrel⟩ := recordData_object env dt v
  cases map with
  | none => rfl
  | some map =>
    simp only [recordMessage, enrichMessage, dataMessage, hdata, Value.get_object, hrel, entityRels,
      Option.bind_some, Value.asArray]

/-! ## A file of one line -/

/-- The one file on disk holds one line, and the line parses to the record. -/
def singleLine (path line : String) (record : Value) (serialize : Value → String)
    (sha256Hex : String → String) : Externals where
  openFile p :=
    if p = path then .ok ⟨line.toByteArray.data.toList, none⟩
    else .error "No such file or directory (os error 2)"
  xzDecode stream := stream
  fromStr text := if text = line then .ok record else .error "expected value at line 1 column 1"
  serialize := serialize
  sha256Hex := sha256Hex
  toUppercase text := text

theorem publishedRecords_singleLine {path line : String} (record : Value)
    (serialize : Value → String) (sha256Hex : String → String)
    (hext : Text.extension path = some "jsonl") (hne : line.toByteArray.data.toList ≠ [])
    (hfeed : 10 ∉ line.toByteArray.data.toList) (htrim : Text.trim line = line) (hline : line ≠ "") :
    publishedRecords (singleLine path line record serialize sha256Hex) path none = [record] := by
  have hopen : openJsonlReader (singleLine path line record serialize sha256Hex) path =
      .ok ⟨line.toByteArray.data.toList, none⟩ := by
    simp [openJsonlReader, singleLine, hext]
  have hrecord : lineRecord (singleLine path line record serialize sha256Hex) line = some record := by
    simp [lineRecord, htrim, hline, singleLine, Except.toOption]
  simp only [publishedRecords, hopen, Text.lines_toByteArray hne hfeed, readable,
    List.filterMap_cons, hrecord, List.filterMap_nil, takeAccepted]

end MusicbrainzIngestion.JsonlParser
