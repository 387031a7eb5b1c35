import MusicbrainzIngestion.Base.JsonCanonical
import MusicbrainzIngestion.Base.JsonRecord
import MusicbrainzIngestion.ContentHash

/-! Messages as they go over the wire: objects tagged with the kind of message, the data of a record
flattened into its own. What is written is read back. -/

namespace MusicbrainzIngestion
open Base Base.Json

/-! ## Writing and reading -/

/-- How a time is printed and read. -/
structure TimeFormat where
  print : DateTime → String
  read : String → Option DateTime
  read_print : ∀ t, read (print t) = some t

namespace TimeFormat

def toValue (f : TimeFormat) (t : DateTime) : Value := .string (f.print t)

def ofValue (f : TimeFormat) (v : Value) : Option DateTime := v.asStr.bind f.read

@[simp] theorem ofValue_toValue (f : TimeFormat) (t : DateTime) : f.ofValue (f.toValue t) = some t :=
  f.read_print t

end TimeFormat

/-- How JSON is printed and read, its objects in the order of the text. -/
structure JsonText where
  print : Value → String
  read : String → Option Value
  read_print : ∀ v, read (print v) = some v

/-- What flattening a value writes into the object around it. -/
def flattened : Value → Option Entries
  | .object es => some es
  | .null => some []
  | _ => none

/-- The entries of a message, in the order in which they are written. -/
def Message.toEntries (f : TimeFormat) : Message → Option Entries
  | .data m => (flattened m.data).map fun data => [
      ("type", .string "data"),
      ("id", .string m.id),
      ("sha256", .string m.sha256),
      ("dump_version", .string m.dumpVersion)] ++ data
  | .fileComplete m => some [
      ("type", .string "file_complete"),
      ("data_type", .string m.dataType),
      ("timestamp", f.toValue m.timestamp),
      ("total_processed", .ofNat m.totalProcessed),
      ("file", .string m.file)]
  | .extractionComplete m => some [
      ("type", .string "extraction_complete"),
      ("version", .string m.version),
      ("timestamp", f.toValue m.timestamp),
      ("started_at", f.toValue m.startedAt),
      ("record_counts", .ofTable Value.ofNat m.recordCounts)]

/-- The fields of a record; all other keys are collected into its data. -/
def DataMessage.ofEntries (es : Entries) : Option DataMessage := do
  let id ← es.required "id" Value.asStr
  let sha256 ← es.required "sha256" Value.asStr
  let dumpVersion ← es.required "dump_version" Value.asStr
  let data := (Value.object (es.others ["id", "sha256", "dump_version"])).canonical
  return { id, sha256, dumpVersion, data, rawXml := none }

def FileCompleteMessage.ofEntries (f : TimeFormat) (es : Entries) : Option FileCompleteMessage := do
  let dataType ← es.required "data_type" Value.asStr
  let timestamp ← es.required "timestamp" f.ofValue
  let totalProcessed ← es.required "total_processed" Value.asNat
  let file ← es.required "file" Value.asStr
  return { dataType, timestamp, totalProcessed, file }

def ExtractionCompleteMessage.ofEntries (f : TimeFormat) (es : Entries) :
    Option ExtractionCompleteMessage := do
  let version ← es.required "version" Value.asStr
  let timestamp ← es.required "timestamp" f.ofValue
  let startedAt ← es.required "started_at" f.ofValue
  let recordCounts ← es.required "record_counts" (Value.asTable Value.asNat)
  return { version, timestamp, startedAt, recordCounts }

/-- The tag decides how the other entries are read. -/
def Message.ofEntries (f : TimeFormat) (es : Entries) : Option Message := do
  let tag ← es.required "type" Value.asStr
  let content := es.others ["type"]
  match tag with
  | "data" => (DataMessage.ofEntries content).map .data
  | "file_complete" => (FileCompleteMessage.ofEntries f content).map .fileComplete
  | "extraction_complete" =>
    (ExtractionCompleteMessage.ofEntries f content).map .extractionComplete
  | _ => none

/-- The payload of a published frame. -/
def Message.toText (f : TimeFormat) (text : JsonText) (m : Message) : Option String :=
  (m.toEntries f).map fun es => text.print (.object es)

def Message.ofText (f : TimeFormat) (text : JsonText) (payload : String) : Option Message :=
  match text.read payload with
  | some (.object es) => Message.ofEntries f es
  | _ => none

/-- The keys beside which the data of a record is written. -/
def reservedKeys : List String := ["type", "id", "sha256", "dump_version"]

/-! ## The data of a record is canonical -/

namespace JsonlParser

open Value

variable {v : Value}

theorem canonical_stringOrNull (v : Value) : (stringOrNull v).Canonical := canonical_ofOption _

theorem canonical_normalizeRel (h : v.Canonical) (targetType : String) :
    (normalizeRel v targetType).Canonical := by
  refine canonical_json ?_
  simp [h.index, Canonical.string]

theorem canonical_entityRels (h : v.Canonical) : (entityRels v).Canonical := by
  refine .array fun r hr => ?_
  obtain ⟨rel, hrel, t, -, -, rfl⟩ := mem_extractEntityRels.mp hr
  exact canonical_normalizeRel ((h.index "relations").elements rel hrel) t

theorem canonical_externalLinks (v : Value) : (externalLinks v).Canonical := by
  refine .array fun link hlink => ?_
  obtain ⟨rel, -, hsome⟩ := List.mem_filterMap.mp hlink
  obtain ⟨relType, -, hlink⟩ := Option.bind_eq_some_iff.mp hsome
  split at hlink
  · cases hlink
  · obtain ⟨resource, -, rfl⟩ := Option.map_eq_some_iff.mp hlink
    refine canonical_json ?_
    simp [Canonical.string]

theorem canonical_ofI64 (n : Option Int64) : (ofI64 n).Canonical := by
  cases n with
  | none => exact .null
  | some n => exact .number _

theorem canonical_lifeSpanData (h : v.Canonical) : (lifeSpanData v).Canonical := by
  refine canonical_json ?_
  simp [h.index]

theorem canonical_mediaRaw (h : v.Canonical) :
    (Value.array (extractMediaRaw (v.index "media").elements)).Canonical := by
  refine .array fun medium hraw => ?_
  obtain ⟨m, hm, rfl⟩ := List.mem_map.mp hraw
  have hmedium := (h.index "media").elements m hm
  refine canonical_json ?_
  simp [hmedium.index]

theorem canonical_releaseEvents (events : List Value) :
    (Value.array (extractReleaseEvents events)).Canonical := by
  refine .array fun event he => ?_
  obtain ⟨raw, -, hsome⟩ := List.mem_filterMap.mp he
  dsimp only at hsome
  split at hsome
  · cases hsome
  · cases hsome
    refine canonical_json ?_
    simp [canonical_stringOrNull]

theorem canonical_catalogNumbers (labelInfo : List Value) :
    (Value.array (extractCatalogNumbers labelInfo)).Canonical := by
  refine .array fun number hn => ?_
  obtain ⟨info, -, hsome⟩ := List.mem_filterMap.mp hn
  obtain ⟨catalogNumber, -, rfl⟩ := Option.map_eq_some_iff.mp hsome
  refine canonical_json ?_
  simp [canonical_stringOrNull, Canonical.string]

theorem canonical_strings (values : List String) : (Media.strings values).Canonical := by
  refine .array fun w hw => ?_
  obtain ⟨s, -, rfl⟩ := List.mem_map.mp hw
  exact .string s

theorem canonical_optionNumber (n : Option Number) : (Media.optionNumber n).Canonical := by
  cases n with
  | none => exact .null
  | some n => exact .number n

theorem canonical_mediaItem (item : Media.MediaItem) : item.toValue.Canonical := by
  have hsource : item.source.toValue.Canonical := by
    refine canonical_json ?_
    simp [Canonical.string, canonical_ofOption, canonical_strings]
  refine canonical_json ?_
  simp [canonical_ofOption, canonical_strings, canonical_optionNumber, Canonical.number, hsource,
    show ∀ n, (Media.optionI64 n).Canonical from canonical_ofI64]

theorem canonical_mediaBlock (block : Media.MediaBlock) : block.toValue.Canonical := by
  have hunmapped : block.unmapped.toValue.Canonical := by
    refine canonical_json ?_
    simp [canonical_strings]
  have hitems : (Value.array (block.items.map Media.MediaItem.toValue)).Canonical := by
    refine .array fun w hw => ?_
    obtain ⟨item, -, rfl⟩ := List.mem_map.mp hw
    exact canonical_mediaItem item
  refine canonical_json ?_
  simp [Canonical.string, canonical_ofOption, canonical_strings, hunmapped, hitems]

/-- Every identifier that is added is canonical. -/
theorem canonical_add (toUppercase : String → String) (vocab : Identifiers.Vocabulary)
    {c : Identifiers.Collected} (h : ∀ item ∈ c.items, item.Canonical) (rawType value field : String) :
    ∀ item ∈ (Identifiers.add toUppercase vocab c rawType value field).items, item.Canonical := by
  intro item hitem
  rcases List.mem_append.mp hitem with hitem | hitem
  · exact h item hitem
  · rw [List.mem_singleton.mp hitem]
    have hsource : (Value.json [("provider", .string "musicbrainz"), ("type", .null),
        ("field", .string field)]).Canonical := by
      refine canonical_json ?_
      simp [Canonical.string, Canonical.null]
    refine canonical_json ?_
    simp [Canonical.string, Canonical.null, hsource]

theorem canonical_identifiers (toUppercase : String → String) (vocab : Identifiers.Vocabulary)
    (release : Value) :
    (Identifiers.mapMusicbrainzIdentifiers toUppercase vocab release).Canonical := by
  have hstrings : ∀ values : List String, (Value.array (values.map .string)).Canonical :=
    canonical_strings
  have hpairs : ∀ pairs : List (String × String), (Value.array (pairs.map fun a => Value.json
      [("provider", .string a.1), ("external_id", .string a.2)])).Canonical := fun pairs => by
    refine .array fun w hw => ?_
    obtain ⟨a, -, rfl⟩ := List.mem_map.mp hw
    refine canonical_json ?_
    simp [Canonical.string]
  have hunmapped : ∀ values : List String,
      (Value.json [("types", .array (values.map .string))]).Canonical := fun values => by
    refine canonical_json ?_
    simp [hstrings]
  refine canonical_json ?_
  simp only [List.forall_mem_cons, hstrings, hpairs, hunmapped, Canonical.string, true_and]
  refine ⟨.array ?_, fun e he => by cases he⟩
  refine List.foldlRecOn (motive := fun c : Identifiers.Collected =>
    ∀ item ∈ c.items, item.Canonical) _ _ ?_ ?_
  · split
    · refine canonical_add toUppercase vocab (fun item hitem => ?_) _ _ _
      cases hitem
    · intro item hitem
      cases hitem
  · intro c hc entry _
    split
    · exact canonical_add toUppercase vocab hc _ _ _
    · exact hc

theorem canonical_recordData (env : Externals) (dt : DataType) (h : v.Canonical) :
    (recordData env dt v).Canonical := by
  have hid := fun entityType => canonical_ofI64
    ((extractUrlRels (relationsOf v)).findSome? (relDiscogsId entityType))
  have hdiscogs : ∀ entityType, (discogsId v entityType).Canonical := hid
  have hrelations := canonical_entityRels h
  have hlinks := canonical_externalLinks v
  have hspan := canonical_lifeSpanData (h.index "life-span")
  cases dt with
  | artists | labels | releaseGroups =>
    refine canonical_json ?_
    simp [h.index, hdiscogs, hrelations, hlinks, hspan, canonical_stringOrNull]
  | releases =>
    have hfields : (releaseFields v).Canonical := by
      refine canonical_json ?_
      simp [h.index, hdiscogs, hrelations, hlinks, canonical_stringOrNull, canonical_mediaRaw h,
        canonical_releaseEvents, canonical_catalogNumbers]
    have hmedia := hfields.insert (canonical_mediaBlock (Media.mapMusicbrainzRelease Media.taxonomy
      (Media.releaseView v ((((releaseFields v).get "media_raw").bind Value.asArray).getD [])))) "media"
    exact hmedia.insert (canonical_identifiers _ _ _) "identifiers"

/-! ## The keys of a record -/

/-- No key of the object is one that the message has for itself. -/
def Unreserved (es : Entries) : Prop := ∀ e ∈ es, e.1 ∉ reservedKeys

theorem unreserved_json {es : List (String × Value)} (h : ∀ e ∈ es, e.1 ∉ reservedKeys) :
    Unreserved (Entries.ofList es) := fun e he => h e (Entries.mem_of_ofList he)

theorem Unreserved.insert {es : Entries} (h : Unreserved es) {key : String}
    (hk : key ∉ reservedKeys) (value : Value) : Unreserved (Entries.insert key value es) := by
  intro e he
  rcases Entries.mem_insert he with rfl | he
  · exact hk
  · exact h e he

theorem recordData_unreserved (env : Externals) (dt : DataType) (v : Value) :
    ∃ es, recordData env dt v = .object es ∧ Unreserved es := by
  cases dt with
  | artists | labels | releaseGroups =>
    refine ⟨_, rfl, unreserved_json ?_⟩
    simp [reservedKeys]
  | releases =>
    refine ⟨_, rfl, ((unreserved_json ?_).insert ?_ _).insert ?_ _⟩
    · simp [reservedKeys]
    · simp [reservedKeys]
    · simp [reservedKeys]

/-- Enriching a relation writes one more field. -/
theorem canonical_enrichRelation (map : DiscogsMap) (singular : String) {rel : Value}
    (h : rel.Canonical) : (enrichRelation map singular rel).Canonical := by
  unfold enrichRelation
  split
  · exact h
  · exact h.insert (canonical_ofI64 _) _

/-- What is sent of a record, enriched or not: an object in canonical form whose keys are none of
those of the message. -/
theorem recordMessage_flattens (env : Externals) (dt : DataType) (map : Option DiscogsMap) (dumpVersion : String)
    (h : v.Canonical) : ∃ es, (recordMessage env dt map dumpVersion v).data = .object es ∧
      Unreserved es ∧ (Value.object es).Canonical := by
  obtain ⟨es, hes, hunreserved⟩ := recordData_unreserved env dt v
  have hcanonical := canonical_recordData env dt h
  rw [recordMessage_data]
  cases map with
  | none =>
    rw [hes] at hcanonical
    exact ⟨es, hes, hunreserved, hcanonical⟩
  | some map =>
    have hrelations : (Value.array (enrichRelations (extractEntityRels (relationsOf v)) map
        dt.asStr)).Canonical := by
      refine .array fun r hr => ?_
      obtain ⟨rel, hrel, rfl⟩ := List.mem_map.mp hr
      exact canonical_enrichRelation map _ ((canonical_entityRels h).elements rel hrel)
    have hinserted := hcanonical.insert hrelations "relations"
    rw [hes] at hinserted ⊢
    exact ⟨_, rfl, hunreserved.insert (by simp [reservedKeys]) _, hinserted⟩

end JsonlParser

/-! ## The round trip -/

section RoundTrip

variable {f : TimeFormat}

theorem Message.toEntries_data {m : DataMessage} {es : Entries} (h : m.data = .object es) :
    Message.toEntries f (.data m) = some ([
      ("type", .string "data"),
      ("id", .string m.id),
      ("sha256", .string m.sha256),
      ("dump_version", .string m.dumpVersion)] ++ es) := by
  rw [Message.toEntries, h, flattened, Option.map_some]

/-- A message around an object that leaves its keys alone is read back. -/
theorem DataMessage.ofEntries_toEntries {m : DataMessage} {es : Entries}
    (hdata : m.data = .object es) (hkeys : JsonlParser.Unreserved es)
    (hcanonical : (Value.object es).Canonical) (hraw : m.rawXml = none) :
    (Message.toEntries f (.data m)).bind (Message.ofEntries f) = some (.data m) := by
  have hothers : ∀ keys, (∀ key ∈ keys, key ∈ reservedKeys) → Entries.others keys es = es :=
    fun keys hk => Entries.others_of_disjoint fun e he hin => hkeys e he (hk _ hin)
  have hnone : ∀ key ∈ reservedKeys, Entries.occurrences key es = [] := fun key hk =>
    Entries.occurrences_of_not_mem fun hin => by
      obtain ⟨e, he, heq⟩ := List.mem_map.mp hin
      exact hkeys e he (heq ▸ hk)
  obtain ⟨id, sha256, dumpVersion, data, rawXml⟩ := m
  subst hdata hraw
  have htype : Entries.others ["type"] ([("type", Value.string "data"), ("id", .string id),
      ("sha256", .string sha256), ("dump_version", .string dumpVersion)] ++ es) =
      [("id", Value.string id), ("sha256", .string sha256), ("dump_version", .string dumpVersion)] ++
        es := by
    rw [Entries.others_append, hothers _ (by simp [reservedKeys])]
    rfl
  have hfields : Entries.others ["id", "sha256", "dump_version"] ([("id", Value.string id),
      ("sha256", .string sha256), ("dump_version", .string dumpVersion)] ++ es) = es := by
    rw [Entries.others_append, hothers _ (by simp [reservedKeys])]
    rfl
  have hread : ∀ key ∈ reservedKeys, ∀ fields : Entries, Entries.required key Value.asStr
      (fields ++ es) = Entries.required key Value.asStr fields := fun key hk fields => by
    rw [Entries.required, Entries.occurrences_append, hnone key hk, List.append_nil]
    rfl
  simp only [Message.toEntries, flattened, Option.map_some, Option.bind_some, Message.ofEntries,
    hread "type" (by simp [reservedKeys]), htype]
  have hcontent : DataMessage.ofEntries ([("id", Value.string id), ("sha256", .string sha256),
      ("dump_version", .string dumpVersion)] ++ es) =
      some ⟨id, sha256, dumpVersion, .object es, none⟩ := by
    simp only [DataMessage.ofEntries, hfields, hcanonical.canonical,
      hread "id" (by simp [reservedKeys]), hread "sha256" (by simp [reservedKeys]),
      hread "dump_version" (by simp [reservedKeys])]
    rfl
  rw [hcontent]
  rfl

theorem ofText_print (text : JsonText) (es : Entries) :
    Message.ofText f text (text.print (.object es)) = Message.ofEntries f es := by
  rw [Message.ofText, text.read_print]

/-- The counter of a file fits its type. -/
def FileCompleteMessage.Bounded (m : FileCompleteMessage) : Prop := m.totalProcessed < 2 ^ 64

def ExtractionCompleteMessage.Bounded (m : ExtractionCompleteMessage) : Prop :=
  ∀ k n, m.recordCounts.lookup k = some n → n < 2 ^ 64

theorem FileCompleteMessage.ofEntries_toEntries {m : FileCompleteMessage} (h : m.Bounded) :
    (Message.toEntries f (.fileComplete m)).bind (Message.ofEntries f) = some (.fileComplete m) := by
  obtain ⟨dataType, timestamp, totalProcessed, file⟩ := m
  have hread : FileCompleteMessage.ofEntries f [
      ("data_type", .string dataType),
      ("timestamp", f.toValue timestamp),
      ("total_processed", .ofNat totalProcessed),
      ("file", .string file)] = some ⟨dataType, timestamp, totalProcessed, file⟩ := by
    have hcount : (Value.ofNat totalProcessed).asNat = some totalProcessed := Value.asNat_ofNat h
    simp [FileCompleteMessage.ofEntries, Entries.required, Entries.occurrences, hcount, Value.asStr]
  rw [Message.toEntries, Option.bind_some]
  simpa [Message.ofEntries, Entries.required, Entries.occurrences, Entries.others, Value.asStr]
    using hread

/-- The counts come back in another order, under the same keys. -/
theorem ExtractionCompleteMessage.ofEntries_toEntries {m : ExtractionCompleteMessage}
    (h : m.Bounded) : ∃ counts : Table String Nat, (∀ k, counts.lookup k = m.recordCounts.lookup k) ∧
      (Message.toEntries f (.extractionComplete m)).bind (Message.ofEntries f) =
        some (.extractionComplete { m with recordCounts := counts }) := by
  obtain ⟨version, timestamp, startedAt, recordCounts⟩ := m
  have hbounded : ∀ k n, recordCounts.lookup k = some n → (Value.ofNat n).asNat = some n :=
    fun k n hn => Value.asNat_ofNat (h k n hn)
  obtain ⟨counts, hcounts, hlookup⟩ := Value.asTable_ofTable hbounded
  refine ⟨counts, hlookup, ?_⟩
  have hread : ExtractionCompleteMessage.ofEntries f [
      ("version", .string version),
      ("timestamp", f.toValue timestamp),
      ("started_at", f.toValue startedAt),
      ("record_counts", .ofTable Value.ofNat recordCounts)] =
      some ⟨version, timestamp, startedAt, counts⟩ := by
    simp [ExtractionCompleteMessage.ofEntries, Entries.required, Entries.occurrences, hcounts,
      Value.asStr]
  rw [Message.toEntries, Option.bind_some]
  simpa [Message.ofEntries, Entries.required, Entries.occurrences, Entries.others, Value.asStr]
    using hread

theorem Message.ofText_of_toEntries {m m' : Message} (text : JsonText)
    (h : (m.toEntries f).bind (Message.ofEntries f) = some m') :
    ∃ payload, m.toText f text = some payload ∧ Message.ofText f text payload = some m' := by
  obtain ⟨es, hes, hm'⟩ := Option.bind_eq_some_iff.mp h
  refine ⟨text.print (.object es), ?_, ?_⟩
  · rw [Message.toText, hes, Option.map_some]
  · rw [ofText_print, hm']

/-- The keys of a sorted map, behind those of the message. -/
theorem nodup_keys {es : Entries} (hs : Entries.Sorted es) (hkeys : JsonlParser.Unreserved es) :
    (reservedKeys ++ es.map Prod.fst).Nodup := by
  refine List.nodup_append.mpr ⟨by decide, ?_, ?_⟩
  · exact List.pairwise_map.mpr (hs.imp fun hlt => ne_of_lt hlt)
  · rintro key hreserved _ hkey rfl
    obtain ⟨e, he, rfl⟩ := List.mem_map.mp hkey
    exact hkeys e he hreserved

end RoundTrip

namespace JsonlParser

/-- The object a record is sent as, and what is read back of it. -/
structure Transmits (env : Externals) (f : TimeFormat) (text : JsonText) (m : DataMessage) : Prop where
  keys : ∃ es wire, m.data = .object es ∧ Message.toEntries f (.data m) = some wire ∧
    wire.map Prod.fst = ["type", "id", "sha256", "dump_version"] ++ es.map Prod.fst ∧
    (wire.map Prod.fst).Nodup
  apart : ∀ es, m.data = .object es →
    ∀ key ∈ es.map Prod.fst, key ∉ ["type", "id", "sha256", "dump_version"]
  reads : ∃ payload received, Message.toText f text (.data m) = some payload ∧
    Message.ofText f text payload = some (.data received) ∧
    received.id = m.id ∧ received.sha256 = m.sha256 ∧ received.dumpVersion = m.dumpVersion ∧
    received.data = m.data ∧ received.rawXml = none ∧
    env.calculateContentHash received.data = env.calculateContentHash m.data

theorem recordMessage_transmits {env : Externals} (f : TimeFormat) (text : JsonText) (dt : DataType)
    (map : Option DiscogsMap) (dumpVersion : String) {v : Value} (h : v.Canonical) :
    Transmits env f text (recordMessage env dt map dumpVersion v) := by
  obtain ⟨es, hdata, hkeys, hcanonical⟩ := recordMessage_flattens env dt map dumpVersion h
  have hsorted : Entries.Sorted es := by
    cases hcanonical with
    | object hs _ => exact hs
  have hread := DataMessage.ofEntries_toEntries (f := f) hdata hkeys hcanonical
    (recordMessage_rawXml env dt map dumpVersion v)
  obtain ⟨payload, hpayload, hreceived⟩ := Message.ofText_of_toEntries text hread
  refine ⟨?_, ?_, ⟨payload, _, hpayload, hreceived, rfl, rfl, rfl, rfl,
    recordMessage_rawXml env dt map dumpVersion v, rfl⟩⟩
  · exact ⟨es, _, hdata, Message.toEntries_data hdata, rfl, nodup_keys hsorted hkeys⟩
  · intro es' hes' key hkey
    rw [hdata] at hes'
    cases hes'
    obtain ⟨e, he, rfl⟩ := List.mem_map.mp hkey
    exact hkeys e he

/-- Every record a line parser accepts, enriched or not, and every message about a file or a run is
read back from what is published of it. Only the keys of a record's data stand beside those of the
message, and none of them is one of the four. -/
theorem wire_loses_nothing (env : Externals) (f : TimeFormat) (text : JsonText)
    (hreader : ∀ line v, env.fromStr line = .ok v → v.Canonical) :
    (∀ dt line dumpVersion parsed, parseFn env dt line dumpVersion = .ok parsed →
      ∀ map, Transmits env f text (enrichMessage dt map parsed)) ∧
    (∀ m : FileCompleteMessage, m.Bounded → ∃ payload,
      Message.toText f text (.fileComplete m) = some payload ∧
      Message.ofText f text payload = some (.fileComplete m)) ∧
    ∀ m : ExtractionCompleteMessage, m.Bounded → ∃ payload counts,
      Message.toText f text (.extractionComplete m) = some payload ∧
      Message.ofText f text payload = some (.extractionComplete { m with recordCounts := counts }) ∧
      ∀ k, counts.lookup k = m.recordCounts.lookup k := by
  refine ⟨?_, ?_, ?_⟩
  · intro dt line dumpVersion parsed hparsed map
    cases hline : env.fromStr line with
    | error e =>
      obtain ⟨context, herror⟩ := parseFn_error env dt line dumpVersion hline
      rw [herror] at hparsed
      cases hparsed
    | ok v =>
      rw [parseFn_eq env dt line dumpVersion hline] at hparsed
      cases hparsed
      exact recordMessage_transmits f text dt map dumpVersion (hreader line v hline)
  · intro m hm
    exact Message.ofText_of_toEntries text (FileCompleteMessage.ofEntries_toEntries hm)
  · intro m hm
    obtain ⟨counts, hlookup, hread⟩ := ExtractionCompleteMessage.ofEntries_toEntries (f := f) hm
    obtain ⟨payload, hpayload, hreceived⟩ := Message.ofText_of_toEntries text hread
    exact ⟨payload, counts, hpayload, hreceived, hlookup⟩

/-! ## The artist on the wire -/

/-- The artist's data as it is printed before and after enrichment. -/
def memberPrint (v : Value) : String :=
  if v = artistData memberRecord then memberText else memberEnrichedText

def memberHash (text : String) : String :=
  if text = memberText then "35ecb00d697f9614552fcc0c2ea0a47b3783fb55b543a854fff4d99624ee7f66"
  else "84bbb39b18fa159641d1452c3fdd5dc59cbfe308e72a2c0fb66a0584caa7a27d"

def memberWireExternals : Externals := memberExternals memberPrint memberHash

def memberWire : Entries :=
  [("type", .string "data"),
    ("id", .string "a1"),
    ("sha256", .string "35ecb00d697f9614552fcc0c2ea0a47b3783fb55b543a854fff4d99624ee7f66"),
    ("dump_version", .string "20260101-000000")] ++
  (flattened (memberEnriched memberMap)).getD []

def memberPayload : String :=
  "\x7b\"type\":\"data\",\"id\":\"a1\",\"sha256\":\"35ecb00d697f9614552fcc0c2ea0a47b3783fb55" ++
  "b543a854fff4d99624ee7f66\",\"dump_version\":\"20260101-000000\",\"aliases\":null,\"area\"" ++
  ":null,\"begin_area\":null,\"disambiguation\":null,\"discogs_artist_id\":null,\"end_area\"" ++
  ":null,\"external_links\":[],\"gender\":null,\"life_span\":\x7b\"begin\":null,\"end\":nul" ++
  "l,\"ended\":null\x7d,\"mb_type\":null,\"name\":null,\"relations\":[\x7b\"attributes\":n" ++
  "ull,\"begin_date\":null,\"direction\":null,\"end_date\":null,\"ended\":null,\"target_di" ++
  "scogs_artist_id\":7,\"target_mbid\":\"a2\",\"target_type\":\"artist\",\"type\":\"member " ++
  "of band\"\x7d],\"sort_name\":null,\"tags\":null\x7d"

theorem memberRecord_canonical : memberRecord.Canonical := by
  have hsame : memberRecord.canonical = memberRecord := by decide +kernel
  rw [← hsame]
  exact memberRecord.canonical_isCanonical

theorem memberWireExternals_reader (line : String) (v : Value)
    (h : memberWireExternals.fromStr line = .ok v) : v.Canonical := by
  have hline : memberWireExternals.fromStr line = if line = memberLine then .ok memberRecord
    else .error "expected value at line 1 column 1" := rfl
  rw [hline] at h
  by_cases hmember : line = memberLine
  · rw [if_pos hmember] at h
    cases h
    exact memberRecord_canonical
  · rw [if_neg hmember] at h
    cases h

theorem wire_loses_nothing_member : ∃ (f : TimeFormat) (text : JsonText) (parsed received : DataMessage),
    parseMbArtistLine memberWireExternals memberLine "20260101-000000" = .ok parsed ∧
    text.print (.object memberWire) = memberPayload ∧
    Message.toText f text (.data (enrichMessage .artists (some memberMap) parsed)) =
      some memberPayload ∧
    Message.ofText f text memberPayload = some (.data received) ∧
    received.data = memberEnriched memberMap := by
  obtain ⟨times⟩ := nonempty_embedding_text DateTime
  obtain ⟨print, hprint, -⟩ := exists_embedding_text (a := Value.object memberWire) (b := .null)
    (s := memberPayload) (t := "null") (by decide +kernel) (by decide +kernel)
  let f : TimeFormat := ⟨times, Function.partialInv times, Function.partialInv_left times.injective⟩
  let text : JsonText := ⟨print, Function.partialInv print, Function.partialInv_left print.injective⟩
  have hparsed := parseFn_eq memberWireExternals .artists memberLine "20260101-000000"
    (v := memberRecord) rfl
  obtain ⟨payload, received, hpayload, hreceived, -, -, -, hdata, -, -⟩ :=
    ((wire_loses_nothing memberWireExternals f text memberWireExternals_reader).1 .artists memberLine
      "20260101-000000" _ hparsed (some memberMap)).reads
  obtain ⟨es, hes⟩ : ∃ es, memberEnriched memberMap = .object es := ⟨_, rfl⟩
  have henriched : (recordMessage memberWireExternals .artists (some memberMap) "20260101-000000"
      memberRecord).data = .object es := (recordMessage_data ..).trans hes
  have hwire : memberWire = [
      ("type", .string "data"),
      ("id", .string "a1"),
      ("sha256", .string "35ecb00d697f9614552fcc0c2ea0a47b3783fb55b543a854fff4d99624ee7f66"),
      ("dump_version", .string "20260101-000000")] ++ es := by
    rw [memberWire, hes, flattened, Option.getD_some]
  have hsha : (recordMessage memberWireExternals .artists (some memberMap) "20260101-000000"
      memberRecord).sha256 = "35ecb00d697f9614552fcc0c2ea0a47b3783fb55b543a854fff4d99624ee7f66" := by
    have hserialize : memberWireExternals.serialize = memberPrint := rfl
    have hhash : memberWireExternals.sha256Hex = memberHash := rfl
    rw [recordMessage_sha256, Externals.calculateContentHash, recordData, hserialize, hhash,
      memberPrint, if_pos rfl, memberHash, if_pos rfl]
  have hid : (recordMessage memberWireExternals .artists (some memberMap) "20260101-000000"
      memberRecord).id = "a1" := recordMessage_id ..
  have hsent : payload = memberPayload := by
    have hentries := Message.toEntries_data (f := f) henriched
    rw [hid, hsha, recordMessage_dumpVersion, ← hwire] at hentries
    rw [← hprint]
    refine Option.some.inj (hpayload.symm.trans ?_)
    exact congrArg (Option.map fun es => text.print (.object es)) hentries
  subst hsent
  exact ⟨f, text, _, received, hparsed, hprint, hpayload, hreceived, hdata.trans (henriched.trans hes.symm)⟩

end JsonlParser

end MusicbrainzIngestion
