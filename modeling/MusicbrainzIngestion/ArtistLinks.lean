import MusicbrainzIngestion.JsonlParser

/-! The two passes over the artist file. Each reads the lines on its own; what they
have in common is `lineRecord`, and the map of the first pass is a fold over the
records the second pass publishes. -/

namespace MusicbrainzIngestion.JsonlParser
open Base Base.Json

/-! ## The map of the first pass -/

/-- The id a record states, when it is a string. -/
def recordId (v : Value) : Option String := (v.index "id").asStr

/-- The Discogs id the first URL relation to a Discogs page of the type carries. -/
def recordDiscogsId (entityType : String) (v : Value) : Option Int64 :=
  (extractUrlRels (relationsOf v)).findSome? (relDiscogsId entityType)

/-- What a record adds to the map. -/
def mapRecord (entityType : String) (map : DiscogsMap) (v : Value) : DiscogsMap :=
  match recordId v, recordDiscogsId entityType v with
  | some mbid, some id => map.insert mbid id
  | _, _ => map

theorem mapLine_eq (env : Externals) (entityType : String) (map : DiscogsMap) (line : String) :
    mapLine env entityType map line =
      ((lineRecord env line).map (mapRecord entityType map)).getD map := by
  unfold mapLine lineRecord
  by_cases hblank : Text.trim line = ""
  · simp only [hblank, if_true, Option.map_none, Option.getD_none]
  · simp only [hblank, if_false]
    cases env.fromStr (Text.trim line) with
    | error e => rfl
    | ok v =>
      show _ = mapRecord entityType map v
      unfold mapRecord recordDiscogsId
      cases hid : (v.index "id").asStr with
      | none => simp only [recordId, hid]
      | some mbid =>
        simp only [recordId, hid]
        cases (extractUrlRels (relationsOf v)).findSome? (relDiscogsId entityType) <;> rfl

/-- A first pass that ends has read every line. -/
theorem buildMapFromLines_ok (env : Externals) (path entityType : String) {map result : DiscogsMap}
    {lines : List (Except String String)}
    (h : buildMapFromLines env path entityType map lines = .ok result) :
    result = ((readable lines).filterMap (lineRecord env)).foldl (mapRecord entityType) map := by
  induction lines generalizing map with
  | nil => cases h; rfl
  | cons l rest ih =>
    cases l with
    | error e => cases h
    | ok line =>
      have hrest := ih h
      rw [mapLine_eq] at hrest
      cases hrecord : lineRecord env line <;>
        simpa [readable, List.filterMap_cons, hrecord] using hrest

theorem buildMbidDiscogsMapFromFile_ok {env : Externals} {path entityType : String}
    {map : DiscogsMap} (h : buildMbidDiscogsMapFromFile env path entityType = .ok map) :
    map = (publishedRecords env path none).foldl (mapRecord entityType) ∅ := by
  unfold buildMbidDiscogsMapFromFile at h
  unfold publishedRecords
  cases hopen : openJsonlReader env path with
  | error e => simp [hopen] at h
  | ok stream =>
    rw [hopen] at h
    exact buildMapFromLines_ok env path entityType h

theorem lookup_mapRecord_ne {entityType : String} {map : DiscogsMap} {v : Value} {mbid : String}
    (h : recordId v ≠ some mbid) : (mapRecord entityType map v).lookup mbid = map.lookup mbid := by
  unfold mapRecord
  cases hid : recordId v with
  | none => rfl
  | some other =>
    cases recordDiscogsId entityType v with
    | none => rfl
    | some id =>
      have hne : mbid ≠ other := fun he => h (by rw [hid, he])
      simp [AList.lookup_insert_ne hne]

theorem lookup_mapRecord_self {entityType : String} {map : DiscogsMap} {v : Value} {mbid : String}
    (h : recordId v = some mbid) (hnew : map.lookup mbid = none) :
    (mapRecord entityType map v).lookup mbid = recordDiscogsId entityType v := by
  unfold mapRecord
  rw [h]
  cases recordDiscogsId entityType v <;> simp [hnew]

/-- An id no record states keeps its entry. -/
theorem lookup_foldl_of_absent {entityType : String} {records : List Value} {mbid : String}
    (h : ∀ v ∈ records, recordId v ≠ some mbid) (map : DiscogsMap) :
    (records.foldl (mapRecord entityType) map).lookup mbid = map.lookup mbid := by
  induction records generalizing map with
  | nil => rfl
  | cons v rest ih =>
    rw [List.foldl_cons, ih (fun w hw => h w (List.mem_cons_of_mem _ hw)),
      lookup_mapRecord_ne (h v List.mem_cons_self)]

/-- Under pairwise distinct ids, an id has the Discogs id of the one record that states it. -/
theorem lookup_foldl_of_mem {entityType : String} {records : List Value} {v : Value} {mbid : String}
    (hdistinct : (records.filterMap recordId).Nodup) (hv : v ∈ records)
    (hid : recordId v = some mbid) {map : DiscogsMap} (hnew : map.lookup mbid = none) :
    (records.foldl (mapRecord entityType) map).lookup mbid = recordDiscogsId entityType v := by
  induction records generalizing map with
  | nil => cases hv
  | cons w rest ih =>
    rw [List.foldl_cons]
    have hrest : (rest.filterMap recordId).Nodup :=
      hdistinct.sublist ((List.sublist_cons_self w rest).filterMap _)
    by_cases hw : recordId w = some mbid
    · have habsent : ∀ u ∈ rest, recordId u ≠ some mbid := by
        intro u hu hstate
        rw [List.filterMap_cons_some hw] at hdistinct
        exact (List.nodup_cons.mp hdistinct).1 (List.mem_filterMap.mpr ⟨u, hu, hstate⟩)
      have heq : v = w := by
        rcases List.mem_cons.mp hv with rfl | hv
        · rfl
        · exact absurd hid (habsent v hv)
      subst heq
      rw [lookup_foldl_of_absent habsent, lookup_mapRecord_self hid hnew]
    · have hv : v ∈ rest := by
        rcases List.mem_cons.mp hv with rfl | hv
        · exact absurd hid hw
        · exact hv
      exact ih hrest hv (by rw [lookup_mapRecord_ne hw, hnew])

/-! ## The messages of the second pass -/

/-- The Discogs id a record is published with. -/
def publishedDiscogsId (env : Externals) (map : DiscogsMap) (dumpVersion : String) (v : Value) :
    Value :=
  (recordMessage env .artists (some map) dumpVersion v).data.index "discogs_artist_id"

theorem publishedDiscogsId_eq (env : Externals) (map : DiscogsMap) (dumpVersion : String)
    (v : Value) :
    publishedDiscogsId env map dumpVersion v = ofI64 (recordDiscogsId "artist" v) := by
  rw [publishedDiscogsId, recordMessage_data]
  simp [recordData, artistData, Value.json, Entries.ofList, Value.index, Value.insert, discogsId, findDiscogsId,
    recordDiscogsId]

/-! ## The two passes -/

/-- The Discogs id published for the record that states an id; `null` when none does. -/
structure PublishedFor (env : Externals) (map : DiscogsMap) (dumpVersion : String)
    (records : List Value) (mbid : String) (value : Value) : Prop where
  stated : ∀ v ∈ records, recordId v = some mbid → value = publishedDiscogsId env map dumpVersion v
  unstated : (∀ v ∈ records, recordId v ≠ some mbid) → value = .null

/-- A relation as it is published against the one `extractEntityRels` produced: a link to an
artist gains one key, anything else is unchanged. -/
def LinkedRelation (target : String → Value → Prop) (rel published : Value) : Prop :=
  ((rel.index "target_type").asStr = some "artist" →
    ∃ mbid value, (rel.index "target_mbid").asStr = some mbid ∧ target mbid value ∧
      published.get "target_discogs_artist_id" = some value ∧
      published = rel.insert "target_discogs_artist_id" value) ∧
  ((rel.index "target_type").asStr ≠ some "artist" → published = rel)

/-- An artist as it is published against its record. -/
structure LinkedArtist (env : Externals) (map : DiscogsMap) (dumpVersion : String)
    (records : List Value) (v : Value) (msg : DataMessage) : Prop where
  id : msg.id = (recordId v).getD "unknown"
  discogsId : ∀ mbid, recordId v = some mbid →
    msg.data.index "discogs_artist_id" = ofI64 (map.lookup mbid)
  relations : ∃ published, msg.data.get "relations" = some (.array published) ∧
    List.Forall₂ (LinkedRelation (PublishedFor env map dumpVersion records))
      (extractEntityRels (relationsOf v)) published

theorem lookup_of_passes {env : Externals} {path : String} {map : DiscogsMap}
    (hmap : buildMbidDiscogsMapFromFile env path "artist" = .ok map)
    (hdistinct : ((publishedRecords env path none).filterMap recordId).Nodup) {v : Value}
    (hv : v ∈ publishedRecords env path none) {mbid : String} (hid : recordId v = some mbid) :
    map.lookup mbid = recordDiscogsId "artist" v := by
  rw [buildMbidDiscogsMapFromFile_ok hmap]
  exact lookup_foldl_of_mem hdistinct hv hid rfl

theorem publishedFor_lookup {env : Externals} {path : String} {map : DiscogsMap}
    (hmap : buildMbidDiscogsMapFromFile env path "artist" = .ok map)
    (hdistinct : ((publishedRecords env path none).filterMap recordId).Nodup)
    (dumpVersion mbid : String) :
    PublishedFor env map dumpVersion (publishedRecords env path none) mbid
      (ofI64 (map.lookup mbid)) where
  stated := fun v hv hid => by
    rw [publishedDiscogsId_eq, lookup_of_passes hmap hdistinct hv hid]
  unstated := fun h => by
    rw [buildMbidDiscogsMapFromFile_ok hmap, lookup_foldl_of_absent h]
    rfl

/-- What enrichment does to a normalized relation. -/
theorem linkedRelation_enrichRelation {map : DiscogsMap} {target : String → Value → Prop}
    (htarget : ∀ mbid, target mbid (ofI64 (map.lookup mbid))) (rel : Value) (targetType : String) :
    LinkedRelation target (normalizeRel rel targetType)
      (enrichRelation map "artist" (normalizeRel rel targetType)) := by
  have hmbid : ((normalizeRel rel targetType).index "target_mbid").asStr =
      some (targetMbid rel targetType) := by
    simp [normalizeRel, Value.json, Entries.ofList, Value.index, Value.asStr]
  have hfield : targetFieldName "artist" = "target_discogs_artist_id" := by decide
  unfold LinkedRelation enrichRelation
  rw [index_target_type, hmbid, hfield, Value.asStr, Option.getD_some, Option.bind_some]
  constructor
  · intro hartist
    rw [Option.some.inj hartist]
    refine ⟨_, _, rfl, htarget _, ?_, by simp⟩
    simp [normalizeRel, Value.json]
  · intro hother
    rw [if_pos fun h => hother (congrArg some h)]

theorem linkedArtist_recordMessage {env : Externals} {path : String} {map : DiscogsMap}
    (hmap : buildMbidDiscogsMapFromFile env path "artist" = .ok map)
    (hdistinct : ((publishedRecords env path none).filterMap recordId).Nodup)
    (dumpVersion : String) {v : Value} (hv : v ∈ publishedRecords env path none) :
    LinkedArtist env map dumpVersion (publishedRecords env path none) v
      (recordMessage env .artists (some map) dumpVersion v) where
  id := recordMessage_id env .artists (some map) dumpVersion v
  discogsId := fun mbid hid => by
    show publishedDiscogsId env map dumpVersion v = _
    rw [publishedDiscogsId_eq, lookup_of_passes hmap hdistinct hv hid]
  relations := by
    have hrelations : (recordMessage env .artists (some map) dumpVersion v).data.get "relations" =
        some (.array ((extractEntityRels (relationsOf v)).map (enrichRelation map "artist"))) := by
      rw [recordMessage_data]
      simp [recordData, artistData, Value.json, enrichRelations, DataType.asStr, singularEntityType]
    refine ⟨_, hrelations, ?_⟩
    rw [List.forall₂_map_right_iff, List.forall₂_same]
    intro rel hrel
    obtain ⟨source, -, targetType, -, -, rfl⟩ := mem_extractEntityRels.mp hrel
    exact linkedRelation_enrichRelation (publishedFor_lookup hmap hdistinct dumpVersion) _ _

theorem publishedRecords_sublist (env : Externals) (path : String) (accepts : Option Nat) :
    publishedRecords env path accepts <+: publishedRecords env path none := by
  unfold publishedRecords
  cases openJsonlReader env path with
  | error e => exact List.prefix_refl _
  | ok stream =>
    cases accepts with
    | none => exact List.prefix_refl _
    | some n => exact List.take_prefix _ _

/-- The pass that collects the Discogs ids and the pass that publishes the artists agree on
every line of a file whose string ids are pairwise distinct. -/
theorem artist_passes_agree (env : Externals) (path dumpVersion : String) (accepts : Option Nat)
    (map : DiscogsMap) (hmap : buildMbidDiscogsMapFromFile env path "artist" = .ok map)
    (hdistinct : ((publishedRecords env path none).filterMap recordId).Nodup) :
    List.Forall₂ (LinkedArtist env map dumpVersion (publishedRecords env path none))
      (publishedRecords env path accepts)
      (parseMbJsonlFile env path .artists accepts (some map) dumpVersion).1 := by
  rw [parseMbJsonlFile_sent, List.forall₂_map_right_iff, List.forall₂_same]
  intro v hv
  exact linkedArtist_recordMessage hmap hdistinct dumpVersion
    ((publishedRecords_sublist env path accepts).subset hv)

/-! ## A member and her band -/

def bandPath : String := "/musicbrainz-data/20260101-000000/artist.jsonl"

/-- The member's line comes first and names the band of the second line. -/
def singerLine : String :=
  "\x7b\"id\":\"a1\",\"relations\":[\x7b\"target-type\":\"artist\",\"type\":\"member of" ++
  " band\",\"artist\":\x7b\"id\":\"a2\"\x7d\x7d]\x7d"

def bandLine : String :=
  "\x7b\"id\":\"a2\",\"relations\":[\x7b\"target-type\":\"url\",\"type\":\"discogs\"," ++
  "\"url\":\x7b\"resource\":\"https://www.discogs.com/artist/7-The-Band\"\x7d\x7d]\x7d"

def singerRecord : Value :=
  .json [
    ("id", .string "a1"),
    ("relations", .array [
      .json [
        ("target-type", .string "artist"),
        ("type", .string "member of band"),
        ("artist", .json [("id", .string "a2")])]])]

def bandRecord : Value :=
  .json [
    ("id", .string "a2"),
    ("relations", .array [
      .json [
        ("target-type", .string "url"),
        ("type", .string "discogs"),
        ("url", .json [("resource", .string "https://www.discogs.com/artist/7-The-Band")])]])]

/-- The two lines, each ended by a line feed. -/
def bandExternals : Externals where
  openFile p :=
    if p = bandPath then
      .ok ⟨singerLine.toByteArray.data.toList ++ 10 :: (bandLine.toByteArray.data.toList ++ [10]), none⟩
    else .error "No such file or directory (os error 2)"
  xzDecode stream := stream
  fromStr text :=
    if text = singerLine then .ok singerRecord
    else if text = bandLine then .ok bandRecord
    else .error "expected value at line 1 column 1"
  serialize _ := ""
  sha256Hex := id
  toUppercase := id

theorem bandExternals_fromStr (text : String) : bandExternals.fromStr text =
    if text = singerLine then .ok singerRecord
    else if text = bandLine then .ok bandRecord
    else .error "expected value at line 1 column 1" := rfl

theorem lines_band : ∃ stream, openJsonlReader bandExternals bandPath = .ok stream ∧
    stream.lines = [.ok singerLine, .ok bandLine] := by
  have hext : Text.extension bandPath = some "jsonl" := by decide
  have hopen : openJsonlReader bandExternals bandPath = .ok
      ⟨singerLine.toByteArray.data.toList ++ 10 :: (bandLine.toByteArray.data.toList ++ [10]),
        none⟩ := by
    simp [openJsonlReader, bandExternals, hext]
  refine ⟨_, hopen, ?_⟩
  unfold Text.Stream.lines
  rw [Text.linesFrom_feed (by decide), Text.linesFrom_feed (by decide)]
  have h1 : Text.stripCarriageReturn ([] ++ singerLine.toByteArray.data.toList) =
    singerLine.toByteArray.data.toList := if_neg (by decide)
  have h2 : Text.stripCarriageReturn ([] ++ bandLine.toByteArray.data.toList) =
    bandLine.toByteArray.data.toList := if_neg (by decide)
  rw [h1, h2, Text.decodeUtf8_toByteArray, Text.decodeUtf8_toByteArray]
  rfl

theorem lineRecord_singer : lineRecord bandExternals singerLine = some singerRecord := by
  have htrim : Text.trim singerLine = singerLine :=
    Text.trim_eq_self (by decide +kernel) (by decide +kernel)
  have hblank : singerLine ≠ "" := by decide
  have hread : bandExternals.fromStr singerLine = .ok singerRecord := by
    rw [bandExternals_fromStr, if_pos rfl]
  rw [lineRecord, htrim, if_neg hblank, hread]
  rfl

theorem lineRecord_band : lineRecord bandExternals bandLine = some bandRecord := by
  have htrim : Text.trim bandLine = bandLine :=
    Text.trim_eq_self (by decide +kernel) (by decide +kernel)
  have hblank : bandLine ≠ "" := by decide
  have hother : bandLine ≠ singerLine := by decide
  have hread : bandExternals.fromStr bandLine = .ok bandRecord := by
    rw [bandExternals_fromStr, if_neg hother, if_pos rfl]
  rw [lineRecord, htrim, if_neg hblank, hread]
  rfl

theorem publishedRecords_band :
    publishedRecords bandExternals bandPath none = [singerRecord, bandRecord] := by
  obtain ⟨stream, hopen, hlines⟩ := lines_band
  have hreadable : readable stream.lines = [singerLine, bandLine] := by
    rw [hlines]
    rfl
  have hrecords : (readable stream.lines).filterMap (lineRecord bandExternals) =
      [singerRecord, bandRecord] := by
    rw [hreadable, List.filterMap_cons_some lineRecord_singer,
      List.filterMap_cons_some lineRecord_band, List.filterMap_nil]
  rw [publishedRecords, hopen]
  exact hrecords

theorem recordDiscogsId_band : recordDiscogsId "artist" bandRecord = some 7 := by decide +kernel

def bandMap : DiscogsMap := (∅ : DiscogsMap).insert "a2" 7

theorem build_band : buildMbidDiscogsMapFromFile bandExternals bandPath "artist" = .ok bandMap := by
  obtain ⟨stream, hopen, hlines⟩ := lines_band
  simp only [buildMbidDiscogsMapFromFile, hopen, hlines, buildMapFromLines, mapLine_eq,
    lineRecord_singer, lineRecord_band, Option.map_some, Option.getD_some]
  have hsinger : recordDiscogsId "artist" singerRecord = none := by decide +kernel
  have hid : recordId bandRecord = some "a2" := by decide
  simp [mapRecord, hsinger, recordDiscogsId_band, hid, bandMap]

/-- The member goes out with the Discogs id of the band on the line after hers. -/
theorem artist_passes_agree_band :
    List.Forall₂ (LinkedArtist bandExternals bandMap "20260101-000000" [singerRecord, bandRecord])
        [singerRecord, bandRecord]
        (parseMbJsonlFile bandExternals bandPath .artists none (some bandMap) "20260101-000000").1 ∧
      publishedDiscogsId bandExternals bandMap "20260101-000000" bandRecord =
        .number (.posInt 7) := by
  have hdistinct : ((publishedRecords bandExternals bandPath none).filterMap recordId).Nodup := by
    rw [publishedRecords_band]
    decide
  have hagree := artist_passes_agree bandExternals bandPath "20260101-000000" none bandMap build_band
    hdistinct
  rw [publishedRecords_band] at hagree
  refine ⟨hagree, ?_⟩
  rw [publishedDiscogsId_eq, recordDiscogsId_band]
  rfl

end MusicbrainzIngestion.JsonlParser
