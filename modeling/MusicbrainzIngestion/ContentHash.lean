import MusicbrainzIngestion.Base.JsonCanonical
import MusicbrainzIngestion.JsonlParser

/-! The content hash and the payload it is published with. A line parser hashes
the data it builds; the enrichment step then rewrites the relations whose target
is of the type being processed, and those records go out under a stale hash. -/

namespace MusicbrainzIngestion.JsonlParser
open Base Base.Json

/-- The record lists a relation to a target of the type being processed. -/
def LinksOwnType (dt : DataType) (v : Value) : Prop :=
  ∃ rel ∈ relationsOf v, ∃ targetType, (rel.index "target-type").asStr = some targetType ∧
    canonicalEntityType targetType = singularEntityType dt.asStr

/-- Every message is hashed over the data it carries. -/
def HashCoversData (env : Externals) (sent : List DataMessage) : Prop :=
  ∀ m ∈ sent, m.sha256 = env.calculateContentHash m.data

/-! ## Enrichment -/

theorem targetFieldName_fresh (dt : DataType) (rel : Value) (targetType : String) :
    (normalizeRel rel targetType).get (targetFieldName (singularEntityType dt.asStr)) = none := by
  have hnew : targetFieldName (singularEntityType dt.asStr) ∉ ["type", "target_type", "target_mbid",
      "direction", "attributes", "begin_date", "end_date", "ended"] := by
    cases dt <;> decide
  cases hget : (normalizeRel rel targetType).get (targetFieldName (singularEntityType dt.asStr)) with
  | none => rfl
  | some w =>
    have hmem := Entries.mem_of_ofList (Entries.mem_of_get hget)
    exact absurd (List.mem_map_of_mem (f := Prod.fst) hmem) hnew

/-- A normalized relation is changed exactly when its target is of the type in hand: the
field enrichment writes is not one of the eight that normalizing writes. -/
theorem enrichRelation_normalizeRel (map : DiscogsMap) (dt : DataType) (rel : Value)
    (targetType : String) :
    enrichRelation map (singularEntityType dt.asStr) (normalizeRel rel targetType) =
        normalizeRel rel targetType ↔
      canonicalEntityType targetType ≠ singularEntityType dt.asStr := by
  constructor
  · intro h heq
    have hsome : ∃ w, (normalizeRel rel targetType).get
        (targetFieldName (singularEntityType dt.asStr)) = some w := by
      rw [← h]
      simp only [enrichRelation, index_target_type, Value.asStr, Option.getD_some, heq, ne_eq,
        not_true_eq_false, if_false]
      exact ⟨_, by rw [normalizeRel, Value.json, Value.get_insert_object, if_pos rfl]⟩
    obtain ⟨w, hw⟩ := hsome
    rw [targetFieldName_fresh] at hw
    cases hw
  · intro hne
    simp only [enrichRelation, index_target_type, Value.asStr, Option.getD_some, if_pos hne]

theorem canonicalEntityType_url (dt : DataType) :
    canonicalEntityType "url" ≠ singularEntityType dt.asStr := by
  cases dt <;> decide

theorem enrichRelations_eq_iff (map : DiscogsMap) (dt : DataType) (v : Value) :
    enrichRelations (extractEntityRels (relationsOf v)) map dt.asStr =
        extractEntityRels (relationsOf v) ↔ ¬ LinksOwnType dt v := by
  have hself : enrichRelations (extractEntityRels (relationsOf v)) map dt.asStr =
        extractEntityRels (relationsOf v) ↔
      ∀ r ∈ extractEntityRels (relationsOf v),
        enrichRelation map (singularEntityType dt.asStr) r = r := by
    unfold enrichRelations
    constructor
    · exact fun h => List.map_inj_left.mp (h.trans (List.map_id _).symm)
    · exact fun h => (List.map_inj_left.mpr h).trans (List.map_id _)
  rw [hself]
  constructor
  · rintro h ⟨rel, hrel, t, ht, hc⟩
    have hurl : t ≠ "url" := fun e => canonicalEntityType_url dt (e ▸ hc)
    have hr := h _ (mem_extractEntityRels.mpr ⟨rel, hrel, t, ht, hurl, rfl⟩)
    exact (enrichRelation_normalizeRel map dt rel t).mp hr hc
  · intro h r hr
    obtain ⟨rel, hrel, t, ht, hurl, rfl⟩ := mem_extractEntityRels.mp hr
    exact (enrichRelation_normalizeRel map dt rel t).mpr fun hc => h ⟨rel, hrel, t, ht, hc⟩

theorem recordMessage_data_eq_iff (env : Externals) (dt : DataType) (map : Option DiscogsMap)
    (dumpVersion : String) (v : Value) :
    (recordMessage env dt map dumpVersion v).data = recordData env dt v ↔
      map = none ∨ ¬ LinksOwnType dt v := by
  obtain ⟨m, hdata, hsorted, hrel⟩ := recordData_object env dt v
  rw [recordMessage_data, hdata]
  cases map with
  | none => simp
  | some map =>
    simp only [Value.insert, Value.object.injEq, reduceCtorEq, false_or]
    rw [← enrichRelations_eq_iff map dt v]
    constructor
    · intro h
      have hget := congrArg (Entries.get "relations") h
      rw [Entries.get_insert, if_pos rfl, hrel] at hget
      simpa [entityRels] using hget
    · intro h
      rw [h]
      exact Entries.insert_get hsorted hrel

/-! ## The published hash -/

variable {env : Externals}

theorem calculateContentHash_injective (hser : Function.Injective env.serialize)
    (hsha : Function.Injective env.sha256Hex) : Function.Injective env.calculateContentHash :=
  hsha.comp hser

/-- The condition under which the hash of every message covers what is published. -/
def HashedAsPublished (env : Externals) (path : String) (dt : DataType) (accepts : Option Nat)
    (map : Option DiscogsMap) : Prop :=
  map = none ∨ ∀ v ∈ publishedRecords env path accepts, ¬ LinksOwnType dt v

theorem hashCoversData_iff (hinj : Function.Injective env.calculateContentHash) (path : String)
    (dt : DataType) (accepts : Option Nat) (map : Option DiscogsMap) (dumpVersion : String) :
    HashCoversData env (parseMbJsonlFile env path dt accepts map dumpVersion).1 ↔
      HashedAsPublished env path dt accepts map := by
  have hmsg : ∀ v, (recordMessage env dt map dumpVersion v).sha256 =
      env.calculateContentHash (recordMessage env dt map dumpVersion v).data ↔
        map = none ∨ ¬ LinksOwnType dt v := fun v => by
    rw [recordMessage_sha256, ← recordMessage_data_eq_iff env dt map dumpVersion v]
    exact ⟨fun h => (hinj h).symm, fun h => by rw [h]⟩
  rw [parseMbJsonlFile_sent]
  simp only [HashCoversData, HashedAsPublished, List.forall_mem_map, hmsg]
  cases map <;> simp

/-- With injective printing and hashing, the messages of a file carry the hash of their own
data exactly when there is no map or no published record links to the type in hand; and two
such files that publish one id with different data publish different hashes. -/
theorem content_hash_covers_payload (env : Externals) (hser : Function.Injective env.serialize)
    (hsha : Function.Injective env.sha256Hex) :
    (∀ path dt accepts map dumpVersion,
      HashCoversData env (parseMbJsonlFile env path dt accepts map dumpVersion).1 ↔
        HashedAsPublished env path dt accepts map) ∧
    ∀ path dt accepts map dumpVersion path' accepts' map' dumpVersion',
      HashedAsPublished env path dt accepts map → HashedAsPublished env path' dt accepts' map' →
      ∀ m ∈ (parseMbJsonlFile env path dt accepts map dumpVersion).1,
      ∀ m' ∈ (parseMbJsonlFile env path' dt accepts' map' dumpVersion').1,
        m.id = m'.id → m.data ≠ m'.data → m.sha256 ≠ m'.sha256 := by
  have hinj := calculateContentHash_injective hser hsha
  refine ⟨hashCoversData_iff hinj, ?_⟩
  intro path dt accepts map dumpVersion path' accepts' map' dumpVersion' h h' m hm m' hm' _ hne heq
  have hcovers := (hashCoversData_iff hinj path dt accepts map dumpVersion).mpr h m hm
  have hcovers' := (hashCoversData_iff hinj path' dt accepts' map' dumpVersion').mpr h' m' hm'
  exact hne (hinj (hcovers.symm.trans (heq.trans hcovers')))

/-! ## One artist linking to another -/

/-- An artist whose line names one relation, to the artist `a2`. -/
def memberLine : String :=
  "\x7b\"id\":\"a1\",\"relations\":[\x7b\"target-type\":\"artist\",\"type\":\"member of" ++
  " band\",\"artist\":\x7b\"id\":\"a2\"\x7d\x7d]\x7d"

def memberRecord : Value :=
  .json [
    ("id", .string "a1"),
    ("relations", .array [
      .json [
        ("target-type", .string "artist"),
        ("type", .string "member of band"),
        ("artist", .json [("id", .string "a2")])]])]

def memberPath : String := "/musicbrainz-data/20260101-000000/artist.jsonl"

def memberMap : DiscogsMap := (∅ : DiscogsMap).insert "a2" 7

def memberExternals : (Value → String) → (String → String) → Externals :=
  singleLine memberPath memberLine memberRecord

/-- The data of the artist as enrichment leaves it. -/
def memberEnriched (map : DiscogsMap) : Value :=
  (artistData memberRecord).insert "relations"
    (.array (enrichRelations (extractEntityRels (relationsOf memberRecord)) map "artists"))

def memberText : String :=
  "\x7b\"aliases\":null,\"area\":null,\"begin_area\":null,\"disambiguation\":null,\"discogs" ++
  "_artist_id\":null,\"end_area\":null,\"external_links\":[],\"gender\":null,\"life_span\":" ++
  "\x7b\"begin\":null,\"end\":null,\"ended\":null\x7d,\"mb_type\":null,\"name\":null,\"rela" ++
  "tions\":[\x7b\"attributes\":null,\"begin_date\":null,\"direction\":null,\"end_date\":nul" ++
  "l,\"ended\":null,\"target_mbid\":\"a2\",\"target_type\":\"artist\",\"type\":\"member of " ++
  "band\"\x7d],\"sort_name\":null,\"tags\":null\x7d"

def memberEnrichedText : String :=
  "\x7b\"aliases\":null,\"area\":null,\"begin_area\":null,\"disambiguation\":null,\"discogs" ++
  "_artist_id\":null,\"end_area\":null,\"external_links\":[],\"gender\":null,\"life_span\":" ++
  "\x7b\"begin\":null,\"end\":null,\"ended\":null\x7d,\"mb_type\":null,\"name\":null,\"rela" ++
  "tions\":[\x7b\"attributes\":null,\"begin_date\":null,\"direction\":null,\"end_date\":nul" ++
  "l,\"ended\":null,\"target_discogs_artist_id\":7,\"target_mbid\":\"a2\",\"target_type\":" ++
  "\"artist\",\"type\":\"member of band\"\x7d],\"sort_name\":null,\"tags\":null\x7d"

/-- The Discogs id written into the first relation. -/
def firstTarget (data : Value) : Option Int64 :=
  (((data.index "relations").elements.headD .null).index "target_discogs_artist_id").asI64

theorem member_links : LinksOwnType .artists memberRecord :=
  ⟨_, List.mem_singleton.mpr rfl, "artist", rfl, rfl⟩

theorem publishedRecords_member (serialize : Value → String) (sha256Hex : String → String) :
    publishedRecords (memberExternals serialize sha256Hex) memberPath none = [memberRecord] :=
  publishedRecords_singleLine memberRecord serialize sha256Hex (by decide) (by decide) (by decide)
    (by decide +kernel) (by decide)

/-- Under injective printing and hashing, the artist goes out under the hash of data it does
not carry, and another map changes its data and not its hash. -/
theorem stale_hash_published :
    ∃ env : Externals, Function.Injective env.serialize ∧ Function.Injective env.sha256Hex ∧
      env.openFile memberPath = .ok ⟨memberLine.toByteArray.data.toList, none⟩ ∧
      env.fromStr memberLine = .ok memberRecord ∧
      ¬ HashCoversData env
          (parseMbJsonlFile env memberPath .artists none (some memberMap) "20260101-000000").1 ∧
      ∃ m ∈ (parseMbJsonlFile env memberPath .artists none (some memberMap) "20260101-000000").1,
      ∃ m' ∈ (parseMbJsonlFile env memberPath .artists none (some ∅) "20260101-000000").1,
        m.id = m'.id ∧ m.data ≠ m'.data ∧ m.sha256 = m'.sha256 := by
  obtain ⟨serialize⟩ := nonempty_embedding_text Value
  refine ⟨memberExternals serialize id, serialize.injective, Function.injective_id, rfl, rfl, ?_, ?_⟩
  · rw [hashCoversData_iff (calculateContentHash_injective serialize.injective Function.injective_id)]
    rintro (h | h)
    · cases h
    · exact h memberRecord (by rw [publishedRecords_member]; exact List.mem_singleton.mpr rfl)
        member_links
  · simp only [parseMbJsonlFile_sent, publishedRecords_member, List.map_cons, List.map_nil,
      List.mem_singleton, exists_eq_left]
    refine ⟨rfl, fun h => ?_, by rw [recordMessage_sha256, recordMessage_sha256]⟩
    rw [recordMessage_data, recordMessage_data] at h
    have htarget : firstTarget (memberEnriched memberMap) = firstTarget (memberEnriched ∅) :=
      congrArg firstTarget h
    exact absurd htarget (by decide +kernel)

/-- Printing and hashing that agree with JSON text and SHA-256 on this artist's data, before
and after enrichment: hashed as published without a map, and not with one. -/
theorem content_hash_covers_payload_member :
    ∃ env : Externals,
      env.openFile memberPath = .ok ⟨memberLine.toByteArray.data.toList, none⟩ ∧
      env.fromStr memberLine = .ok memberRecord ∧
      env.serialize (artistData memberRecord) = memberText ∧
      env.sha256Hex memberText =
        "35ecb00d697f9614552fcc0c2ea0a47b3783fb55b543a854fff4d99624ee7f66" ∧
      env.serialize (memberEnriched memberMap) = memberEnrichedText ∧
      env.sha256Hex memberEnrichedText =
        "84bbb39b18fa159641d1452c3fdd5dc59cbfe308e72a2c0fb66a0584caa7a27d" ∧
      HashCoversData env
        (parseMbJsonlFile env memberPath .artists none none "20260101-000000").1 ∧
      ¬ HashCoversData env
        (parseMbJsonlFile env memberPath .artists none (some memberMap) "20260101-000000").1 := by
  have hdata : artistData memberRecord ≠ memberEnriched memberMap := fun h =>
    absurd (congrArg firstTarget h) (by decide +kernel)
  have htext : memberText ≠ memberEnrichedText := by decide +kernel
  obtain ⟨serialize, hserialize, hserialize'⟩ := exists_embedding_text hdata htext
  obtain ⟨sha256Hex, hsha, hsha'⟩ := exists_embedding_text htext
    (s := "35ecb00d697f9614552fcc0c2ea0a47b3783fb55b543a854fff4d99624ee7f66")
    (t := "84bbb39b18fa159641d1452c3fdd5dc59cbfe308e72a2c0fb66a0584caa7a27d")
    (by decide)
  have hcovers := (content_hash_covers_payload (memberExternals serialize sha256Hex)
    serialize.injective sha256Hex.injective).1
  refine ⟨memberExternals serialize sha256Hex, rfl, rfl, hserialize, hsha, hserialize', hsha', ?_, ?_⟩
  · exact (hcovers memberPath .artists none none "20260101-000000").mpr (Or.inl rfl)
  · rw [hcovers]
    rintro (h | h)
    · cases h
    · exact h memberRecord (by rw [publishedRecords_member]; exact List.mem_singleton.mpr rfl)
        member_links

end MusicbrainzIngestion.JsonlParser
