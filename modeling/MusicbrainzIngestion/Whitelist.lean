import MusicbrainzIngestion.Base.JsonCanonical
import MusicbrainzIngestion.ContentHash
import MusicbrainzIngestion.ReleaseMedia

/-! What a line parser reads of a record, and nothing else reaches the message: two lines whose
records agree there are sent as the same message, under the same hash. -/

namespace MusicbrainzIngestion.JsonlParser
open Base Base.Json

/-! ## What is read -/

/-- The fields a parser copies from the top of a record. -/
def topFields : DataType → List String
  | .artists => ["id", "name", "sort-name", "type", "gender", "disambiguation", "aliases", "tags"]
  | .labels => ["id", "name", "type", "label-code", "disambiguation"]
  | .releaseGroups =>
    ["id", "title", "primary-type", "secondary-types", "first-release-date", "disambiguation"]
  | .releases =>
    ["id", "title", "disambiguation", "barcode", "country", "status", "packaging", "aliases", "tags"]

/-- The fields it copies from inside another field. -/
def nestedFields : DataType → List (String × List String)
  | .artists => [("life-span", ["begin", "end", "ended"]), ("area", ["name"]), ("begin-area", ["name"]),
    ("end-area", ["name"])]
  | .labels => [("life-span", ["begin", "end", "ended"]), ("area", ["name"])]
  | .releaseGroups => []
  | .releases => [("release-group", ["id", "primary-type", "secondary-types"])]

def mediumFields : List String := ["format", "format-id", "position", "title", "track-count"]

def relationFields : List String :=
  ["type", "target-type", "direction", "attributes", "begin", "end", "ended"]

/-- The id of the target of a relation, under either spelling of its type. -/
def targetId (rel : Value) (targetType : String) : Option String :=
  ((rel.index targetType).index "id").asStr.or
    ((rel.index (canonicalEntityType targetType)).index "id").asStr

def AgreeOn (fields : List String) (v w : Value) : Prop :=
  ∀ field ∈ fields, (v.index field).Same (w.index field)

structure RelationsAgree (rel rel' : Value) : Prop where
  fields : AgreeOn relationFields rel rel'
  target : ∀ targetType ∈ (rel.index "target-type").asStr, targetType ≠ "url" →
    targetId rel targetType = targetId rel' targetType
  resource : (rel.index "target-type").asStr = some "url" →
    AgreeOn ["resource"] (rel.index "url") (rel'.index "url")

structure EventsAgree (event event' : Value) : Prop where
  fields : AgreeOn ["date"] event event'
  area : AgreeOn ["id", "name"] (event.index "area") (event'.index "area")

structure LabelInfosAgree (info info' : Value) : Prop where
  fields : AgreeOn ["catalog-number"] info info'
  label : AgreeOn ["id", "name"] (info.index "label") (info'.index "label")

/-- The lists agree element by element; what is not an array has none. -/
def AgreeEach (R : Value → Value → Prop) (field : String) (v w : Value) : Prop :=
  List.Forall₂ R (v.index field).elements (w.index field).elements

/-- The records agree on all that the parser reads of them. -/
structure Agree (dt : DataType) (v w : Value) : Prop where
  fields : AgreeOn (topFields dt) v w
  nested : ∀ e ∈ nestedFields dt, AgreeOn e.2 (v.index e.1) (w.index e.1)
  relations : AgreeEach RelationsAgree "relations" v w
  media : dt = .releases → AgreeEach (AgreeOn mediumFields) "media" v w
  events : dt = .releases → AgreeEach EventsAgree "release-events" v w
  labelInfos : dt = .releases → AgreeEach LabelInfosAgree "label-info" v w

section Decidable

variable {R : Value → Value → Prop} (v w : Value)

instance AgreeOn.decidable (fields : List String) : Decidable (AgreeOn fields v w) :=
  inferInstanceAs (Decidable (∀ field ∈ fields, (v.index field).Same (w.index field)))

instance RelationsAgree.decidable : Decidable (RelationsAgree v w) :=
  decidable_of_iff (AgreeOn relationFields v w ∧
      (∀ targetType ∈ (v.index "target-type").asStr, targetType ≠ "url" →
        targetId v targetType = targetId w targetType) ∧
      ((v.index "target-type").asStr = some "url" →
        AgreeOn ["resource"] (v.index "url") (w.index "url")))
    ⟨fun ⟨hf, ht, hr⟩ => ⟨hf, ht, hr⟩, fun ⟨hf, ht, hr⟩ => ⟨hf, ht, hr⟩⟩

instance EventsAgree.decidable : Decidable (EventsAgree v w) :=
  decidable_of_iff (AgreeOn ["date"] v w ∧ AgreeOn ["id", "name"] (v.index "area") (w.index "area"))
    ⟨fun ⟨hf, ha⟩ => ⟨hf, ha⟩, fun ⟨hf, ha⟩ => ⟨hf, ha⟩⟩

instance LabelInfosAgree.decidable : Decidable (LabelInfosAgree v w) :=
  decidable_of_iff (AgreeOn ["catalog-number"] v w ∧
      AgreeOn ["id", "name"] (v.index "label") (w.index "label"))
    ⟨fun ⟨hf, hl⟩ => ⟨hf, hl⟩, fun ⟨hf, hl⟩ => ⟨hf, hl⟩⟩

instance AgreeEach.decidable [∀ a b, Decidable (R a b)] (field : String) :
    Decidable (AgreeEach R field v w) :=
  inferInstanceAs (Decidable (List.Forall₂ R (v.index field).elements (w.index field).elements))

instance Agree.decidable (dt : DataType) : Decidable (Agree dt v w) :=
  decidable_of_iff (AgreeOn (topFields dt) v w ∧
      (∀ e ∈ nestedFields dt, AgreeOn e.2 (v.index e.1) (w.index e.1)) ∧
      AgreeEach RelationsAgree "relations" v w ∧
      (dt = .releases → AgreeEach (AgreeOn mediumFields) "media" v w) ∧
      (dt = .releases → AgreeEach EventsAgree "release-events" v w) ∧
      (dt = .releases → AgreeEach LabelInfosAgree "label-info" v w))
    ⟨fun ⟨hf, hn, hr, hm, he, hl⟩ => ⟨hf, hn, hr, hm, he, hl⟩,
      fun ⟨hf, hn, hr, hm, he, hl⟩ => ⟨hf, hn, hr, hm, he, hl⟩⟩

end Decidable

/-! ## Elements that agree give the same -/

variable {v w : Value} {R : Value → Value → Prop} {field : String}

theorem AgreeOn.index {fields : List String} (h : AgreeOn fields v w) (hv : v.Canonical)
    (hw : w.Canonical) (field : String) (hf : field ∈ fields) : v.index field = w.index field :=
  (h field hf).eq (hv.index field) (hw.index field)

theorem AgreeEach.canonical (h : AgreeEach R field v w) (hv : v.Canonical) (hw : w.Canonical) :
    AgreeEach (fun a b => R a b ∧ a.Canonical ∧ b.Canonical) field v w := by
  have hvs := (hv.index field).elements
  have hws := (hw.index field).elements
  unfold AgreeEach at h ⊢
  generalize (v.index field).elements = vs, (w.index field).elements = ws at h hvs hws ⊢
  induction h with
  | nil => exact .nil
  | cons hr _ ih =>
    refine .cons ⟨hr, hvs _ List.mem_cons_self, hws _ List.mem_cons_self⟩ ?_
    exact ih (fun v hv => hvs v (List.mem_cons_of_mem _ hv))
      fun w hw => hws w (List.mem_cons_of_mem _ hw)

theorem AgreeEach.filterMap {β : Type} {f : Value → Option β} (h : AgreeEach R field v w)
    (hf : ∀ a b, R a b → f a = f b) :
    (v.index field).elements.filterMap f = (w.index field).elements.filterMap f := by
  unfold AgreeEach at h
  generalize (v.index field).elements = vs, (w.index field).elements = ws at h ⊢
  induction h with
  | nil => rfl
  | cons hr _ ih => rw [List.filterMap_cons, List.filterMap_cons, hf _ _ hr, ih]

theorem AgreeEach.foldl {β : Type} {f : β → Value → β} (h : AgreeEach R field v w)
    (hf : ∀ c a b, R a b → f c a = f c b) (c : β) :
    (v.index field).elements.foldl f c = (w.index field).elements.foldl f c := by
  unfold AgreeEach at h
  generalize (v.index field).elements = vs, (w.index field).elements = ws at h ⊢
  induction h generalizing c with
  | nil => rfl
  | cons hr _ ih => rw [List.foldl_cons, List.foldl_cons, hf _ _ _ hr, ih]

/-! ## Relations -/

variable {rel rel' : Value}

theorem targetMbid_eq (rel : Value) (targetType : String) :
    targetMbid rel targetType = (targetId rel targetType).getD "" := by
  unfold targetMbid targetId
  cases ((rel.index targetType).index "id").asStr <;> rfl

theorem RelationsAgree.entityRel (h : RelationsAgree rel rel') (hr : rel.Canonical)
    (hr' : rel'.Canonical) : extractEntityRel rel = extractEntityRel rel' := by
  have hfield : ∀ field ∈ relationFields, rel.index field = rel'.index field := 
    h.fields.index hr hr'
  have htype := hfield "target-type" (by decide)
  unfold extractEntityRel
  rw [← htype]
  cases ht : (rel.index "target-type").asStr with
  | none => rfl
  | some targetType =>
    by_cases hurl : targetType = "url"
    · simp only [Option.bind_some, if_pos hurl]
    · have htarget := h.target targetType ht hurl
      simp only [Option.bind_some, if_neg hurl, normalizeRel, targetMbid_eq, htarget,
        hfield "type" (by decide), hfield "direction" (by decide), hfield "attributes" (by decide),
        hfield "begin" (by decide), hfield "end" (by decide), hfield "ended" (by decide)]

/-- The URL relations are read for their type and their resource. -/
theorem RelationsAgree.urlRel {β : Type} {f : Value → Value → Option β} (h : RelationsAgree rel rel')
    (hr : rel.Canonical) (hr' : rel'.Canonical) :
    (if (rel.index "target-type").asStr = some "url" then
      f (rel.index "type") ((rel.index "url").index "resource") else none) =
    (if (rel'.index "target-type").asStr = some "url" then
      f (rel'.index "type") ((rel'.index "url").index "resource") else none) := by
  rw [← h.fields.index hr hr' "target-type" (by decide)]
  by_cases ht : (rel.index "target-type").asStr = some "url"
  · rw [if_pos ht, if_pos ht, h.fields.index hr hr' "type" (by decide),
      (h.resource ht).index (hr.index "url") (hr'.index "url") "resource" (by decide)]
  · rw [if_neg ht, if_neg ht]

/-- A reading of the URL relations alone. -/
theorem filterMap_extractUrlRels {β : Type} (f : Value → Value → Option β) (relations : List Value) :
    (extractUrlRels relations).filterMap (fun rel => f (rel.index "type")
      ((rel.index "url").index "resource")) = relations.filterMap fun rel =>
        if (rel.index "target-type").asStr = some "url" then
          f (rel.index "type") ((rel.index "url").index "resource") else none := by
  unfold extractUrlRels
  rw [List.filterMap_filter]
  simp only [decide_eq_true_eq]

theorem urlRels_congr {β : Type} (h : AgreeEach RelationsAgree "relations" v w) (hv : v.Canonical)
    (hw : w.Canonical) (f : Value → Value → Option β) :
    (extractUrlRels (relationsOf v)).filterMap (fun rel => f (rel.index "type")
      ((rel.index "url").index "resource")) =
    (extractUrlRels (relationsOf w)).filterMap (fun rel => f (rel.index "type")
      ((rel.index "url").index "resource")) := by
  rw [filterMap_extractUrlRels, filterMap_extractUrlRels]
  exact (h.canonical hv hw).filterMap fun a b hr => hr.1.urlRel hr.2.1 hr.2.2

theorem entityRels_congr (h : AgreeEach RelationsAgree "relations" v w) (hv : v.Canonical)
    (hw : w.Canonical) : entityRels v = entityRels w :=
  congrArg Value.array ((h.canonical hv hw).filterMap fun _ _ hr => hr.1.entityRel hr.2.1 hr.2.2)

theorem externalLinks_congr (h : AgreeEach RelationsAgree "relations" v w) (hv : v.Canonical)
    (hw : w.Canonical) : externalLinks v = externalLinks w :=
  congrArg Value.array (urlRels_congr h hv hw fun type resource => type.asStr.bind fun relType =>
    if relType = "discogs" then none
    else resource.asStr.map fun resource =>
      Value.json [("service", .string relType), ("url", .string resource)])

theorem discogsId_congr (h : AgreeEach RelationsAgree "relations" v w) (hv : v.Canonical)
    (hw : w.Canonical) (entityType : String) : discogsId v entityType = discogsId w entityType := by
  unfold discogsId findDiscogsId
  rw [← List.head?_filterMap, ← List.head?_filterMap]
  have hsame := urlRels_congr h hv hw fun type resource =>
    if type.asStr = some "discogs" then
      resource.asStr.bind fun url => extractDiscogsId url entityType
    else none
  exact congrArg (fun ids => ofI64 (List.head? ids)) hsame

/-! ## The details of a release -/

theorem mediaRaw_congr (h : AgreeEach (AgreeOn mediumFields) "media" v w) (hv : v.Canonical)
    (hw : w.Canonical) : extractMediaRaw (v.index "media").elements =
      extractMediaRaw (w.index "media").elements := by
  unfold extractMediaRaw
  rw [← List.filterMap_eq_map]
  refine (h.canonical hv hw).filterMap fun a b ⟨hr, ha, hb⟩ => ?_
  simp only [Function.comp_apply, rawMedium, hr.index ha hb "format" (by decide),
    hr.index ha hb "format-id" (by decide), hr.index ha hb "position" (by decide),
    hr.index ha hb "title" (by decide), hr.index ha hb "track-count" (by decide)]

theorem releaseEvents_congr (h : AgreeEach EventsAgree "release-events" v w) (hv : v.Canonical)
    (hw : w.Canonical) : extractReleaseEvents (v.index "release-events").elements =
      extractReleaseEvents (w.index "release-events").elements := by
  refine (h.canonical hv hw).filterMap fun a b ⟨hr, ha, hb⟩ => ?_
  simp only [hr.fields.index ha hb "date" (by decide),
    hr.area.index (ha.index "area") (hb.index "area") "id" (by decide),
    hr.area.index (ha.index "area") (hb.index "area") "name" (by decide)]

theorem catalogNumbers_congr (h : AgreeEach LabelInfosAgree "label-info" v w) (hv : v.Canonical)
    (hw : w.Canonical) : extractCatalogNumbers (v.index "label-info").elements =
      extractCatalogNumbers (w.index "label-info").elements := by
  refine (h.canonical hv hw).filterMap fun a b ⟨hr, ha, hb⟩ => ?_
  simp only [hr.fields.index ha hb "catalog-number" (by decide),
    hr.label.index (ha.index "label") (hb.index "label") "id" (by decide),
    hr.label.index (ha.index "label") (hb.index "label") "name" (by decide)]

theorem trimmed_get (v : Value) (key : String) :
    Identifiers.trimmed (v.get key) = Identifiers.trimmed (some (v.index key)) := by
  unfold Identifiers.trimmed
  rw [Option.bind_some, bind_index Value.asStr rfl]

theorem identifiers_congr (toUppercase : String → String) (vocab : Identifiers.Vocabulary)
    (hbarcode : v.index "barcode" = w.index "barcode")
    (h : AgreeEach LabelInfosAgree "label-info" v w) (hv : v.Canonical) (hw : w.Canonical) :
    Identifiers.mapMusicbrainzIdentifiers toUppercase vocab v =
      Identifiers.mapMusicbrainzIdentifiers toUppercase vocab w := by
  have hentries : ∀ v : Value, ((v.get "label-info").bind Value.asArray).getD [] =
      (v.index "label-info").elements := fun v => by
    unfold Value.elements
    rw [bind_index Value.asArray rfl]
  unfold Identifiers.mapMusicbrainzIdentifiers
  simp only [trimmed_get, hbarcode, hentries]
  rw [(h.canonical hv hw).foldl fun c a b ⟨hr, ha, hb⟩ => by
    rw [hr.fields.index ha hb "catalog-number" (by decide)]]

/-! ## The data of a record -/

theorem releaseData_congr (env : Externals) (h : Agree .releases v w) (hv : v.Canonical)
    (hw : w.Canonical) : releaseData env v = releaseData env w := by
  have hfield := h.fields.index hv hw
  have hgroup := (h.nested ("release-group", ["id", "primary-type", "secondary-types"]) (by decide)).index
    (hv.index "release-group") (hw.index "release-group")
  have hfields : releaseFields v = releaseFields w := by
    simp only [releaseFields, discogsId_congr h.relations hv hw, entityRels_congr h.relations hv hw,
      externalLinks_congr h.relations hv hw, mediaRaw_congr (h.media rfl) hv hw,
      releaseEvents_congr (h.events rfl) hv hw, catalogNumbers_congr (h.labelInfos rfl) hv hw,
      hgroup "id" (by decide), hfield "title" (by decide), hfield "disambiguation" (by decide),
      hfield "barcode" (by decide), hfield "country" (by decide), hfield "status" (by decide),
      hfield "aliases" (by decide), hfield "tags" (by decide)]
  have hview : ∀ raw, Media.releaseView v raw = Media.releaseView w raw := fun raw => by
    simp only [Media.releaseView, hfield "status" (by decide), hfield "packaging" (by decide),
      hgroup "primary-type" (by decide), hgroup "secondary-types" (by decide)]
  have hidentifiers := identifiers_congr env.toUppercase Identifiers.vocabulary
    (hfield "barcode" (by decide)) (h.labelInfos rfl) hv hw
  simp only [releaseData, Identifiers.attachIdentifiersBlock, Media.attachMediaBlock, hfields, hview,
    hidentifiers]

theorem lifeSpanData_congr (h : AgreeOn ["begin", "end", "ended"] v w) (hv : v.Canonical)
    (hw : w.Canonical) : lifeSpanData v = lifeSpanData w := by
  simp only [lifeSpanData, h.index hv hw "begin" (by decide), h.index hv hw "end" (by decide),
    h.index hv hw "ended" (by decide)]

theorem recordData_congr (env : Externals) {dt : DataType} (h : Agree dt v w) (hv : v.Canonical)
    (hw : w.Canonical) : recordData env dt v = recordData env dt w := by
  have hfield := h.fields.index hv hw
  have hid := fun entityType => discogsId_congr h.relations hv hw entityType
  have hrelations := entityRels_congr h.relations hv hw
  have hlinks := externalLinks_congr h.relations hv hw
  have hinner : ∀ e ∈ nestedFields dt, ∀ field ∈ e.2,
      (v.index e.1).index field = (w.index e.1).index field := fun e he =>
    (h.nested e he).index (hv.index e.1) (hw.index e.1)
  cases dt with
  | artists =>
    have hspan := lifeSpanData_congr (h.nested ("life-span", ["begin", "end", "ended"]) (by decide))
      (hv.index _) (hw.index _)
    simp only [recordData, artistData, hid, hrelations, hlinks, hspan,
      hinner ("area", ["name"]) (by decide) "name" (by decide),
      hinner ("begin-area", ["name"]) (by decide) "name" (by decide),
      hinner ("end-area", ["name"]) (by decide) "name" (by decide), hfield "name" (by decide),
      hfield "sort-name" (by decide), hfield "type" (by decide), hfield "gender" (by decide),
      hfield "disambiguation" (by decide), hfield "aliases" (by decide), hfield "tags" (by decide)]
  | labels =>
    have hspan := lifeSpanData_congr (h.nested ("life-span", ["begin", "end", "ended"]) (by decide))
      (hv.index _) (hw.index _)
    simp only [recordData, labelData, hid, hrelations, hlinks, hspan,
      hinner ("area", ["name"]) (by decide) "name" (by decide), hfield "name" (by decide),
      hfield "type" (by decide), hfield "label-code" (by decide), hfield "disambiguation" (by decide)]
  | releaseGroups =>
    simp only [recordData, releaseGroupData, hid, hrelations, hlinks, hfield "title" (by decide),
      hfield "primary-type" (by decide), hfield "secondary-types" (by decide),
      hfield "first-release-date" (by decide), hfield "disambiguation" (by decide)]
  | releases => exact releaseData_congr env h hv hw

/-- For every kind of entity, two lines whose records agree, up to the order of keys, on what the
parser reads of them are parsed to one and the same message, hash included. The reader of JSON is
only taken to keep its objects as sorted maps. -/
theorem only_read_fields_matter (env : Externals)
    (hreader : ∀ text v, env.fromStr text = .ok v → v.Canonical) (dt : DataType)
    (line line' dumpVersion : String) (v w : Value) (hline : env.fromStr line = .ok v)
    (hline' : env.fromStr line' = .ok w) (hagree : Agree dt v w) :
    ∃ message, parseFn env dt line dumpVersion = .ok message ∧
      parseFn env dt line' dumpVersion = .ok message := by
  have hv := hreader line v hline
  have hw := hreader line' w hline'
  have hid : v.index "id" = w.index "id" :=
    hagree.fields.index hv hw "id" (by cases dt <;> decide)
  refine ⟨_, parseFn_eq env dt line dumpVersion hline, ?_⟩
  rw [parseFn_eq env dt line' dumpVersion hline', recordData_congr env hagree hv hw, dataMessage,
    dataMessage, hid]

/-! ## One release, listed twice -/

def trackedLine : String :=
  "\x7b\"id\":\"r1\",\"title\":\"A\",\"media\":[\x7b\"format\":\"CD\",\"tracks\":[\x7b\"id\":\"t1\"\x7d]\x7d]," ++
  "\"tags\":[\x7b\"name\":\"dub\",\"count\":2\x7d],\"relations\":[\x7b\"target-type\":\"release_group\"," ++
  "\"release_group\":\x7b\"id\":\"g1\"\x7d\x7d]\x7d"

def trackedTree : Value :=
  .object [
    ("id", .string "r1"),
    ("title", .string "A"),
    ("media", .array [
      .object [("format", .string "CD"), ("tracks", .array [.object [("id", .string "t1")]])]]),
    ("tags", .array [.object [("name", .string "dub"), ("count", .number (.posInt 2))]]),
    ("relations", .array [
      .object [
        ("target-type", .string "release_group"),
        ("release_group", .object [("id", .string "g1")])]])]

/-- No tracks, another order of the keys, and the target under the other spelling. -/
def untrackedLine : String :=
  "\x7b\"asin\":null, \"relations\":[\x7b\"release-group\":\x7b\"id\":\"g1\"\x7d,\"target-type\":" ++
  "\"release_group\"\x7d], \"tags\":[\x7b\"count\":2,\"name\":\"dub\"\x7d], \"media\":[\x7b\"discs\":[]," ++
  "\"format\":\"CD\"\x7d], \"title\":\"A\", \"id\":\"r1\"\x7d"

def untrackedTree : Value :=
  .object [
    ("asin", .null),
    ("relations", .array [
      .object [
        ("release-group", .object [("id", .string "g1")]),
        ("target-type", .string "release_group")]]),
    ("tags", .array [.object [("count", .number (.posInt 2)), ("name", .string "dub")]]),
    ("media", .array [.object [("discs", .array []), ("format", .string "CD")]]),
    ("title", .string "A"),
    ("id", .string "r1")]

/-- The reader of the two lines. -/
def twoLineReader (text : String) : Except String Value :=
  if text = trackedLine then .ok trackedTree.canonical
  else if text = untrackedLine then .ok untrackedTree.canonical
  else .error "expected value at line 1 column 1"

theorem twoLineReader_canonical (text : String) (v : Value) (h : twoLineReader text = .ok v) :
    v.Canonical := by
  unfold twoLineReader at h
  split at h
  · cases h
    exact trackedTree.canonical_isCanonical
  · split at h
    · cases h
      exact untrackedTree.canonical_isCanonical
    · cases h

theorem twoLineReader_untracked : twoLineReader untrackedLine = .ok untrackedTree.canonical := by
  have hne : untrackedLine ≠ trackedLine := by decide +kernel
  unfold twoLineReader
  rw [if_neg hne, if_pos rfl]

def twoLineExternals : Externals :=
  { singleLine releasePath trackedLine trackedTree (fun v => toString v.encode) id with
    fromStr := twoLineReader }

theorem trackedTree_agrees : Agree .releases trackedTree.canonical untrackedTree.canonical := by
  decide +kernel

theorem only_read_fields_matter_release : ∃ message,
    parseMbReleaseLine twoLineExternals trackedLine "20260101-000000" = .ok message ∧
    parseMbReleaseLine twoLineExternals untrackedLine "20260101-000000" = .ok message := by
  have hreader : twoLineExternals.fromStr = twoLineReader := rfl
  have htracked : twoLineExternals.fromStr trackedLine = .ok trackedTree.canonical := by
    rw [hreader, twoLineReader, if_pos rfl]
  have huntracked : twoLineExternals.fromStr untrackedLine = .ok untrackedTree.canonical := by
    rw [hreader, twoLineReader_untracked]
  obtain ⟨message, hmessage, hsame⟩ := only_read_fields_matter twoLineExternals
    (by rw [hreader]; exact twoLineReader_canonical) .releases trackedLine untrackedLine
    "20260101-000000" _ _ htracked huntracked trackedTree_agrees
  exact ⟨message, hmessage, hsame⟩

end MusicbrainzIngestion.JsonlParser
