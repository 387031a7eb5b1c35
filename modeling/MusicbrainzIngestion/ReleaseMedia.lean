import MusicbrainzIngestion.JsonlParser

/-! The media block a release is published with against the media its record lists.
The record reaches the mapper through `extractMediaRaw` and `releaseView`, which
rename keys and give every entry the shape of an object; on a list of objects
that changes nothing, and each other entry comes out as one unidentified item. -/

namespace MusicbrainzIngestion.JsonlParser
open Base Base.Json Media

variable (taxonomy : Taxonomy)

/-! ## One entry -/

/-- Reading a field that was copied with `null` for an absent one. -/
theorem bind_index {α : Type} (f : Value → Option α) (hf : f .null = none) (v : Value)
    (key : String) : f (v.index key) = (v.get key).bind f := by
  unfold Value.index
  cases v.get key with
  | none => exact hf
  | some w => rfl

theorem bind_index_object {α : Type} (f : Value → Option α) (hf : f .null = none) (m : Entries)
    (key : String) : f ((Value.object m).index key) = (Entries.get key m).bind f :=
  bind_index f hf (.object m) key

/-- The entries of a medium as `extractMediaRaw` copies it. -/
def rawEntries (e : Value) : Entries :=
  Entries.ofList [
    ("format", e.index "format"),
    ("format_id", e.index "format-id"),
    ("position", e.index "position"),
    ("title", e.index "title"),
    ("track_count", e.index "track-count")]

theorem rawMedium_eq (e : Value) : rawMedium e = .object (rawEntries e) := rfl

theorem formatName_rawEntries (m : Entries) :
    formatName (rawEntries (.object m)) = formatName m := by
  simp [formatName, rawEntries, Entries.ofList, bind_index_object Value.asStr rfl]

theorem get_position (e : Value) :
    Entries.get "position" (rawEntries e) = some (e.index "position") := by
  simp [rawEntries, Entries.ofList]

theorem get_track_count (e : Value) :
    Entries.get viewSpelling.trackCount (rawEntries e) = some (e.index "track-count") := by
  simp [rawEntries, Entries.ofList, viewSpelling]

theorem startItem_rawEntries (m : Entries) :
    startItem viewSpelling (rawEntries (.object m)) = startItem recordSpelling m := by
  simp only [startItem, formatName_rawEntries, get_position, get_track_count, Option.bind_some,
    bind_index_object Value.asI64 rfl, recordSpelling]

/-- An object keeps what the mapper reads of it. -/
theorem mapEntry_rawMedium_object (block : MediaBlock) (m : Entries) :
    mapEntry viewSpelling taxonomy block (rawMedium (.object m)) =
      mapEntry recordSpelling taxonomy block (.object m) := by
  have hmap : mapMedium viewSpelling block (rawEntries (.object m)) taxonomy =
      mapMedium recordSpelling block m taxonomy := by
    simp only [mapMedium, formatName_rawEntries, startItem_rawEntries]
  simp only [mapEntry, rawMedium_eq, Value.asObject, hmap]

theorem index_of_not_object {e : Value} (h : e.asObject = none) (key : String) :
    e.index key = .null := by
  simp [Value.index, Value.get, h]

theorem formatName_not_object {e : Value} (h : e.asObject = none) :
    formatName (rawEntries e) = none := by
  simp [formatName, rawEntries, Entries.ofList, index_of_not_object h, Value.asStr]

/-- Anything but an object comes out as an item. -/
theorem entryItem_rawMedium_not_object {e : Value} (h : e.asObject = none) :
    (entryItem viewSpelling taxonomy (rawMedium e)).isSome := by
  simp [entryItem, rawMedium_eq, Value.asObject, mapMedium, formatName_not_object h]

theorem entryItem_rawMedium_object (m : Entries) :
    entryItem viewSpelling taxonomy (rawMedium (.object m)) =
      entryItem recordSpelling taxonomy (.object m) := by
  have h := congrArg MediaBlock.items
    (mapEntry_rawMedium_object taxonomy (MediaBlock.empty taxonomy) m)
  rw [mapEntry_items, mapEntry_items] at h
  have hhead := congrArg List.head? (List.append_cancel_left h)
  simpa only [Option.head?_toList] using hhead

/-! ## The block -/

theorem foldl_mapEntry_rawMedium {media : List Value} (hall : ∀ e ∈ media, e.asObject ≠ none)
    (block : MediaBlock) :
    (extractMediaRaw media).foldl (mapEntry viewSpelling taxonomy) block =
      media.foldl (mapEntry recordSpelling taxonomy) block := by
  induction media generalizing block with
  | nil => rfl
  | cons e media ih =>
    have he : ∃ m, e = .object m := by
      cases e <;> first | exact ⟨_, rfl⟩ | exact absurd rfl (hall _ List.mem_cons_self)
    obtain ⟨m, rfl⟩ := he
    simp only [extractMediaRaw, List.map_cons, List.foldl_cons] at ih ⊢
    rw [mapEntry_rawMedium_object]
    exact ih (fun e' he' => hall e' (List.mem_cons_of_mem _ he')) _

/-- The release facts read four places, and nothing else. -/
theorem mapReleaseFacts_congr {sp sp' : Spelling} {release release' : Value} (block : MediaBlock)
    (hstatus : (release.get "status").bind Value.asStr = (release'.get "status").bind Value.asStr)
    (hpackaging : (release.get "packaging").bind Value.asStr =
      (release'.get "packaging").bind Value.asStr)
    (hprimary : ((release.get sp.releaseGroup).bind (Value.get · sp.primaryType)).bind Value.asStr =
      ((release'.get sp'.releaseGroup).bind (Value.get · sp'.primaryType)).bind Value.asStr)
    (hsecondary :
      ((release.get sp.releaseGroup).bind (Value.get · sp.secondaryTypes)).bind Value.asArray =
        ((release'.get sp'.releaseGroup).bind (Value.get · sp'.secondaryTypes)).bind Value.asArray) :
    mapReleaseFacts sp block release taxonomy = mapReleaseFacts sp' block release' taxonomy := by
  simp only [mapReleaseFacts, hstatus, hpackaging, hprimary, hsecondary]

theorem bind_index_index {α : Type} (f : Value → Option α) (hf : f .null = none) (v : Value)
    (outer inner : String) :
    f ((v.index outer).index inner) = ((v.get outer).bind (Value.get · inner)).bind f := by
  rw [bind_index f hf]
  unfold Value.index
  cases v.get outer <;> rfl

theorem mapReleaseFacts_releaseView (block : MediaBlock) (v : Value) (raw : List Value) :
    mapReleaseFacts viewSpelling block (releaseView v raw) taxonomy =
      mapReleaseFacts recordSpelling block v taxonomy := by
  have hgroup : ∀ key, ((releaseView v raw).get viewSpelling.releaseGroup).bind (Value.get · key) =
      (Value.json [
        ("primary_type", (v.index "release-group").index "primary-type"),
        ("secondary_types", (v.index "release-group").index "secondary-types")]).get key := by
    intro key
    simp [releaseView, Value.json, Entries.ofList, viewSpelling]
  apply mapReleaseFacts_congr
  · simp [releaseView, Value.json, Entries.ofList, bind_index Value.asStr rfl]
  · simp [releaseView, Value.json, Entries.ofList, bind_index Value.asStr rfl]
  · rw [hgroup]
    simp [Value.json, Entries.ofList, bind_index_index Value.asStr rfl, viewSpelling, recordSpelling]
  · rw [hgroup]
    simp [Value.json, Entries.ofList, bind_index_index Value.asArray rfl, viewSpelling,
      recordSpelling]

theorem mediaOf_releaseView (v : Value) (raw : List Value) : mediaOf (releaseView v raw) = raw := by
  simp [mediaOf, releaseView, Value.json, Entries.ofList, Value.asArray]

theorem mediaOf_eq (v : Value) : mediaOf v = (v.index "media").elements := by
  rw [Value.elements, bind_index Value.asArray rfl]
  rfl

/-- The block the parser attaches. -/
def attachedBlock (v : Value) : MediaBlock :=
  mapMusicbrainzRelease taxonomy (releaseView v (extractMediaRaw (mediaOf v)))

theorem attachedBlock_eq_of_objects {v : Value} (hall : ∀ e ∈ mediaOf v, e.asObject ≠ none) :
    attachedBlock taxonomy v = mapRelease recordSpelling taxonomy v := by
  show finishBlock (mapReleaseFacts viewSpelling
      ((mediaOf (releaseView v (extractMediaRaw (mediaOf v)))).foldl _ _) _ _) = _
  rw [mapReleaseFacts_releaseView, mediaOf_releaseView, foldl_mapEntry_rawMedium taxonomy hall]
  rfl

/-- The block the parser attaches has one item too many for each entry that is not an object. -/
theorem length_items_attachedBlock (v : Value) :
    (attachedBlock taxonomy v).items.length =
      (mapRelease recordSpelling taxonomy v).items.length +
        (mediaOf v).countP (fun e => e.asObject.isNone) := by
  have hlist : ∀ media : List Value,
      ((extractMediaRaw media).filterMap (entryItem viewSpelling taxonomy)).length =
        (media.filterMap (entryItem recordSpelling taxonomy)).length +
          media.countP (fun e => e.asObject.isNone) := by
    intro media
    induction media with
    | nil => rfl
    | cons e media ih =>
      simp only [extractMediaRaw, List.map_cons] at ih ⊢
      cases he : e.asObject with
      | none =>
        have hsome := entryItem_rawMedium_not_object taxonomy he
        obtain ⟨item, hitem⟩ := Option.isSome_iff_exists.mp hsome
        have hnone : entryItem recordSpelling taxonomy e = none := by simp [entryItem, he]
        simp only [List.filterMap_cons, hitem, hnone, List.length_cons, ih, List.countP_cons, he,
          Option.isNone_none, if_true]
        omega
      | some m =>
        have hobj : e = .object m := by
          cases e <;> simp_all [Value.asObject]
        have hitem : entryItem viewSpelling taxonomy (rawMedium e) =
            entryItem recordSpelling taxonomy e := by
          rw [hobj, entryItem_rawMedium_object]
        simp only [List.filterMap_cons, hitem, List.countP_cons, he, Option.isNone_some,
          Bool.false_eq_true, if_false, Nat.add_zero]
        cases entryItem recordSpelling taxonomy e with
        | none => exact ih
        | some item =>
          simp only [List.length_cons, ih]
          omega
  have hview : (attachedBlock taxonomy v).items = _ := mapRelease_items _ _ _
  rw [hview, mapRelease_items, mediaOf_releaseView, hlist]

/-! ## The published release -/

theorem get_media_releaseData (env : Externals) (v : Value) :
    (releaseData env v).get "media" =
      some (attachedBlock Media.taxonomy v).toValue := by
  have hraw : ((releaseFields v).get "media_raw").bind Value.asArray =
      some (extractMediaRaw (mediaOf v)) := by
    simp [releaseFields, Value.json, Entries.ofList, Value.asArray, mediaOf_eq]
  simp only [releaseData, Identifiers.attachIdentifiersBlock, attachMediaBlock, releaseFields,
    Value.json] at hraw ⊢
  rw [hraw]
  simp [Value.insert, attachedBlock]

theorem toValue_attachedBlock_eq_iff (v : Value) :
    (attachedBlock taxonomy v).toValue = (mapRelease recordSpelling taxonomy v).toValue ↔
      ∀ e ∈ (v.index "media").elements, e.asObject ≠ none := by
  rw [← mediaOf_eq]
  constructor
  · intro heq
    have hlen := congrArg (fun w : Value => (w.index "items").elements.length) heq
    simp only [items_toValue, List.length_map, length_items_attachedBlock] at hlen
    have hcount : (mediaOf v).countP (fun e => e.asObject.isNone) = 0 := by omega
    intro e he hnone
    exact List.countP_eq_zero.mp hcount e he (by simp [hnone])
  · exact fun hall => congrArg MediaBlock.toValue (attachedBlock_eq_of_objects taxonomy hall)

/-- A release is published with the block mapped directly from its own media exactly when
every entry of its media list is an object. -/
theorem release_media_block (env : Externals) (line dumpVersion : String) (v : Value)
    (h : env.fromStr line = .ok v) :
    ∃ m, parseMbReleaseLine env line dumpVersion = .ok m ∧
      (m.data.get "media" = some (mapRelease recordSpelling Media.taxonomy v).toValue ↔
        ∀ e ∈ (v.index "media").elements, e.asObject ≠ none) := by
  refine ⟨_, parseFn_eq env .releases line dumpVersion h, ?_⟩
  show (releaseData env v).get "media" = _ ↔ _
  rw [get_media_releaseData, Option.some.injEq, toValue_attachedBlock_eq_iff]

/-! ## Two releases -/

def releasePath : String := "/musicbrainz-data/20260101-000000/release.jsonl"

/-- A release of two media, a CD and an LP. -/
def twoMediaLine : String :=
  "\x7b\"id\":\"r1\",\"media\":[\x7b\"format\":\"CD\",\"position\":1,\"track-count\":10\x7d," ++
  "\x7b\"format\":\"12\\\" Vinyl\",\"position\":2\x7d]\x7d"

def twoMediaRecord : Value :=
  .json [
    ("id", .string "r1"),
    ("media", .array [
      .json [
        ("format", .string "CD"),
        ("position", .number (.posInt 1)),
        ("track-count", .number (.posInt 10))],
      .json [("format", .string "12\" Vinyl"), ("position", .number (.posInt 2))]])]

theorem release_media_block_two :
    ∃ m, parseMbReleaseLine
        (singleLine releasePath twoMediaLine twoMediaRecord (fun _ => "") id)
        twoMediaLine "20260101-000000" = .ok m ∧
      m.data.get "media" = some (mapRelease recordSpelling Media.taxonomy twoMediaRecord).toValue := by
  obtain ⟨m, hm, hiff⟩ := release_media_block
    (singleLine releasePath twoMediaLine twoMediaRecord (fun _ => "") id)
    twoMediaLine "20260101-000000" twoMediaRecord rfl
  exact ⟨m, hm, hiff.mpr (by decide)⟩

/-- A release whose only medium is `null`. -/
def nullMediumLine : String := "\x7b\"id\":\"r1\",\"media\":[null]\x7d"

def nullMediumRecord : Value := .json [("id", .string "r1"), ("media", .array [.null])]

/-- The `null` is published as an item of no known medium. -/
theorem null_medium_published :
    ∃ m, parseMbReleaseLine
        (singleLine releasePath nullMediumLine nullMediumRecord (fun _ => "") id)
        nullMediumLine "20260101-000000" = .ok m ∧
      m.data.get "media" ≠
        some (mapRelease recordSpelling Media.taxonomy nullMediumRecord).toValue ∧
      (mapRelease recordSpelling Media.taxonomy nullMediumRecord).items = [] ∧
      (attachedBlock Media.taxonomy nullMediumRecord).families = ["other"] ∧
      m.data.get "media" = some (attachedBlock Media.taxonomy nullMediumRecord).toValue := by
  refine ⟨_, parseFn_eq _ .releases nullMediumLine "20260101-000000" rfl, ?_, by decide +kernel,
    by decide +kernel, get_media_releaseData _ _⟩
  show (releaseData _ nullMediumRecord).get "media" ≠ _
  rw [get_media_releaseData, Ne, Option.some.injEq, toValue_attachedBlock_eq_iff]
  exact fun hall => hall .null (List.mem_singleton.mpr rfl) rfl

end MusicbrainzIngestion.JsonlParser
