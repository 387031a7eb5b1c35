import MusicbrainzIngestion.MediaConservation
import MusicbrainzIngestion.MediaTaxonomy

/-! Every item of a block agrees with itself, whatever well-formed vocabulary routed it:
its medium exists, its family is the medium's, and its attributes are the medium's defaults. -/

namespace MusicbrainzIngestion.Media
open Base.Json

/-! ## Attributes -/

def attributeNames : List String := ["size_inches", "speed_rpm", "channels", "codec"]

/-- An attribute of an item, as the block states it. -/
def MediaItem.attribute (item : MediaItem) (attr : String) : Value :=
  match attr with
  | "size_inches" => optionNumber item.sizeInches
  | "speed_rpm" => optionNumber item.speedRpm
  | "channels" => .ofOption item.channels
  | "codec" => .ofOption item.codec
  | _ => .null

/-- The value has the type of the field it fills; a default of another name fills none. -/
def fitsAttribute (attr : String) (value : Value) : Bool :=
  match attr with
  | "size_inches" | "speed_rpm" => value.asNumber.isSome
  | "channels" | "codec" => value.asStr.isSome
  | _ => true

theorem mem_attributeNames {attr : String} :
    attr ∈ attributeNames ↔
      attr = "size_inches" ∨ attr = "speed_rpm" ∨ attr = "channels" ∨ attr = "codec" := by
  simp [attributeNames]

theorem attribute_fillAttribute_self {item : MediaItem} {attr : String} {value : Value}
    (hattr : attr ∈ attributeNames) (hfits : fitsAttribute attr value = true) :
    (item.fillAttribute attr value).attribute attr =
      if (item.attribute attr).isNull then value else item.attribute attr := by
  rcases mem_attributeNames.mp hattr with rfl | rfl | rfl | rfl
  · cases value <;> cases hslot : item.sizeInches <;>
      simp_all [fitsAttribute, MediaItem.attribute, MediaItem.fillAttribute, optionNumber, fill,
        Value.asNumber, Value.isNull]
  · cases value <;> cases hslot : item.speedRpm <;>
      simp_all [fitsAttribute, MediaItem.attribute, MediaItem.fillAttribute, optionNumber, fill,
        Value.asNumber, Value.isNull]
  · cases value <;> cases hslot : item.channels <;>
      simp_all [fitsAttribute, MediaItem.attribute, MediaItem.fillAttribute, Value.ofOption, fill,
        Value.asStr, Value.isNull]
  · cases value <;> cases hslot : item.codec <;>
      simp_all [fitsAttribute, MediaItem.attribute, MediaItem.fillAttribute, Value.ofOption, fill,
        Value.asStr, Value.isNull]

theorem attribute_fillAttribute_ne {item : MediaItem} {attr key : String} (value : Value)
    (hne : key ≠ attr) : (item.fillAttribute key value).attribute attr = item.attribute attr := by
  unfold MediaItem.fillAttribute
  split <;> unfold MediaItem.attribute <;> split <;> simp_all

theorem isNull_of_fits {attr : String} {value : Value} (hattr : attr ∈ attributeNames)
    (hfits : fitsAttribute attr value = true) : value.isNull = false := by
  rcases mem_attributeNames.mp hattr with rfl | rfl | rfl | rfl <;> cases value <;>
    simp_all [fitsAttribute, Value.asNumber, Value.asStr, Value.isNull]

/-- The first value an attribute is given stays. -/
theorem attribute_fillDefaults {attr : String} (hattr : attr ∈ attributeNames) {defaults : Entries}
    (hfits : ∀ e ∈ defaults, fitsAttribute e.1 e.2 = true) (item : MediaItem) :
    (fillDefaults item defaults).attribute attr =
      if (item.attribute attr).isNull then (Entries.get attr defaults).getD (item.attribute attr)
      else item.attribute attr := by
  induction defaults generalizing item with
  | nil => simp [fillDefaults]
  | cons e rest ih =>
    obtain ⟨key, value⟩ := e
    rw [List.forall_mem_cons] at hfits
    have hrest := ih hfits.2 (item.fillAttribute key value)
    show (fillDefaults (item.fillAttribute key value) rest).attribute attr = _
    rw [hrest, Entries.get_cons]
    by_cases hkey : key = attr
    · subst hkey
      rw [attribute_fillAttribute_self hattr hfits.1, if_pos rfl]
      by_cases hnull : (item.attribute key).isNull = true
      · simp [hnull, isNull_of_fits hattr hfits.1]
      · simp [hnull]
    · rw [attribute_fillAttribute_ne value hkey, if_neg hkey]

/-! ## Well-formed vocabularies -/

/-- What routes an item to a family or a medium routes it to one that exists, and to both alike. -/
structure WellFormed (taxonomy : Taxonomy) : Prop where
  other : (taxonomy.families.lookup "other").isSome
  mediumFamily : ∀ id medium, taxonomy.media.lookup id = some medium →
    (taxonomy.families.lookup medium.family).isSome
  unspecified : ∀ f, (taxonomy.families.lookup f).isSome →
    ∃ medium, taxonomy.media.lookup (f ++ "_unspecified") = some medium ∧ medium.family = f
  defaults : ∀ id medium, taxonomy.media.lookup id = some medium →
    ∀ e ∈ medium.defaults, fitsAttribute e.1 e.2 = true
  resolves : ∀ f family rule, taxonomy.families.lookup f = some family → family.resolve = some rule →
    ∀ key id, rule.map.lookup key = some id →
      ∃ medium, taxonomy.media.lookup id = some medium ∧ medium.family = f
  entryFamily : ∀ name entry f, taxonomy.musicbrainz.formats.lookup name = some entry →
    entry.family = some f → (taxonomy.families.lookup f).isSome
  entryMedium : ∀ name entry id, taxonomy.musicbrainz.formats.lookup name = some entry →
    entry.medium = some id → (taxonomy.media.lookup id).isSome
  entryBoth : ∀ name entry f id medium, taxonomy.musicbrainz.formats.lookup name = some entry →
    entry.family = some f → entry.medium = some id → taxonomy.media.lookup id = some medium →
      medium.family = f
  entryFact : ∀ name entry, taxonomy.musicbrainz.formats.lookup name = some entry →
    entry.container.isSome ∨ entry.flag.isSome → entry.family = none ∧ entry.medium = none

/-- The item's medium exists, its family is that medium's, its attributes that medium's defaults. -/
def Consistent (taxonomy : Taxonomy) (item : MediaItem) : Prop :=
  ∃ id medium, item.medium = some id ∧ taxonomy.media.lookup id = some medium ∧
    item.family = some medium.family ∧
    ∀ attr ∈ attributeNames, item.attribute attr = (Entries.get attr medium.defaults).getD .null

/-! ## Finishing an item -/

/-- No attribute is stated, as on every item before its medium's defaults. -/
def Bare (item : MediaItem) : Prop :=
  item.sizeInches = none ∧ item.speedRpm = none ∧ item.channels = none ∧ item.codec = none

theorem Bare.attribute {item : MediaItem} (h : Bare item) (attr : String) :
    item.attribute attr = .null := by
  obtain ⟨hsize, hspeed, hchannels, hcodec⟩ := h
  unfold MediaItem.attribute
  split <;> simp [*, optionNumber, Value.ofOption]

theorem Bare.attributeKey {item : MediaItem} (h : Bare item) (attr : String) :
    item.attributeKey attr = none := by
  obtain ⟨hsize, hspeed, hchannels, hcodec⟩ := h
  unfold MediaItem.attributeKey
  split <;> simp [*]

/-- An item the vocabulary can settle: a medium, a family, or both alike. -/
inductive Routed (taxonomy : Taxonomy) (item : MediaItem) : Prop
  | byMedium {id : String} {medium : MediumDefinition} : item.medium = some id →
      item.family = none → taxonomy.media.lookup id = some medium → Routed taxonomy item
  | byFamily {f : String} : item.medium = none → item.family = some f →
      (taxonomy.families.lookup f).isSome → Routed taxonomy item
  | byBoth {id : String} {medium : MediumDefinition} : item.medium = some id →
      item.family = some medium.family → taxonomy.media.lookup id = some medium → Routed taxonomy item

/-- Both are known after the two steps that fill them, and nothing else is. -/
theorem Routed.settled {taxonomy : Taxonomy} (wf : WellFormed taxonomy) {item : MediaItem}
    (hbare : Bare item) (h : Routed taxonomy item) :
    ∃ id medium, taxonomy.media.lookup id = some medium ∧
      fillMedium taxonomy (fillFamily taxonomy item) =
        { item with medium := some id, family := some medium.family } := by
  cases h with
  | @byMedium id medium hmedium hfamily hlookup =>
    refine ⟨id, medium, hlookup, ?_⟩
    simp [fillFamily, fillMedium, hmedium, hfamily, hlookup]
  | @byFamily f hmedium hfamily hknown =>
    obtain ⟨medium, hlookup, hsame⟩ := wf.unspecified f hknown
    refine ⟨f ++ "_unspecified", medium, hlookup, ?_⟩
    -- without an attribute no resolve rule applies
    have hkey : ∀ attr, item.attributeKey attr = none := hbare.attributeKey
    have hresolved : ((taxonomy.families.lookup f).bind fun family => family.resolve.bind fun resolve =>
        (item.attributeKey resolve.attr).bind fun key => resolve.map.lookup key) = none := by
      simp [hkey]
    simp [fillFamily, fillMedium, hmedium, hfamily, hresolved, hsame]
  | @byBoth id medium hmedium hfamily hlookup =>
    refine ⟨id, medium, hlookup, ?_⟩
    rw [fillFamily, hmedium, hfamily]
    simp only [fillMedium, hmedium, hfamily]
    rw [← hmedium, ← hfamily]

theorem consistent_finishItem {taxonomy : Taxonomy} (wf : WellFormed taxonomy) {item : MediaItem}
    (hbare : Bare item) (h : Routed taxonomy item) : Consistent taxonomy (finishItem item taxonomy) := by
  obtain ⟨id, medium, hlookup, hsettled⟩ := h.settled wf hbare
  have hfilled : fillAttributes taxonomy (fillMedium taxonomy (fillFamily taxonomy item)) =
      fillDefaults { item with medium := some id, family := some medium.family } medium.defaults := by
    rw [hsettled, fillAttributes, Option.bind_some, hlookup]
  have hkeeps := fillDefaults_keeps { item with medium := some id, family := some medium.family }
    medium.defaults
  have hfinish : ∀ attr, (finishItem item taxonomy).attribute attr =
      (fillDefaults { item with medium := some id, family := some medium.family }
        medium.defaults).attribute attr := by
    intro attr
    rw [← hfilled]
    rfl
  refine ⟨id, medium, ?_, hlookup, ?_, fun attr hattr => ?_⟩
  · show (fillAttributes taxonomy (fillMedium taxonomy (fillFamily taxonomy item))).medium = _
    rw [hfilled]
    exact hkeeps.medium id rfl
  · show (fillAttributes taxonomy (fillMedium taxonomy (fillFamily taxonomy item))).family = _
    rw [hfilled]
    exact hkeeps.family _ rfl
  · have hnull : MediaItem.attribute { item with medium := some id, family := some medium.family } attr =
        .null := Bare.attribute hbare attr
    rw [hfinish, attribute_fillDefaults hattr (wf.defaults id medium hlookup), hnull]
    rfl

theorem bare_rawItem (sp : Spelling) (taxonomy : Taxonomy) (medium : Entries) :
    Bare (rawItem sp taxonomy medium) := by
  unfold rawItem
  dsimp only
  split <;> exact ⟨rfl, rfl, rfl, rfl⟩

/-- What a medium gives an item is routed by the vocabulary. -/
theorem routed_rawItem {taxonomy : Taxonomy} (wf : WellFormed taxonomy) (sp : Spelling)
    {medium : Entries} (h : givesItem taxonomy medium = true) :
    Routed taxonomy (rawItem sp taxonomy medium) := by
  cases hname : formatName medium with
  | none =>
    obtain ⟨other, hlookup, -⟩ := wf.unspecified "other" wf.other
    rw [rawItem_of_unstated hname]
    exact .byMedium rfl rfl hlookup
  | some name =>
    cases hentry : knownFormat taxonomy medium with
    | none => simp [givesItem, hname, hentry] at h
    | some entry =>
      have hformat : taxonomy.musicbrainz.formats.lookup name = some entry := by
        simpa [knownFormat, hname] using hentry
      rw [rawItem_of_known hentry]
      cases hmedium : entry.medium with
      | none =>
        cases hfamily : entry.family with
        | none => simp [givesItem, hname, hentry, hmedium, hfamily] at h
        | some f =>
          exact .byFamily (by simp [named, hmedium, startItem, MediaItem.new])
            (by simp [named, hfamily]) (wf.entryFamily name entry f hformat hfamily)
      | some id =>
        obtain ⟨definition, hlookup⟩ :=
          Option.isSome_iff_exists.mp (wf.entryMedium name entry id hformat hmedium)
        cases hfamily : entry.family with
        | none =>
          exact .byMedium (by simp [named, hmedium])
            (by simp [named, hfamily, startItem, MediaItem.new]) hlookup
        | some f =>
          have hsame := wf.entryBoth name entry f id definition hformat hfamily hmedium hlookup
          exact .byBoth (by simp [named, hmedium]) (by simp [named, hfamily, hsame]) hlookup

/-! ## The vendored vocabulary -/

theorem mem_of_lookup {α : Type} {table : List (String × α)} {key : String} {a : α}
    (h : table.lookup key = some a) : (key, a) ∈ table := by
  obtain ⟨before, after, rfl, -⟩ := List.lookup_eq_some_iff.mp h
  simp

theorem family_of_any {found : Option MediumDefinition} {f : String}
    (h : found.any (·.family == f) = true) : ∃ medium, found = some medium ∧ medium.family = f := by
  cases found with
  | none => cases h
  | some medium => exact ⟨medium, rfl, by simpa using h⟩

theorem vendored_media :
    ∀ e ∈ taxonomy.media, (taxonomy.families.lookup e.2.family).isSome ∧
      ∀ d ∈ e.2.defaults, fitsAttribute d.1 d.2 = true := by decide +kernel

theorem vendored_families :
    ∀ e ∈ taxonomy.families,
      (taxonomy.media.lookup (e.1 ++ "_unspecified")).any (·.family == e.1) ∧
      ∀ rule ∈ e.2.resolve, ∀ r ∈ rule.map, (taxonomy.media.lookup r.2).any (·.family == e.1) := by
  decide +kernel

theorem vendored_formats :
    ∀ e ∈ taxonomy.musicbrainz.formats,
      (∀ f ∈ e.2.family, (taxonomy.families.lookup f).isSome) ∧
      (∀ id ∈ e.2.medium, (taxonomy.media.lookup id).isSome ∧
        ∀ f ∈ e.2.family, (taxonomy.media.lookup id).all (·.family == f)) ∧
      (e.2.container.isSome ∨ e.2.flag.isSome → e.2.family = none ∧ e.2.medium = none) := by
  decide +kernel

theorem vendored_wellFormed : WellFormed taxonomy where
  other := by decide +kernel
  mediumFamily := fun id medium h => (vendored_media _ (mem_of_lookup h)).1
  unspecified := by
    intro f h
    obtain ⟨family, hfamily⟩ := Option.isSome_iff_exists.mp h
    exact family_of_any (vendored_families _ (mem_of_lookup hfamily)).1
  defaults := fun id medium h => (vendored_media _ (mem_of_lookup h)).2
  resolves := by
    intro f family rule hfamily hrule key id hid
    exact family_of_any ((vendored_families _ (mem_of_lookup hfamily)).2 rule hrule _ (mem_of_lookup hid))
  entryFamily := fun name entry f h hf => (vendored_formats _ (mem_of_lookup h)).1 f hf
  entryMedium := fun name entry id h hid => ((vendored_formats _ (mem_of_lookup h)).2.1 id hid).1
  entryBoth := by
    intro name entry f id medium h hf hid hlookup
    have hall := ((vendored_formats _ (mem_of_lookup h)).2.1 id hid).2 f hf
    simpa [hlookup] using hall
  entryFact := fun name entry h => (vendored_formats _ (mem_of_lookup h)).2.2

/-- Every item of every block is consistent under a well-formed vocabulary, as the vendored one is. -/
theorem media_block_consistent :
    (∀ vocabulary : Taxonomy, WellFormed vocabulary → ∀ release : Value,
      (∀ item ∈ (mapMusicbrainzRelease vocabulary release).items, Consistent vocabulary item) ∧
      ∀ f ∈ (mapMusicbrainzRelease vocabulary release).families,
        (vocabulary.families.lookup f).isSome) ∧
    WellFormed taxonomy := by
  refine ⟨fun vocabulary wf release => ?_, vendored_wellFormed⟩
  have haccounts := mapRelease_accounts vocabulary release
  have hitems : ∀ item ∈ (mapMusicbrainzRelease vocabulary release).items,
      Consistent vocabulary item := by
    intro item hitem
    rw [mapMusicbrainzRelease, haccounts.items] at hitem
    obtain ⟨medium, hmedium, rfl⟩ := List.mem_map.mp hitem
    exact consistent_finishItem wf (bare_rawItem viewSpelling vocabulary medium)
      (routed_rawItem wf viewSpelling (List.mem_filter.mp hmedium).2)
  refine ⟨hitems, fun f hf => ?_⟩
  obtain ⟨item, hitem, hfamily⟩ := (haccounts.families f).mp hf
  obtain ⟨id, medium, -, hlookup, hsame, -⟩ := hitems item hitem
  rw [hfamily] at hsame
  cases hsame
  exact wf.mediumFamily id medium hlookup

/-- A 12" record, a disc of unstated format, and a format only its family is known of. -/
def threeMedia : Value :=
  .json [("media", .array [.json [("format", .string "12\" Vinyl")], .json [],
    .json [("format", .string "Shellac")]])]

theorem media_block_three :
    (∀ item ∈ (mapMusicbrainzRelease taxonomy threeMedia).items, Consistent taxonomy item) ∧
      (mapMusicbrainzRelease taxonomy threeMedia).items.map MediaItem.medium =
        [some "vinyl_12", some "other_unspecified", some "shellac_unspecified"] :=
  ⟨(media_block_consistent.1 taxonomy media_block_consistent.2 threeMedia).1, by decide +kernel⟩

end MusicbrainzIngestion.Media
