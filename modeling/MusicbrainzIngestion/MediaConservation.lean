import MusicbrainzIngestion.Base.Sorted
import MusicbrainzIngestion.Media

/-! Every value the mapper reads reaches one place of the block. The loop over the
media and the release facts each have a closed form: what a medium or a fact adds
does not depend on the block built so far, so the block is the concatenation of
what its parts add, sorted and freed of duplicates at the end. -/

namespace MusicbrainzIngestion.Media
open Base.Json

/-! ## Sorted lists without duplicates -/

@[simp] theorem mem_sortedUnique {values : List String} {value : String} :
    value ∈ sortedUnique values ↔ value ∈ values :=
  Base.mem_sortDedup (r := (· ≤ ·))

theorem sortedUnique_strict (values : List String) : (sortedUnique values).Pairwise (· < ·) := by
  have hsorted : (sortedUnique values).Pairwise fun a b => a ≤ b ∧ a ≠ b := Base.pairwise_sortDedup
  exact hsorted.imp fun h => lt_of_le_of_ne h.1 h.2

/-! ## What one medium adds -/

/-- The entry of the format table a medium names. -/
def knownFormat (taxonomy : Taxonomy) (medium : Entries) : Option FormatEntry :=
  (formatName medium).bind fun name => taxonomy.musicbrainz.formats.lookup name

/-- The format name of a medium the table does not have. -/
def unknownFormat (taxonomy : Taxonomy) (medium : Entries) : Option String :=
  (formatName medium).filter fun name => (taxonomy.musicbrainz.formats.lookup name).isNone

/-- Whether a medium is an item: it states no format, or one that names a family or a medium. -/
def givesItem (taxonomy : Taxonomy) (medium : Entries) : Bool :=
  (formatName medium).isNone ||
    (knownFormat taxonomy medium).any fun entry => entry.family.isSome || entry.medium.isSome

/-- A format entry written onto an item. -/
def named (entry : FormatEntry) (item : MediaItem) : MediaItem :=
  { item with
    medium := entry.medium.orElse fun _ => item.medium
    family := entry.family.orElse fun _ => item.family
    variants := item.variants ++ entry.variant.toList }

/-- The item a medium is before it is finished. -/
def rawItem (sp : Spelling) (taxonomy : Taxonomy) (medium : Entries) : MediaItem :=
  let item := startItem sp medium
  match formatName medium, knownFormat taxonomy medium with
  | none, _ => { item with medium := some "other_unspecified" }
  | some _, none => item
  | some _, some entry => named entry item

def itemOf (sp : Spelling) (taxonomy : Taxonomy) (medium : Entries) : MediaItem :=
  finishItem (rawItem sp taxonomy medium) taxonomy

/-- The media of a release that are objects, in source order. -/
def objectMedia (release : Value) : List Entries := (mediaOf release).filterMap Value.asObject

theorem formatName_eq_some {medium : Entries} {name : String} :
    formatName medium = some name ↔
      Entries.get "format" medium = some (.string name) ∧ name ≠ "" := by
  unfold formatName
  cases Entries.get "format" medium with
  | none => simp
  | some v => cases v <;> simp [Value.asStr, Option.filter_eq_some_iff]

theorem unknownFormat_eq_some {taxonomy : Taxonomy} {medium : Entries} {name : String} :
    unknownFormat taxonomy medium = some name ↔
      formatName medium = some name ∧ taxonomy.musicbrainz.formats.lookup name = none := by
  simp [unknownFormat, Option.filter_eq_some_iff]

theorem applyFormatEntry_eq (block : MediaBlock) (entry : FormatEntry) (item : MediaItem) :
    applyFormatEntry block entry item =
      ({ block with
          container := entry.container.or block.container
          flags := block.flags ++ entry.flag.toList },
        if entry.family.isSome || entry.medium.isSome then some (named entry item) else none) := by
  obtain ⟨family, medium, variant, container, flag⟩ := entry
  cases family <;> cases medium <;> cases container <;> cases flag <;>
    simp [applyFormatEntry, named]

/-- A block and what a list of media adds to it. -/
def addMedia (sp : Spelling) (taxonomy : Taxonomy) (block : MediaBlock) (media : List Entries) :
    MediaBlock :=
  let known := media.filterMap (knownFormat taxonomy)
  { block with
    items := block.items ++ (media.filter (givesItem taxonomy)).map (itemOf sp taxonomy)
    container := (known.filterMap FormatEntry.container).getLast?.or block.container
    flags := block.flags ++ known.filterMap FormatEntry.flag
    unmapped := { block.unmapped with
      formats := block.unmapped.formats ++ media.filterMap (unknownFormat taxonomy) } }

theorem addMedia_nil (sp : Spelling) (taxonomy : Taxonomy) (block : MediaBlock) :
    addMedia sp taxonomy block [] = block := by
  simp [addMedia]

theorem addMedia_append (sp : Spelling) (taxonomy : Taxonomy) (block : MediaBlock)
    (media rest : List Entries) :
    addMedia sp taxonomy (addMedia sp taxonomy block media) rest =
      addMedia sp taxonomy block (media ++ rest) := by
  simp only [addMedia, List.filter_append, List.map_append, List.filterMap_append,
    List.append_assoc, List.getLast?_append, Option.or_assoc]

theorem rawItem_of_known {sp : Spelling} {taxonomy : Taxonomy} {medium : Entries}
    {entry : FormatEntry} (hentry : knownFormat taxonomy medium = some entry) :
    rawItem sp taxonomy medium = named entry (startItem sp medium) := by
  cases hname : formatName medium with
  | none => simp [knownFormat, hname] at hentry
  | some name => simp [rawItem, hname, hentry]

theorem rawItem_of_unstated {sp : Spelling} {taxonomy : Taxonomy} {medium : Entries}
    (hname : formatName medium = none) :
    rawItem sp taxonomy medium =
      { startItem sp medium with medium := some "other_unspecified" } := by
  simp [rawItem, hname]

/-- One turn of the loop adds the one medium it reads. -/
theorem mapEntry_object (sp : Spelling) (taxonomy : Taxonomy) (block : MediaBlock)
    (medium : Entries) :
    mapEntry sp taxonomy block (.object medium) = addMedia sp taxonomy block [medium] := by
  cases hname : formatName medium with
  | none =>
    simp [mapEntry, Value.asObject, mapMedium, addMedia, givesItem, itemOf, rawItem_of_unstated,
      knownFormat, unknownFormat, hname]
  | some name =>
    cases hentry : taxonomy.musicbrainz.formats.lookup name with
    | none =>
      simp [mapEntry, Value.asObject, mapMedium, addMedia, givesItem, knownFormat, unknownFormat,
        hname, hentry, Option.filter_some]
    | some entry =>
      have hknown : knownFormat taxonomy medium = some entry := by simp [knownFormat, hname, hentry]
      have hunknown : unknownFormat taxonomy medium = none := by
        simp [unknownFormat, hname, hentry, Option.filter_some]
      simp only [mapEntry, Value.asObject, mapMedium, hname, hentry, applyFormatEntry_eq, addMedia,
        List.filter_cons, givesItem, hknown, hunknown, Option.isNone_some, Bool.false_or,
        Option.any_some, List.filterMap_cons, List.filterMap_nil, List.filter_nil]
      by_cases hitem : (entry.family.isSome || entry.medium.isSome) = true
      · simp only [hitem, if_true, List.map_cons, List.map_nil, itemOf, rawItem_of_known hknown]
        cases entry.container <;> cases entry.flag <;> simp
      · simp only [hitem]
        cases entry.container <;> cases entry.flag <;> simp

theorem mapEntry_of_not_object (sp : Spelling) (taxonomy : Taxonomy) (block : MediaBlock)
    {entry : Value} (h : entry.asObject = none) : mapEntry sp taxonomy block entry = block := by
  simp [mapEntry, h]

/-- The loop over the media adds the objects among them. -/
theorem foldl_mapEntry (sp : Spelling) (taxonomy : Taxonomy) (media : List Value)
    (block : MediaBlock) :
    media.foldl (mapEntry sp taxonomy) block =
      addMedia sp taxonomy block (media.filterMap Value.asObject) := by
  induction media generalizing block with
  | nil => exact (addMedia_nil sp taxonomy block).symm
  | cons entry media ih =>
    rw [List.foldl_cons, ih]
    cases hobj : entry.asObject with
    | none => rw [mapEntry_of_not_object sp taxonomy block hobj, List.filterMap_cons_none hobj]
    | some medium =>
      have hentry : entry = .object medium := by
        cases entry <;> simp_all [Value.asObject]
      rw [hentry, mapEntry_object, addMedia_append, List.singleton_append]
      rfl

/-! ## What the release facts add -/

def statusOf (release : Value) : Option String := (release.get "status").bind Value.asStr

def packagingOf (release : Value) : Option String := (release.get "packaging").bind Value.asStr

def primaryTypeOf (sp : Spelling) (release : Value) : Option String :=
  ((release.get sp.releaseGroup).bind (Value.get · sp.primaryType)).bind Value.asStr

/-- The secondary types of a release that are strings. -/
def secondaryTypesOf (sp : Spelling) (release : Value) : List String :=
  ((((release.get sp.releaseGroup).bind (Value.get · sp.secondaryTypes)).bind
    Value.asArray).getD []).filterMap Value.asStr

/-- The strings among the release facts their own table does not know, in reading order. -/
def unknownFacts (sp : Spelling) (vocabulary : MusicBrainzVocabulary) (release : Value) :
    List String :=
  ((statusOf release).filter fun s => (vocabulary.status.lookup s).isNone).toList ++
  ((packagingOf release).filter fun s => (vocabulary.packaging.lookup s).isNone).toList ++
  ((primaryTypeOf sp release).filter fun s => (vocabulary.primaryTypes.lookup s).isNone).toList ++
  (secondaryTypesOf sp release).filter fun s => (vocabulary.secondaryTypes.lookup s).isNone

theorem foldl_mapSecondaryType (taxonomy : Taxonomy) (secondaryTypes : List Value)
    (block : MediaBlock) :
    secondaryTypes.foldl (mapSecondaryType taxonomy) block =
      let names := secondaryTypes.filterMap Value.asStr
      { block with
        traits := block.traits ++ names.filterMap fun s => taxonomy.musicbrainz.secondaryTypes.lookup s
        unmapped := { block.unmapped with
          descriptions := block.unmapped.descriptions ++
            names.filter fun s => (taxonomy.musicbrainz.secondaryTypes.lookup s).isNone } } := by
  induction secondaryTypes generalizing block with
  | nil => simp
  | cons secondary rest ih =>
    rw [List.foldl_cons, ih]
    cases hstr : secondary.asStr with
    | none => simp [mapSecondaryType, hstr]
    | some name =>
      cases hlookup : taxonomy.musicbrainz.secondaryTypes.lookup name <;>
        simp [mapSecondaryType, hstr, hlookup, pushDescription]

/-- The block after the status alone was routed. -/
def routeStatus (taxonomy : Taxonomy) (block : MediaBlock) : Option String → MediaBlock
  | none => block
  | some status =>
    match taxonomy.musicbrainz.status.lookup status with
    | none => pushDescription block status
    | some none => block
    | some (some edition) => { block with edition := block.edition ++ [edition] }

/-- The block after the packaging alone was routed. -/
def routePackaging (taxonomy : Taxonomy) (block : MediaBlock) : Option String → MediaBlock
  | none => block
  | some packaging =>
    match taxonomy.musicbrainz.packaging.lookup packaging with
    | none => pushDescription block packaging
    | some mapped => { block with packaging := some mapped }

/-- The block after the primary type alone was routed. -/
def routePrimaryType (taxonomy : Taxonomy) (block : MediaBlock) : Option String → MediaBlock
  | none => block
  | some primary =>
    match taxonomy.musicbrainz.primaryTypes.lookup primary with
    | none => pushDescription block primary
    | some kind => { block with releaseKind := some kind }

theorem mapReleaseFacts_steps (sp : Spelling) (block : MediaBlock) (release : Value)
    (taxonomy : Taxonomy) :
    mapReleaseFacts sp block release taxonomy =
      ((((release.get sp.releaseGroup).bind (Value.get · sp.secondaryTypes)).bind
        Value.asArray).getD []).foldl (mapSecondaryType taxonomy)
          (routePrimaryType taxonomy
            (routePackaging taxonomy (routeStatus taxonomy block (statusOf release))
              (packagingOf release))
            (primaryTypeOf sp release)) := rfl

theorem routeStatus_eq (taxonomy : Taxonomy) (block : MediaBlock) (status : Option String) :
    routeStatus taxonomy block status =
      { block with
        edition := block.edition ++
          (status.bind fun s => (taxonomy.musicbrainz.status.lookup s).join).toList
        unmapped := { block.unmapped with
          descriptions := block.unmapped.descriptions ++
            (status.filter fun s => (taxonomy.musicbrainz.status.lookup s).isNone).toList } } := by
  cases status with
  | none => simp [routeStatus]
  | some status =>
    cases hlookup : taxonomy.musicbrainz.status.lookup status with
    | none => simp [routeStatus, hlookup, pushDescription, Option.filter_some]
    | some target => cases target <;> simp [routeStatus, hlookup, Option.filter_some]

theorem routePackaging_eq (taxonomy : Taxonomy) (block : MediaBlock) (packaging : Option String) :
    routePackaging taxonomy block packaging =
      { block with
        packaging :=
          (packaging.bind fun s => taxonomy.musicbrainz.packaging.lookup s).or block.packaging
        unmapped := { block.unmapped with
          descriptions := block.unmapped.descriptions ++
            (packaging.filter fun s => (taxonomy.musicbrainz.packaging.lookup s).isNone).toList } } := by
  cases packaging with
  | none => simp [routePackaging]
  | some packaging =>
    cases hlookup : taxonomy.musicbrainz.packaging.lookup packaging <;>
      simp [routePackaging, hlookup, pushDescription, Option.filter_some]

theorem routePrimaryType_eq (taxonomy : Taxonomy) (block : MediaBlock) (primary : Option String) :
    routePrimaryType taxonomy block primary =
      { block with
        releaseKind :=
          (primary.bind fun s => taxonomy.musicbrainz.primaryTypes.lookup s).or block.releaseKind
        unmapped := { block.unmapped with
          descriptions := block.unmapped.descriptions ++
            (primary.filter fun s => (taxonomy.musicbrainz.primaryTypes.lookup s).isNone).toList } } := by
  cases primary with
  | none => simp [routePrimaryType]
  | some primary =>
    cases hlookup : taxonomy.musicbrainz.primaryTypes.lookup primary <;>
      simp [routePrimaryType, hlookup, pushDescription, Option.filter_some]

/-- The release facts, in closed form. -/
theorem mapReleaseFacts_eq (sp : Spelling) (block : MediaBlock) (release : Value)
    (taxonomy : Taxonomy) :
    mapReleaseFacts sp block release taxonomy =
      let vocabulary := taxonomy.musicbrainz
      { block with
        edition := block.edition ++
          ((statusOf release).bind fun s => (vocabulary.status.lookup s).join).toList
        packaging := ((packagingOf release).bind fun s => vocabulary.packaging.lookup s).or
          block.packaging
        releaseKind := ((primaryTypeOf sp release).bind fun s => vocabulary.primaryTypes.lookup s).or
          block.releaseKind
        traits := block.traits ++
          (secondaryTypesOf sp release).filterMap fun s => vocabulary.secondaryTypes.lookup s
        unmapped := { block.unmapped with
          descriptions := block.unmapped.descriptions ++ unknownFacts sp vocabulary release } } := by
  rw [mapReleaseFacts_steps, routeStatus_eq, routePackaging_eq, routePrimaryType_eq,
    foldl_mapSecondaryType]
  simp [unknownFacts, secondaryTypesOf]

/-! ## Finishing an item

Each step of `finishItem` fills slots that are still unset. -/

/-- What is known of an item stays: its place, its source, its variants, and a medium or
family once it is set. -/
structure Keeps (item later : MediaItem) : Prop where
  position : later.position = item.position
  trackCount : later.trackCount = item.trackCount
  source : later.source = item.source
  variants : later.variants = item.variants
  medium : ∀ m, item.medium = some m → later.medium = some m
  family : ∀ f, item.family = some f → later.family = some f

theorem Keeps.refl (item : MediaItem) : Keeps item item :=
  ⟨rfl, rfl, rfl, rfl, fun _ h => h, fun _ h => h⟩

theorem Keeps.trans {a b c : MediaItem} (hab : Keeps a b) (hbc : Keeps b c) : Keeps a c where
  position := hbc.position.trans hab.position
  trackCount := hbc.trackCount.trans hab.trackCount
  source := hbc.source.trans hab.source
  variants := hbc.variants.trans hab.variants
  medium := fun m hm => hbc.medium m (hab.medium m hm)
  family := fun f hf => hbc.family f (hab.family f hf)

/-- The family of an item that has a medium only. -/
def fillFamily (taxonomy : Taxonomy) (item : MediaItem) : MediaItem :=
  match item.medium, item.family with
  | some mediumId, none =>
    match taxonomy.media.lookup mediumId with
    | some medium => { item with family := some medium.family }
    | none => item
  | _, _ => item

/-- The medium of an item that has a family only. -/
def fillMedium (taxonomy : Taxonomy) (item : MediaItem) : MediaItem :=
  match item.medium, item.family with
  | none, some familyId =>
    let resolved := (taxonomy.families.lookup familyId).bind fun family =>
      family.resolve.bind fun resolve =>
        (item.attributeKey resolve.attr).bind fun key => resolve.map.lookup key
    { item with medium := some (resolved.getD (familyId ++ "_unspecified")) }
  | _, _ => item

/-- The attributes the medium of an item has by default. -/
def fillAttributes (taxonomy : Taxonomy) (item : MediaItem) : MediaItem :=
  match item.medium.bind fun mediumId => taxonomy.media.lookup mediumId with
  | some medium => fillDefaults item medium.defaults
  | none => item

theorem fillFamily_keeps (taxonomy : Taxonomy) (item : MediaItem) :
    Keeps item (fillFamily taxonomy item) := by
  unfold fillFamily
  split
  · next _ hfamily =>
    split
    · exact ⟨rfl, rfl, rfl, rfl, fun _ h => h, by simp [hfamily]⟩
    · exact Keeps.refl item
  · exact Keeps.refl item

theorem fillMedium_keeps (taxonomy : Taxonomy) (item : MediaItem) :
    Keeps item (fillMedium taxonomy item) := by
  unfold fillMedium
  split
  · next hmedium _ => exact ⟨rfl, rfl, rfl, rfl, by simp [hmedium], fun _ h => h⟩
  · exact Keeps.refl item

theorem fillAttribute_keeps (item : MediaItem) (attr : String) (value : Value) :
    Keeps item (item.fillAttribute attr value) := by
  unfold MediaItem.fillAttribute
  split <;> exact ⟨rfl, rfl, rfl, rfl, fun _ h => h, fun _ h => h⟩

theorem fillDefaults_keeps (item : MediaItem) (defaults : Entries) :
    Keeps item (fillDefaults item defaults) := by
  unfold fillDefaults
  induction defaults generalizing item with
  | nil => exact Keeps.refl item
  | cons e defaults ih => exact (fillAttribute_keeps item e.1 e.2).trans (ih _)

theorem fillAttributes_keeps (taxonomy : Taxonomy) (item : MediaItem) :
    Keeps item (fillAttributes taxonomy item) := by
  unfold fillAttributes
  split
  · exact fillDefaults_keeps item _
  · exact Keeps.refl item

theorem fill_keeps (taxonomy : Taxonomy) (item : MediaItem) :
    Keeps item (fillAttributes taxonomy (fillMedium taxonomy (fillFamily taxonomy item))) :=
  (fillFamily_keeps taxonomy item).trans
    ((fillMedium_keeps taxonomy _).trans (fillAttributes_keeps taxonomy _))

/-- The item of a medium stands where the medium says, and is what its format says it is. -/
structure Describes (taxonomy : Taxonomy) (source : Entries) (item : MediaItem) : Prop where
  position : item.position = (Entries.get "position" source).bind Value.asI64
  trackCount : item.trackCount = (Entries.get "track_count" source).bind Value.asI64
  name : item.source.name = formatName source
  unstated : formatName source = none → item.medium = some "other_unspecified"
  medium : ∀ entry m, knownFormat taxonomy source = some entry → entry.medium = some m →
    item.medium = some m
  family : ∀ entry f, knownFormat taxonomy source = some entry → entry.family = some f →
    item.family = some f
  variants : item.variants.Pairwise (· < ·)

theorem rawItem_place (sp : Spelling) (taxonomy : Taxonomy) (medium : Entries) :
    (rawItem sp taxonomy medium).position = (startItem sp medium).position ∧
      (rawItem sp taxonomy medium).trackCount = (startItem sp medium).trackCount ∧
      (rawItem sp taxonomy medium).source = (startItem sp medium).source := by
  unfold rawItem
  dsimp only
  split <;> exact ⟨rfl, rfl, rfl⟩

theorem itemOf_describes (taxonomy : Taxonomy) (medium : Entries) :
    Describes taxonomy medium (itemOf viewSpelling taxonomy medium) := by
  obtain ⟨hposition, htrackCount, hsource⟩ := rawItem_place viewSpelling taxonomy medium
  have hkeeps := fill_keeps taxonomy (rawItem viewSpelling taxonomy medium)
  constructor
  case position => exact hkeeps.position.trans hposition
  case trackCount => exact hkeeps.trackCount.trans htrackCount
  case name => exact congrArg ItemSource.name (hkeeps.source.trans hsource)
  case unstated =>
    intro hname
    exact hkeeps.medium _ (by rw [rawItem_of_unstated hname])
  case medium =>
    intro entry m hentry hm
    exact hkeeps.medium _ (by rw [rawItem_of_known hentry]; simp [named, hm])
  case family =>
    intro entry f hentry hf
    exact hkeeps.family _ (by rw [rawItem_of_known hentry]; simp [named, hf])
  case variants => exact sortedUnique_strict _

/-! ## The block -/

/-- Every value the mapper reads is accounted for in the block, once, and nothing else is. -/
structure Accounts (taxonomy : Taxonomy) (release : Value) (block : MediaBlock) : Prop where
  items : block.items =
    ((objectMedia release).filter (givesItem taxonomy)).map (itemOf viewSpelling taxonomy)
  describes : ∀ medium ∈ objectMedia release,
    Describes taxonomy medium (itemOf viewSpelling taxonomy medium)
  formats : ∀ name, name ∈ block.unmapped.formats ↔ ∃ medium ∈ objectMedia release,
    Entries.get "format" medium = some (.string name) ∧ name ≠ "" ∧
      taxonomy.musicbrainz.formats.lookup name = none
  edition : ∀ e, e ∈ block.edition ↔ ∃ status, statusOf release = some status ∧
    taxonomy.musicbrainz.status.lookup status = some (some e)
  packaging : block.packaging =
    (packagingOf release).bind fun s => taxonomy.musicbrainz.packaging.lookup s
  releaseKind : block.releaseKind =
    (primaryTypeOf viewSpelling release).bind fun s => taxonomy.musicbrainz.primaryTypes.lookup s
  traits : ∀ t, t ∈ block.traits ↔ ∃ secondary ∈ secondaryTypesOf viewSpelling release,
    taxonomy.musicbrainz.secondaryTypes.lookup secondary = some t
  descriptions : ∀ d, d ∈ block.unmapped.descriptions ↔
    statusOf release = some d ∧ taxonomy.musicbrainz.status.lookup d = none ∨
    packagingOf release = some d ∧ taxonomy.musicbrainz.packaging.lookup d = none ∨
    primaryTypeOf viewSpelling release = some d ∧
      taxonomy.musicbrainz.primaryTypes.lookup d = none ∨
    d ∈ secondaryTypesOf viewSpelling release ∧
      taxonomy.musicbrainz.secondaryTypes.lookup d = none
  families : ∀ f, f ∈ block.families ↔ ∃ item ∈ block.items, item.family = some f
  container : ∀ c, block.container = some c → ∃ medium ∈ objectMedia release, ∃ entry,
    knownFormat taxonomy medium = some entry ∧ entry.container = some c
  flags : ∀ f, f ∈ block.flags ↔ ∃ medium ∈ objectMedia release, ∃ entry,
    knownFormat taxonomy medium = some entry ∧ entry.flag = some f

/-- The lists of a block that have no source order are strictly ascending. -/
structure Ordered (block : MediaBlock) : Prop where
  families : block.families.Pairwise (· < ·)
  traits : block.traits.Pairwise (· < ·)
  edition : block.edition.Pairwise (· < ·)
  flags : block.flags.Pairwise (· < ·)
  variants : ∀ item ∈ block.items, item.variants.Pairwise (· < ·)
  formats : block.unmapped.formats.Pairwise (· < ·)
  descriptions : block.unmapped.descriptions.Pairwise (· < ·)

/-- The block before its lists are sorted, from its parts. -/
theorem mapRelease_eq (sp : Spelling) (taxonomy : Taxonomy) (release : Value) :
    mapRelease sp taxonomy release = finishBlock
      (mapReleaseFacts sp (addMedia sp taxonomy (MediaBlock.empty taxonomy) (objectMedia release))
        release taxonomy) := by
  rw [objectMedia, ← foldl_mapEntry]
  rfl

theorem mem_unknownFacts {sp : Spelling} {vocabulary : MusicBrainzVocabulary} {release : Value}
    {d : String} :
    d ∈ unknownFacts sp vocabulary release ↔
      statusOf release = some d ∧ vocabulary.status.lookup d = none ∨
      packagingOf release = some d ∧ vocabulary.packaging.lookup d = none ∨
      primaryTypeOf sp release = some d ∧ vocabulary.primaryTypes.lookup d = none ∨
      d ∈ secondaryTypesOf sp release ∧ vocabulary.secondaryTypes.lookup d = none := by
  simp [unknownFacts, Option.filter_eq_some_iff]

/-- What the known formats of some media state of one kind. -/
theorem mem_known {taxonomy : Taxonomy} {media : List Entries} {f : FormatEntry → Option String}
    {value : String} :
    value ∈ (media.filterMap (knownFormat taxonomy)).filterMap f ↔
      ∃ medium ∈ media, ∃ entry, knownFormat taxonomy medium = some entry ∧ f entry = some value := by
  simp only [List.mem_filterMap]
  constructor
  · rintro ⟨entry, ⟨medium, hmedium, hknown⟩, hvalue⟩
    exact ⟨medium, hmedium, entry, hknown, hvalue⟩
  · rintro ⟨medium, hmedium, entry, hknown, hvalue⟩
    exact ⟨entry, ⟨medium, hmedium, hknown⟩, hvalue⟩

theorem mapRelease_accounts (taxonomy : Taxonomy) (release : Value) :
    Accounts taxonomy release (mapRelease viewSpelling taxonomy release) := by
  rw [mapRelease_eq, mapReleaseFacts_eq]
  constructor
  case items => simp [finishBlock, addMedia, MediaBlock.empty]
  case describes => exact fun medium _ => itemOf_describes taxonomy medium
  case formats =>
    intro name
    simp only [finishBlock, addMedia, MediaBlock.empty, mem_sortedUnique, List.nil_append,
      List.mem_filterMap, unknownFormat_eq_some, formatName_eq_some, and_assoc]
  case edition =>
    intro e
    simp [finishBlock, addMedia, MediaBlock.empty, Option.bind_eq_some_iff, Option.join_eq_some_iff]
  case packaging => simp [finishBlock, addMedia, MediaBlock.empty]
  case releaseKind => simp [finishBlock, addMedia, MediaBlock.empty]
  case traits =>
    intro t
    simp [finishBlock, addMedia, MediaBlock.empty]
  case descriptions =>
    intro d
    simp only [finishBlock, addMedia, MediaBlock.empty, mem_sortedUnique, List.nil_append,
      mem_unknownFacts]
  case families =>
    intro f
    simp only [finishBlock, mem_sortedUnique, List.mem_filterMap]
  case container =>
    intro c hc
    simp only [finishBlock, addMedia, MediaBlock.empty, Option.or_none] at hc
    exact mem_known.mp (List.mem_of_getLast? hc)
  case flags =>
    intro f
    simp only [finishBlock, addMedia, MediaBlock.empty, mem_sortedUnique, List.nil_append, mem_known]

theorem mapRelease_ordered (taxonomy : Taxonomy) (release : Value) :
    Ordered (mapRelease viewSpelling taxonomy release) where
  families := sortedUnique_strict _
  traits := sortedUnique_strict _
  edition := sortedUnique_strict _
  flags := sortedUnique_strict _
  variants := by
    rw [(mapRelease_accounts taxonomy release).items]
    intro item hitem
    obtain ⟨medium, _, rfl⟩ := List.mem_map.mp hitem
    exact (itemOf_describes taxonomy medium).variants
  formats := sortedUnique_strict _
  descriptions := sortedUnique_strict _

/-- Media mapping loses and invents nothing, over any vocabulary. -/
theorem mapMusicbrainzRelease_conserves (taxonomy : Taxonomy) (release : Value) :
    Accounts taxonomy release (mapMusicbrainzRelease taxonomy release) ∧
      Ordered (mapMusicbrainzRelease taxonomy release) :=
  ⟨mapRelease_accounts taxonomy release, mapRelease_ordered taxonomy release⟩

end MusicbrainzIngestion.Media
