import MusicbrainzIngestion.Base.Json
import Mathlib.Data.List.Sort
import Mathlib.Data.List.Destutter

/-! Canonical media block. The vocabulary decides every route; the mapper is
written over any vocabulary, and over the spelling of the keys it reads: the
release view spells them in snake case, a raw dump record hyphenates them. -/

namespace MusicbrainzIngestion.Media
open Base.Json

/-! ## The vocabulary -/

/-- How a family resolves to a medium: look the stringified attribute up in `map`. -/
structure ResolveRule where
  attr : String
  map : List (String × String)

structure FamilyDefinition where
  id : String
  resolve : Option ResolveRule

structure MediumDefinition where
  id : String
  family : String
  defaults : Entries

/-- What a format name means: a medium, a family, a container, or a release flag. -/
structure FormatEntry where
  family : Option String := none
  medium : Option String := none
  variant : Option String := none
  container : Option String := none
  flag : Option String := none

/-- One table per upstream enumeration; a status may be known and mapped to nothing. -/
structure MusicBrainzVocabulary where
  formats : List (String × FormatEntry)
  status : List (String × Option String)
  packaging : List (String × String)
  primaryTypes : List (String × String)
  secondaryTypes : List (String × String)

structure TaxonomyDocument where
  taxonomyVersion : String
  families : List FamilyDefinition
  media : List MediumDefinition
  musicbrainz : MusicBrainzVocabulary

/-- The vocabulary indexed for lookup. -/
structure Taxonomy where
  taxonomyVersion : String
  families : List (String × FamilyDefinition)
  media : List (String × MediumDefinition)
  musicbrainz : MusicBrainzVocabulary

/-- Collecting into a map keeps the last definition of an id, so the lists are indexed
from their end. -/
def Taxonomy.ofDocument (document : TaxonomyDocument) : Taxonomy where
  taxonomyVersion := document.taxonomyVersion
  families := document.families.reverse.map fun family => (family.id, family)
  media := document.media.reverse.map fun medium => (medium.id, medium)
  musicbrainz := document.musicbrainz

/-! ## The canonical block -/

structure ItemSource where
  provider : String
  name : Option String
  descriptions : List String
  text : Option String
deriving DecidableEq, Repr

/-- One entry per source medium entry, in source order. -/
structure MediaItem where
  family : Option String
  medium : Option String
  qty : Nat
  sizeInches : Option Number
  speedRpm : Option Number
  channels : Option String
  codec : Option String
  variants : List String
  appearance : List String
  position : Option Int64
  trackCount : Option Int64
  source : ItemSource
deriving DecidableEq, Repr

structure Unmapped where
  formats : List String := []
  descriptions : List String := []
deriving DecidableEq, Repr

structure MediaBlock where
  taxonomyVersion : String
  items : List MediaItem
  families : List String
  releaseKind : Option String
  traits : List String
  edition : List String
  packaging : Option String
  container : Option String
  flags : List String
  unmapped : Unmapped
deriving DecidableEq, Repr

/-- Fill a slot only when it is still unset. -/
def fill {α : Type} (slot value : Option α) : Option α :=
  match slot with
  | some a => some a
  | none => value

namespace MediaItem

def new (name : Option String) (descriptions : List String) (text : Option String) : MediaItem where
  family := none
  medium := none
  qty := 1
  sizeInches := none
  speedRpm := none
  channels := none
  codec := none
  variants := []
  appearance := []
  position := none
  trackCount := none
  source := { provider := "musicbrainz", name, descriptions, text }

def fillAttribute (item : MediaItem) (attr : String) (value : Value) : MediaItem :=
  match attr with
  | "size_inches" => { item with sizeInches := fill item.sizeInches value.asNumber }
  | "speed_rpm" => { item with speedRpm := fill item.speedRpm value.asNumber }
  | "channels" => { item with channels := fill item.channels value.asStr }
  | "codec" => { item with codec := fill item.codec value.asStr }
  | _ => item

/-- The stringified attribute a family resolves a medium by. -/
def attributeKey (item : MediaItem) (attr : String) : Option String :=
  match attr with
  | "size_inches" => item.sizeInches.map Number.toText
  | "speed_rpm" => item.speedRpm.map Number.toText
  | "channels" => item.channels
  | "codec" => item.codec
  | _ => none

end MediaItem

def MediaBlock.empty (taxonomy : Taxonomy) : MediaBlock where
  taxonomyVersion := taxonomy.taxonomyVersion
  items := []
  families := []
  releaseKind := none
  traits := []
  edition := []
  packaging := none
  container := none
  flags := []
  unmapped := {}

/-- `sort` then `dedup`. -/
def sortedUnique (values : List String) : List String :=
  (values.insertionSort (· ≤ ·)).destutter (· ≠ ·)

/-! ## The mapper -/

/-- Apply a format-name entry; a container or flag entry is a release-level fact and
produces no item. -/
def applyFormatEntry (block : MediaBlock) (entry : FormatEntry) (item : MediaItem) :
    MediaBlock × Option MediaItem :=
  let block := match entry.container with
    | some container => { block with container := some container }
    | none => block
  let block := match entry.flag with
    | some flag => { block with flags := block.flags ++ [flag] }
    | none => block
  if entry.family = none ∧ entry.medium = none then (block, none)
  else
    (block, some { item with
      medium := entry.medium.orElse fun _ => item.medium
      family := entry.family.orElse fun _ => item.family
      variants := item.variants ++ entry.variant.toList })

def fillDefaults (item : MediaItem) (defaults : Entries) : MediaItem :=
  defaults.foldl (fun item (e : String × Value) => item.fillAttribute e.1 e.2) item

/-- Resolve the item's medium and family, fill the medium's defaults, order its lists. -/
def finishItem (item : MediaItem) (taxonomy : Taxonomy) : MediaItem :=
  let item := match item.medium, item.family with
    | some mediumId, none =>
      match taxonomy.media.lookup mediumId with
      | some medium => { item with family := some medium.family }
      | none => item
    | _, _ => item
  let item := match item.medium, item.family with
    | none, some familyId =>
      let resolved := (taxonomy.families.lookup familyId).bind fun family =>
        family.resolve.bind fun resolve =>
          (item.attributeKey resolve.attr).bind fun key => resolve.map.lookup key
      { item with medium := some (resolved.getD (familyId ++ "_unspecified")) }
    | _, _ => item
  let item := match item.medium.bind fun mediumId => taxonomy.media.lookup mediumId with
    | some medium => fillDefaults item medium.defaults
    | none => item
  { item with variants := sortedUnique item.variants, appearance := sortedUnique item.appearance }

def finishBlock (block : MediaBlock) : MediaBlock :=
  { block with
    families := sortedUnique (block.items.filterMap MediaItem.family)
    traits := sortedUnique block.traits
    edition := sortedUnique block.edition
    flags := sortedUnique block.flags
    unmapped := {
      formats := sortedUnique block.unmapped.formats
      descriptions := sortedUnique block.unmapped.descriptions } }

/-- The spelling of the keys the two shapes of a release disagree on. -/
structure Spelling where
  trackCount : String
  releaseGroup : String
  primaryType : String
  secondaryTypes : String

/-- The release view, as `releaseView` builds it and the conformance fixtures carry it. -/
def viewSpelling : Spelling where
  trackCount := "track_count"
  releaseGroup := "release_group"
  primaryType := "primary_type"
  secondaryTypes := "secondary_types"

/-- A raw record, as the dump hyphenates it. -/
def recordSpelling : Spelling where
  trackCount := "track-count"
  releaseGroup := "release-group"
  primaryType := "primary-type"
  secondaryTypes := "secondary-types"

/-- The non-empty format name a medium states. -/
def formatName (medium : Entries) : Option String :=
  ((Entries.get "format" medium).bind Value.asStr).filter (· ≠ "")

/-- The item a medium starts as, before its format is looked up. -/
def startItem (sp : Spelling) (medium : Entries) : MediaItem :=
  { MediaItem.new (formatName medium) [] none with
    position := (Entries.get "position" medium).bind Value.asI64
    trackCount := (Entries.get sp.trackCount medium).bind Value.asI64 }

/-- Map one medium onto an item, or onto nothing. -/
def mapMedium (sp : Spelling) (block : MediaBlock) (medium : Entries) (taxonomy : Taxonomy) :
    MediaBlock × Option MediaItem :=
  let item := startItem sp medium
  match formatName medium with
  | none => (block, some { item with medium := some "other_unspecified" })
  | some name =>
    match taxonomy.musicbrainz.formats.lookup name with
    | none =>
      ({ block with unmapped := { block.unmapped with formats := block.unmapped.formats ++ [name] } },
        none)
    | some entry => applyFormatEntry block entry item

def pushDescription (block : MediaBlock) (description : String) : MediaBlock :=
  { block with
    unmapped := { block.unmapped with descriptions := block.unmapped.descriptions ++ [description] } }

def mapSecondaryType (taxonomy : Taxonomy) (block : MediaBlock) (secondary : Value) : MediaBlock :=
  match secondary.asStr with
  | none => block
  | some secondary =>
    match taxonomy.musicbrainz.secondaryTypes.lookup secondary with
    | none => pushDescription block secondary
    | some releaseTrait => { block with traits := block.traits ++ [releaseTrait] }

/-- Route the release-level enumerations that sit beside the medium list. -/
def mapReleaseFacts (sp : Spelling) (block : MediaBlock) (release : Value) (taxonomy : Taxonomy) :
    MediaBlock :=
  let block := match (release.get "status").bind Value.asStr with
    | none => block
    | some status =>
      match taxonomy.musicbrainz.status.lookup status with
      | none => pushDescription block status
      | some none => block
      | some (some edition) => { block with edition := block.edition ++ [edition] }
  let block := match (release.get "packaging").bind Value.asStr with
    | none => block
    | some packaging =>
      match taxonomy.musicbrainz.packaging.lookup packaging with
      | none => pushDescription block packaging
      | some mapped => { block with packaging := some mapped }
  let group := release.get sp.releaseGroup
  let block := match (group.bind (Value.get · sp.primaryType)).bind Value.asStr with
    | none => block
    | some primary =>
      match taxonomy.musicbrainz.primaryTypes.lookup primary with
      | none => pushDescription block primary
      | some kind => { block with releaseKind := some kind }
  let secondaryTypes :=
    ((group.bind (Value.get · sp.secondaryTypes)).bind Value.asArray).getD []
  secondaryTypes.foldl (mapSecondaryType taxonomy) block

/-- One turn of the loop over the medium list: what is not an object is skipped. -/
def mapEntry (sp : Spelling) (taxonomy : Taxonomy) (block : MediaBlock) (medium : Value) :
    MediaBlock :=
  match medium.asObject with
  | none => block
  | some medium =>
    match mapMedium sp block medium taxonomy with
    | (block, none) => block
    | (block, some item) => { block with items := block.items ++ [finishItem item taxonomy] }

/-- The mapper over one spelling of its input. -/
def mapRelease (sp : Spelling) (taxonomy : Taxonomy) (release : Value) : MediaBlock :=
  let media := ((release.get "media").bind Value.asArray).getD []
  let block := media.foldl (mapEntry sp taxonomy) (MediaBlock.empty taxonomy)
  finishBlock (mapReleaseFacts sp block release taxonomy)

/-- Map a release view onto the canonical media block. -/
def mapMusicbrainzRelease (taxonomy : Taxonomy) (release : Value) : MediaBlock :=
  mapRelease viewSpelling taxonomy release

/-- The mapper's view of a raw release record. -/
def releaseView (record : Value) (mediaRaw : List Value) : Value :=
  .json [
    ("media", .array mediaRaw),
    ("status", record.index "status"),
    ("packaging", record.index "packaging"),
    ("release_group", .json [
      ("primary_type", (record.index "release-group").index "primary-type"),
      ("secondary_types", (record.index "release-group").index "secondary-types")])]

/-! ## The block as JSON -/

def strings (values : List String) : Value := .array (values.map .string)

def optionNumber (value : Option Number) : Value := (value.map Value.number).getD .null

def optionI64 (value : Option Int64) : Value :=
  (value.map fun n => Value.number (Number.ofI64 n)).getD .null

def ItemSource.toValue (source : ItemSource) : Value :=
  .json [
    ("provider", .string source.provider),
    ("name", .ofOption source.name),
    ("descriptions", strings source.descriptions),
    ("text", .ofOption source.text)]

def MediaItem.toValue (item : MediaItem) : Value :=
  .json [
    ("family", .ofOption item.family),
    ("medium", .ofOption item.medium),
    ("qty", .number (.posInt item.qty.toUInt64)),
    ("size_inches", optionNumber item.sizeInches),
    ("speed_rpm", optionNumber item.speedRpm),
    ("channels", .ofOption item.channels),
    ("codec", .ofOption item.codec),
    ("variants", strings item.variants),
    ("appearance", strings item.appearance),
    ("position", optionI64 item.position),
    ("track_count", optionI64 item.trackCount),
    ("source", item.source.toValue)]

def Unmapped.toValue (unmapped : Unmapped) : Value :=
  .json [
    ("formats", strings unmapped.formats),
    ("descriptions", strings unmapped.descriptions)]

def MediaBlock.toValue (block : MediaBlock) : Value :=
  .json [
    ("taxonomy_version", .string block.taxonomyVersion),
    ("items", .array (block.items.map MediaItem.toValue)),
    ("families", strings block.families),
    ("release_kind", .ofOption block.releaseKind),
    ("traits", strings block.traits),
    ("edition", strings block.edition),
    ("packaging", .ofOption block.packaging),
    ("container", .ofOption block.container),
    ("flags", strings block.flags),
    ("unmapped", block.unmapped.toValue)]

/-- Attach the canonical block to a normalized record; anything but an object is left alone. -/
def attachMediaBlock (taxonomy : Taxonomy) (data record : Value) : Value :=
  match data with
  | .object _ =>
    let mediaRaw := ((data.get "media_raw").bind Value.asArray).getD []
    data.insert "media" (mapMusicbrainzRelease taxonomy (releaseView record mediaRaw)).toValue
  | _ => data

/-! ## The items of a block

Whether a medium gives an item, and which, does not depend on the block built so
far, so the items of a block are read off the media one by one. -/

/-- The item one entry of the medium list contributes. -/
def entryItem (sp : Spelling) (taxonomy : Taxonomy) (entry : Value) : Option MediaItem :=
  entry.asObject.bind fun medium =>
    ((mapMedium sp (MediaBlock.empty taxonomy) medium taxonomy).2).map (finishItem · taxonomy)

theorem applyFormatEntry_items (block : MediaBlock) (entry : FormatEntry) (item : MediaItem) :
    (applyFormatEntry block entry item).1.items = block.items := by
  unfold applyFormatEntry
  cases entry.container <;> cases entry.flag <;> dsimp only <;> split <;> rfl

theorem applyFormatEntry_item (block block' : MediaBlock) (entry : FormatEntry) (item : MediaItem) :
    (applyFormatEntry block entry item).2 = (applyFormatEntry block' entry item).2 := by
  unfold applyFormatEntry
  dsimp only
  split <;> rfl

theorem mapMedium_items (sp : Spelling) (block : MediaBlock) (medium : Entries)
    (taxonomy : Taxonomy) : (mapMedium sp block medium taxonomy).1.items = block.items := by
  unfold mapMedium
  dsimp only
  split
  · rfl
  · split
    · rfl
    · exact applyFormatEntry_items _ _ _

theorem mapMedium_item (sp : Spelling) (block block' : MediaBlock) (medium : Entries)
    (taxonomy : Taxonomy) :
    (mapMedium sp block medium taxonomy).2 = (mapMedium sp block' medium taxonomy).2 := by
  unfold mapMedium
  dsimp only
  split
  · rfl
  · split
    · rfl
    · exact applyFormatEntry_item _ _ _ _

theorem mapEntry_items (sp : Spelling) (taxonomy : Taxonomy) (block : MediaBlock) (entry : Value) :
    (mapEntry sp taxonomy block entry).items =
      block.items ++ (entryItem sp taxonomy entry).toList := by
  unfold mapEntry entryItem
  cases entry.asObject with
  | none => simp
  | some medium =>
    have hitems := mapMedium_items sp block medium taxonomy
    rw [Option.bind_some, mapMedium_item sp _ block medium taxonomy]
    cases hm : mapMedium sp block medium taxonomy with
    | mk block' item =>
      rw [hm] at hitems
      cases item <;> simp_all

theorem foldl_mapEntry_items (sp : Spelling) (taxonomy : Taxonomy) (media : List Value)
    (block : MediaBlock) :
    (media.foldl (mapEntry sp taxonomy) block).items =
      block.items ++ media.filterMap (entryItem sp taxonomy) := by
  induction media generalizing block with
  | nil => simp
  | cons entry media ih =>
    rw [List.foldl_cons, ih, mapEntry_items, List.append_assoc, List.filterMap_cons]
    cases entryItem sp taxonomy entry <;> rfl

theorem mapSecondaryType_items (taxonomy : Taxonomy) (block : MediaBlock) (secondary : Value) :
    (mapSecondaryType taxonomy block secondary).items = block.items := by
  unfold mapSecondaryType
  split
  · rfl
  · split <;> rfl

theorem foldl_mapSecondaryType_items (taxonomy : Taxonomy) (secondaryTypes : List Value)
    (block : MediaBlock) :
    (secondaryTypes.foldl (mapSecondaryType taxonomy) block).items = block.items := by
  induction secondaryTypes generalizing block with
  | nil => rfl
  | cons secondary rest ih => rw [List.foldl_cons, ih, mapSecondaryType_items]

theorem mapReleaseFacts_items (sp : Spelling) (block : MediaBlock) (release : Value)
    (taxonomy : Taxonomy) : (mapReleaseFacts sp block release taxonomy).items = block.items := by
  unfold mapReleaseFacts
  rw [foldl_mapSecondaryType_items]
  repeat' split
  all_goals rfl

/-- The media a release lists, under the key both shapes share. -/
def mediaOf (release : Value) : List Value := ((release.get "media").bind Value.asArray).getD []

theorem mapRelease_items (sp : Spelling) (taxonomy : Taxonomy) (release : Value) :
    (mapRelease sp taxonomy release).items =
      (mediaOf release).filterMap (entryItem sp taxonomy) := by
  show (mapReleaseFacts _ _ _ _).items = _
  rw [mapReleaseFacts_items, foldl_mapEntry_items]
  rfl

theorem items_toValue (block : MediaBlock) :
    (block.toValue.index "items").elements = block.items.map MediaItem.toValue := by
  simp [MediaBlock.toValue, Value.index, Value.json, Entries.ofList, Value.elements, Value.asArray]

end MusicbrainzIngestion.Media
