import MusicbrainzIngestion.Base.Json
import MusicbrainzIngestion.Base.Text

/-! Canonical MusicBrainz release identifiers. Full upper-casing is a Unicode
table of the standard library; it is a parameter here and nothing below depends
on what it does. -/

namespace MusicbrainzIngestion.Identifiers
open Base Base.Json

structure Namespace where
  provider : String
  typeId : String
  normalization : String

structure MusicBrainz where
  barcodeField : String
  catalogNumberField : String
  types : List (String × String)

structure Vocabulary where
  vocabularyVersion : String
  unmappedType : String
  aliasNamespaces : List Namespace
  musicbrainz : MusicBrainz

/-- The vendored vocabulary. -/
def vocabulary : Vocabulary where
  vocabularyVersion := "1"
  unmappedType := "other"
  aliasNamespaces := [
    { provider := "barcode", typeId := "barcode", normalization := "digits_only" },
    { provider := "catalog_number", typeId := "catalog_number", normalization := "upper_collapse_space" },
    { provider := "matrix", typeId := "matrix_runout", normalization := "collapse_space" }]
  musicbrainz := {
    barcodeField := "barcode"
    catalogNumberField := "label-info[].catalog-number"
    types := [("barcode", "barcode"), ("catalog-number", "catalog_number")] }

/-- Insertion into an ordered set, kept as the list it iterates as. -/
def setInsert {α : Type} [DecidableEq α] (lt : α → α → Bool) (a : α) : List α → List α
  | [] => [a]
  | b :: rest =>
    if a = b then b :: rest
    else if lt a b then a :: b :: rest
    else b :: setInsert lt a rest

def ltString (a b : String) : Bool := decide (a < b)

def ltPair (a b : String × String) : Bool := decide (a.1 < b.1 ∨ a.1 = b.1 ∧ a.2 < b.2)

def trimmed (value : Option Value) : Option String :=
  ((value.bind Value.asStr).map Text.trim).filter (· ≠ "")

def aliasValue (toUppercase : String → String) (rule value : String) : Option String :=
  let normalized := match rule with
    | "digits_only" => some (String.ofList (value.toList.filter Text.isAsciiDigit))
    | "collapse_space" => some (Text.joinWith " " (Text.splitWhitespace value))
    | "upper_collapse_space" => some (toUppercase (Text.joinWith " " (Text.splitWhitespace value)))
    | _ => none
  normalized.filter (· ≠ "")

/-- The four collections the mapper fills. -/
structure Collected where
  items : List Value := []
  types : List String := []
  aliases : List (String × String) := []
  unmapped : List String := []

/-- The closure `add`: one identifier, its type, and the aliases it mints. -/
def add (toUppercase : String → String) (vocab : Vocabulary) (c : Collected)
    (rawType value field : String) : Collected :=
  let mapped := vocab.musicbrainz.types.lookup rawType
  let typeId := mapped.getD vocab.unmappedType
  let item := Value.json [
    ("type", .string typeId), ("value", .string value), ("description", .null),
    ("source", .json [
      ("provider", .string "musicbrainz"), ("type", .null), ("field", .string field)])]
  { items := c.items ++ [item]
    types := setInsert ltString typeId c.types
    aliases := (vocab.aliasNamespaces.filter (·.typeId = typeId)).foldl
      (fun aliases ns => match aliasValue toUppercase ns.normalization value with
        | some externalId => setInsert ltPair (ns.provider, externalId) aliases
        | none => aliases) c.aliases
    unmapped := match mapped with
      | some _ => c.unmapped
      | none => setInsert ltString rawType c.unmapped }

/-- Map the original MusicBrainz fields, retaining source order. -/
def mapMusicbrainzIdentifiers (toUppercase : String → String) (vocab : Vocabulary)
    (release : Value) : Value :=
  let c : Collected := match trimmed (release.get "barcode") with
    | some value => add toUppercase vocab {} "barcode" value vocab.musicbrainz.barcodeField
    | none => {}
  let entries := ((release.get "label-info").bind Value.asArray).getD []
  let c := entries.foldl (fun c entry => match trimmed (entry.get "catalog-number") with
    | some value => add toUppercase vocab c "catalog-number" value vocab.musicbrainz.catalogNumberField
    | none => c) c
  .json [
    ("identifiers_version", .string vocab.vocabularyVersion),
    ("items", .array c.items),
    ("types", .array (c.types.map .string)),
    ("aliases", .array (c.aliases.map fun a =>
      .json [("provider", .string a.1), ("external_id", .string a.2)])),
    ("unmapped", .json [("types", .array (c.unmapped.map .string))])]

def attachIdentifiersBlock (toUppercase : String → String) (vocab : Vocabulary)
    (data release : Value) : Value :=
  data.insert "identifiers" (mapMusicbrainzIdentifiers toUppercase vocab release)

end MusicbrainzIngestion.Identifiers
