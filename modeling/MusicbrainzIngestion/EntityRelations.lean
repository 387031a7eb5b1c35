import MusicbrainzIngestion.JsonlParser

/-! Which entity relations keep their target. Release groups have two spellings, for
the type of the target and for the key its object is embedded under; the extractor
tries the raw spelling and then the hyphenated one. -/

namespace MusicbrainzIngestion
open Base Base.Json JsonlParser

/-! ## The two spellings -/

def spellings : List String := ["release-group", "release_group"]

/-- The other spelling of the same entity type, where it has two. -/
def otherSpelling (entityType : String) : String :=
  match entityType with
  | "release_group" => "release-group"
  | "release-group" => "release_group"
  | other => other

theorem otherSpelling_of_ne {t : String} (h : t ≠ "release-group") :
    otherSpelling t = canonicalEntityType t := by
  unfold otherSpelling canonicalEntityType
  split <;> simp_all

/-- The string id of the object embedded under a key. -/
def embeddedId (rel : Value) (key : String) : Option String := ((rel.index key).index "id").asStr

/-- The id of the target under either spelling, the one `target-type` uses first. A string id that
is empty is an id like the others. -/
def targetId (rel : Value) (targetType : String) : Option String :=
  (embeddedId rel targetType).or (embeddedId rel (otherSpelling targetType))

/-- A release group spelled with a hyphen whose object has the other spelling. -/
def MissedTarget (rel : Value) : Prop :=
  (rel.index "target-type").asStr = some "release-group" ∧
    embeddedId rel "release-group" = none ∧
    ∃ id, embeddedId rel "release_group" = some id ∧ id ≠ ""

theorem targetMbid_eq (rel : Value) (t : String) :
    targetMbid rel t =
      ((embeddedId rel t).or (embeddedId rel (canonicalEntityType t))).getD "" := by
  unfold targetMbid embeddedId
  cases ((rel.index t).index "id").asStr <;> rfl

/-- The target of a relation is lost exactly in the missed combination. -/
theorem targetMbid_iff {rel : Value} {t : String} (ht : (rel.index "target-type").asStr = some t) :
    targetMbid rel t = (targetId rel t).getD "" ↔ ¬ MissedTarget rel := by
  rw [targetMbid_eq, targetId, MissedTarget, ht]
  by_cases h : t = "release-group"
  · subst h
    have hcanonical : canonicalEntityType "release-group" = "release-group" := by decide
    have hother : otherSpelling "release-group" = "release_group" := by decide
    rw [hcanonical, hother, Option.or_self]
    cases embeddedId rel "release-group" with
    | some id => simp
    | none =>
      cases embeddedId rel "release_group" with
      | none => simp
      | some id => simp [eq_comm]
  · rw [otherSpelling_of_ne h]
    simp [h]

/-! ## Relations that keep everything -/

/-- An element that is about another entity and not a URL. -/
def isEntityRel (rel : Value) : Bool := (rel.index "target-type").asStr.any (· ≠ "url")

/-- The normalized relation, its target looked for under both spellings. -/
def faithfulRel (rel : Value) (targetType : String) : Value :=
  .json [
    ("type", rel.index "type"),
    ("target_type", .string (canonicalEntityType targetType)),
    ("target_mbid", .string ((targetId rel targetType).getD "")),
    ("direction", rel.index "direction"),
    ("attributes", rel.index "attributes"),
    ("begin_date", rel.index "begin"),
    ("end_date", rel.index "end"),
    ("ended", rel.index "ended")]

def NormalizedTo (rel entry : Value) : Prop :=
  ∃ targetType, (rel.index "target-type").asStr = some targetType ∧ entry = faithfulRel rel targetType

theorem normalizeRel_eq_iff {rel : Value} {t : String}
    (ht : (rel.index "target-type").asStr = some t) :
    normalizeRel rel t = faithfulRel rel t ↔ ¬ MissedTarget rel := by
  rw [← targetMbid_iff ht]
  constructor
  · intro h
    have hmbid := congrArg (fun entry => (entry.index "target_mbid").asStr) h
    simpa [normalizeRel, faithfulRel, Value.json, Value.index, Entries.ofList, Value.asStr] using hmbid
  · intro h
    rw [normalizeRel, faithfulRel, h]

/-- A relation with its target embedded under a key, and nothing under the other spelling. -/
def spelled (fields : Entries) (outer inner : String) (target : Value) : Value :=
  .object (Entries.insert inner target (Entries.insert "target-type" (.string outer) fields))

/-- Two relations that differ in the spellings they use and in nothing else. -/
def Respelled (rel rel' : Value) : Prop :=
  ∃ fields target, (∀ key ∈ spellings, Entries.get key fields = none) ∧
    ∃ outer ∈ spellings, ∃ inner ∈ spellings, ∃ outer' ∈ spellings, ∃ inner' ∈ spellings,
      rel = spelled fields outer inner target ∧ rel' = spelled fields outer' inner' target

theorem index_spelled {fields : Entries} {outer inner key : String} (target : Value)
    (hinner : inner ∈ spellings) (hkey : key ∉ spellings) (htype : key ≠ "target-type") :
    (spelled fields outer inner target).index key = (Value.object fields).index key := by
  have hne : inner ≠ key := fun h => hkey (h ▸ hinner)
  simp [spelled, Value.index, hne, Ne.symm htype]

theorem targetType_spelled {fields : Entries} {outer inner : String} (target : Value)
    (hinner : inner ∈ spellings) :
    ((spelled fields outer inner target).index "target-type").asStr = some outer := by
  have hne : inner ≠ "target-type" := fun h => absurd (h ▸ hinner) (by decide)
  simp [spelled, Value.index, Value.asStr, hne]

theorem embeddedId_spelled {fields : Entries} {outer inner key : String} (target : Value)
    (hfields : ∀ key ∈ spellings, Entries.get key fields = none) (hkey : key ∈ spellings) :
    embeddedId (spelled fields outer inner target) key =
      if inner = key then (target.index "id").asStr else none := by
  have hne : "target-type" ≠ key := fun h => absurd (h ▸ hkey) (by decide)
  by_cases h : inner = key
  · simp [embeddedId, spelled, Value.index, h]
  · simp [embeddedId, spelled, Value.index, h, hne, hfields key hkey, Value.get, Value.asObject,
      Value.asStr]

theorem targetId_spelled {fields : Entries} {outer inner : String} (target : Value)
    (hfields : ∀ key ∈ spellings, Entries.get key fields = none) (houter : outer ∈ spellings)
    (hinner : inner ∈ spellings) :
    targetId (spelled fields outer inner target) outer = (target.index "id").asStr := by
  have hother : otherSpelling outer ∈ spellings := by
    rcases List.mem_pair.mp houter with rfl | rfl <;> decide
  rw [targetId, embeddedId_spelled target hfields houter, embeddedId_spelled target hfields hother]
  rcases List.mem_pair.mp houter with rfl | rfl <;> rcases List.mem_pair.mp hinner with rfl | rfl <;>
    simp [otherSpelling]

/-- The faithful form does not depend on the spellings. -/
theorem faithfulRel_spelled {fields : Entries} (target : Value)
    (hfields : ∀ key ∈ spellings, Entries.get key fields = none) {outer inner outer' inner' : String}
    (houter : outer ∈ spellings) (hinner : inner ∈ spellings) (houter' : outer' ∈ spellings)
    (hinner' : inner' ∈ spellings) :
    faithfulRel (spelled fields outer inner target) outer =
      faithfulRel (spelled fields outer' inner' target) outer' := by
  have hcanonical : ∀ t ∈ spellings, canonicalEntityType t = "release-group" := by decide
  have hfield : ∀ key, key ∉ spellings → key ≠ "target-type" →
      (spelled fields outer inner target).index key =
        (spelled fields outer' inner' target).index key := fun key hkey htype =>
    (index_spelled target hinner hkey htype).trans (index_spelled target hinner' hkey htype).symm
  rw [faithfulRel, faithfulRel, hcanonical outer houter, hcanonical outer' houter',
    targetId_spelled target hfields houter hinner, targetId_spelled target hfields houter' hinner',
    hfield "type" (by decide) (by decide), hfield "direction" (by decide) (by decide),
    hfield "attributes" (by decide) (by decide), hfield "begin" (by decide) (by decide),
    hfield "end" (by decide) (by decide), hfield "ended" (by decide) (by decide)]

theorem extractEntityRel_eq {rel : Value} {t : String}
    (ht : (rel.index "target-type").asStr = some t) (hurl : t ≠ "url") :
    extractEntityRel rel = some (normalizeRel rel t) := by
  rw [extractEntityRel, ht, Option.bind_some, if_neg hurl]

/-- No relation is dropped or emptied, and the spelling it uses makes no difference. The target of
an entry is the id found in the relation: it is empty when none is found, and when the one found is
the empty string. -/
structure NormalizedWithoutLoss (relations : List Value) : Prop where
  entries : List.Forall₂ NormalizedTo (relations.filter isEntityRel) (extractEntityRels relations)
  alike : ∀ rel ∈ relations, ∀ rel' ∈ relations, Respelled rel rel' →
    extractEntityRel rel = extractEntityRel rel'

theorem forall₂_normalizedTo (relations : List Value) :
    List.Forall₂ NormalizedTo (relations.filter isEntityRel) (extractEntityRels relations) ↔
      ∀ rel ∈ relations, ¬ MissedTarget rel := by
  induction relations with
  | nil => exact iff_of_true .nil fun _ h => by cases h
  | cons rel rest ih =>
    rw [List.forall_mem_cons, ← ih]
    unfold extractEntityRels
    cases ht : (rel.index "target-type").asStr with
    | none =>
      have hrel : extractEntityRel rel = none := by rw [extractEntityRel, ht]; rfl
      have hmissed : ¬ MissedTarget rel := fun h => by
        rw [MissedTarget, ht] at h
        cases h.1
      rw [List.filter_cons_of_neg (by simp [isEntityRel, ht]), List.filterMap_cons_none hrel]
      exact (and_iff_right hmissed).symm
    | some t =>
      by_cases hurl : t = "url"
      · have hrel : extractEntityRel rel = none := by
          rw [extractEntityRel, ht, Option.bind_some, if_pos hurl]
        have hmissed : ¬ MissedTarget rel := by
          intro h
          have hgroup := h.1
          rw [ht, hurl] at hgroup
          exact absurd hgroup (by decide)
        rw [List.filter_cons_of_neg (by simp [isEntityRel, ht, hurl]), List.filterMap_cons_none hrel]
        exact (and_iff_right hmissed).symm
      · rw [List.filter_cons_of_pos (by simp [isEntityRel, ht, hurl]),
          List.filterMap_cons_some (extractEntityRel_eq ht hurl), List.forall₂_cons,
          ← normalizeRel_eq_iff ht]
        refine and_congr_left fun _ => ⟨?_, fun h => ⟨t, ht, h⟩⟩
        rintro ⟨t', ht', h⟩
        rw [ht] at ht'
        cases ht'
        exact h

theorem extractEntityRel_spelled {fields : Entries} {outer inner : String} {target : Value}
    (houter : outer ∈ spellings) (hinner : inner ∈ spellings)
    (hfound : ¬ MissedTarget (spelled fields outer inner target)) :
    extractEntityRel (spelled fields outer inner target) =
      some (faithfulRel (spelled fields outer inner target) outer) := by
  have htype := @targetType_spelled fields outer inner target hinner
  have hurl : outer ≠ "url" := fun h => absurd (h ▸ houter) (by decide)
  rw [extractEntityRel_eq htype hurl, (normalizeRel_eq_iff htype).mpr hfound]

/-- Relations are normalized without loss exactly when none is of the missed combination. -/
theorem relations_normalized_iff (relations : List Value) :
    NormalizedWithoutLoss relations ↔ ∀ rel ∈ relations, ¬ MissedTarget rel := by
  refine ⟨fun h => (forall₂_normalizedTo relations).mp h.entries, fun h => ?_⟩
  refine ⟨(forall₂_normalizedTo relations).mpr h, ?_⟩
  rintro rel hrel rel' hrel' ⟨fields, target, hfields, outer, houter, inner, hinner, outer', houter',
    inner', hinner', rfl, rfl⟩
  rw [extractEntityRel_spelled houter hinner (h _ hrel),
    extractEntityRel_spelled houter' hinner' (h _ hrel'),
    faithfulRel_spelled target hfields houter hinner houter' hinner']

def tribute (targetType : String) : Value :=
  spelled [("type", .string "tribute")] targetType "release_group" (.json [("id", .string "rg-mbid-1")])

/-- The object is under `release_group` both times, only one of the two relations finds it. -/
theorem tribute_target_lost :
    ¬ NormalizedWithoutLoss [tribute "release_group", tribute "release-group"] := by
  intro h
  have hfound := (forall₂_normalizedTo _).mp h.entries (tribute "release-group") (by simp)
  exact hfound ⟨by decide, by decide, "rg-mbid-1", by decide, by decide⟩

end MusicbrainzIngestion
