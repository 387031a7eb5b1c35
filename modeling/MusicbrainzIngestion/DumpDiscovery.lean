import MusicbrainzIngestion.DownloadTrust

/-! The discovery of the dump files. The exact names keep the entities apart; a name that
only contains a keyword may contain two, and may spell release groups the other way. -/

namespace MusicbrainzIngestion
open Base

/-- What discovery sees of a directory: which names exist, and the regular files it lists. -/
structure DumpDirectory where
  root : String
  isDir : Bool
  present : String → Bool
  listing : Except Error (List String)

namespace DumpDirectory

variable (dir : DumpDirectory)

def discover : Except Error (List (DataType × String)) :=
  discoverMbDumpFiles dir.root dir.present dir.listing

def listed : List String :=
  match dir.listing with
  | .ok names => names
  | .error _ => []

/-- Discovery maps the entity to the file. -/
def Maps (dt : DataType) (name : String) : Prop := ∃ found, dir.discover = .ok found ∧ (dt, name) ∈ found

/-- An exact name of the entity exists. -/
def hasExact (dt : DataType) : Bool := (mbFilePatterns dt).any dir.present

end DumpDirectory

def mbMarkerName (version : String) : String := ".mb_extraction_status_" ++ version ++ ".json"

/-- The name spells release groups, one way or the other. -/
def namesReleaseGroups (name : String) : Bool :=
  Text.contains name "release-group" || Text.contains name "release_group"

/-- The stem of the name is the entity's keyword, possibly after `mbdump-`. -/
def HasOwnStem (dt : DataType) (name : String) : Prop :=
  ∃ front ∈ ["", "mbdump-"], ∃ ext ∈ [".jsonl", ".jsonl.xz"], name = front ++ entityKeyword dt ++ ext

/-- Discovery never confuses entities. -/
structure Unconfused (dir : DumpDirectory) : Prop where
  apart : ∀ dt dt' name, dir.Maps dt name → dir.Maps dt' name → dt = dt'
  groups : ∀ name, dir.Maps .releases name → namesReleaseGroups name = false
  exact : ∀ dt, dir.hasExact dt = true →
    (∃ name, dir.Maps dt name) ∧
      ∀ name, dir.Maps dt name → name ∈ mbFilePatterns dt ∧ dir.present name = true
  foreign : ∀ dt name, dir.Maps dt name →
    Text.endsWith name ".tmp" = false ∧ ∀ version, name ≠ mbMarkerName version
  complete : isVersionComplete dir.isDir dir.present = true →
    ∀ dt, ∃ name, dir.Maps dt name ∧ HasOwnStem dt name

/-- The entity has no exact name, and this is the first listed name that fits it. -/
def FallsTo (dir : DumpDirectory) (dt : DataType) (name : String) : Prop :=
  dir.hasExact dt = false ∧ ∃ pre post, dir.listed = pre ++ name :: post ∧
    fuzzyMatch dt name = true ∧ ∀ earlier ∈ pre, fuzzyMatch dt earlier = false

/-- No two entities fall to one name, and releases fall to no name with the other spelling. -/
structure Unambiguous (dir : DumpDirectory) : Prop where
  apart : ∀ dt dt' name, FallsTo dir dt name → FallsTo dir dt' name → dt = dt'
  groups : ∀ name, FallsTo dir .releases name → Text.contains name "release_group" = false

/-! ## Names -/

/-- An exact name fits its own entity and no other. -/
theorem fuzzyMatch_pattern {dt dt' : DataType} {name : String} (h : name ∈ mbFilePatterns dt) :
    fuzzyMatch dt' name = true ↔ dt' = dt := by
  have hall : ∀ dt dt', ∀ name ∈ mbFilePatterns dt, fuzzyMatch dt' name = decide (dt' = dt) := by
    intro dt dt'
    cases dt <;> cases dt' <;> decide +kernel
  rw [hall dt dt' name h, decide_eq_true_iff]

theorem groups_pattern {name : String} (h : name ∈ mbFilePatterns .releases) :
    namesReleaseGroups name = false := by
  have hall : ∀ name ∈ mbFilePatterns .releases, namesReleaseGroups name = false := by decide +kernel
  exact hall name h

theorem ownStem_pattern {dt : DataType} {name : String} (h : name ∈ mbFilePatterns dt) :
    HasOwnStem dt name := by
  have hall : ∀ dt, ∀ name ∈ mbFilePatterns dt, ∃ front ∈ ["", "mbdump-"],
      ∃ ext ∈ [".jsonl", ".jsonl.xz"], name = front ++ entityKeyword dt ++ ext := by
    intro dt
    cases dt <;> decide +kernel
  exact hall dt name h

theorem not_group_of_fuzzy {name : String} (h : fuzzyMatch .releases name = true) :
    Text.contains name "release-group" = false := by
  unfold fuzzyMatch at h
  simpa using (Bool.and_eq_true_iff.mp (Bool.and_eq_true_iff.mp h).1).2

theorem endsWith_of_fuzzy {dt : DataType} {name : String} (h : fuzzyMatch dt name = true) :
    Text.endsWith name ".jsonl.xz" = true ∨ Text.endsWith name ".jsonl" = true :=
  Bool.or_eq_true_iff.mp (Bool.and_eq_true_iff.mp h).2

/-- A marker ends in `.json`, a dump file does not. -/
theorem not_marker_of_fuzzy {dt : DataType} {name version : String} (h : fuzzyMatch dt name = true) :
    name ≠ mbMarkerName version := by
  rintro rfl
  have hmarker : Text.endsWith (mbMarkerName version) ".json" = true := by
    unfold Text.endsWith mbMarkerName
    rw [String.toList_append, decide_eq_true_iff]
    exact List.suffix_append _ _
  have hlast := Text.getLast?_of_endsWith hmarker (by decide)
  rcases endsWith_of_fuzzy h with hends | hends
  · rw [Text.getLast?_of_endsWith hends (by decide)] at hlast
    exact absurd hlast (by decide)
  · rw [Text.getLast?_of_endsWith hends (by decide)] at hlast
    exact absurd hlast (by decide)

/-! ## What discovery finds -/

variable {dir : DumpDirectory} {dt dt' : DataType} {name : String}

theorem maps_iff_discoverEntity :
    dir.Maps dt name ↔ discoverEntity dir.present dir.listed dt = some name := by
  have hmem : (dt, name) ∈ (mbEntities.filterMap fun dt =>
      (discoverEntity dir.present dir.listed dt).map fun name => (dt, name)) ↔
        discoverEntity dir.present dir.listed dt = some name := by
    rw [List.mem_filterMap]
    constructor
    · rintro ⟨dt', -, hdt'⟩
      obtain ⟨name', hname', heq⟩ := Option.map_eq_some_iff.mp hdt'
      cases heq
      exact hname'
    · intro h
      exact ⟨dt, by cases dt <;> decide, Option.map_eq_some_iff.mpr ⟨name, h, rfl⟩⟩
  rw [← hmem]
  unfold DumpDirectory.Maps DumpDirectory.discover discoverMbDumpFiles DumpDirectory.listed
  cases hlisting : dir.listing with
  | ok names => simp
  | error e =>
    dsimp only
    split
    · next hfound _ => simp [hfound]
    · next hok _ => simp

/-- An entity maps to the first of its exact names, else to the name it falls to. -/
theorem maps_iff : dir.Maps dt name ↔
    (mbFilePatterns dt).find? dir.present = some name ∨ FallsTo dir dt name := by
  have hnone : (mbFilePatterns dt).find? dir.present = none ↔ dir.hasExact dt = false := by
    rw [DumpDirectory.hasExact, List.find?_eq_none, List.any_eq_false]
  have hfirst : dir.listed.find? (fuzzyMatch dt) = some name ↔ ∃ pre post,
      dir.listed = pre ++ name :: post ∧ fuzzyMatch dt name = true ∧
        ∀ earlier ∈ pre, fuzzyMatch dt earlier = false := by
    rw [List.find?_eq_some_iff_append]
    constructor
    · rintro ⟨hfits, pre, post, hlisted, hpre⟩
      exact ⟨pre, post, hlisted, hfits, fun earlier h => by simpa using hpre earlier h⟩
    · rintro ⟨pre, post, hlisted, hfits, hpre⟩
      exact ⟨hfits, pre, post, hlisted, fun earlier h => by simpa using hpre earlier h⟩
  rw [maps_iff_discoverEntity, discoverEntity, Option.or_eq_some_iff, hnone, hfirst]
  rfl

theorem fuzzy_of_maps (h : dir.Maps dt name) : fuzzyMatch dt name = true := by
  rcases maps_iff.mp h with hexact | ⟨-, pre, post, -, hfits, -⟩
  · exact (fuzzyMatch_pattern (List.mem_of_find?_eq_some hexact)).mpr rfl
  · exact hfits

theorem exact_of_maps (h : dir.Maps dt name) (hexact : dir.hasExact dt = true) :
    name ∈ mbFilePatterns dt ∧ dir.present name = true := by
  rcases maps_iff.mp h with hfind | ⟨hnone, -⟩
  · exact ⟨List.mem_of_find?_eq_some hfind, List.find?_some hfind⟩
  · rw [hexact] at hnone
    cases hnone

theorem maps_of_exact (hexact : dir.hasExact dt = true) : ∃ name, dir.Maps dt name := by
  cases hfind : (mbFilePatterns dt).find? dir.present with
  | some name => exact ⟨name, maps_iff.mpr (.inl hfind)⟩
  | none =>
    have hnone := List.any_eq_false.mpr fun pattern hp => List.find?_eq_none.mp hfind pattern hp
    rw [DumpDirectory.hasExact, hnone] at hexact
    cases hexact

theorem hasExact_of_entity (h : entityIsComplete dir.present dt = true) : dir.hasExact dt = true := by
  have hbare : bareName dt ∈ mbFilePatterns dt := by cases dt <;> decide
  have hout : outName dt ∈ mbFilePatterns dt := by cases dt <;> decide
  rcases Bool.or_eq_true_iff.mp h with hp | hp
  · exact List.any_eq_true.mpr ⟨_, hbare, hp⟩
  · exact List.any_eq_true.mpr ⟨_, hout, hp⟩

/-- A complete version has an exact name for every entity. -/
theorem hasExact_of_complete (h : isVersionComplete dir.isDir dir.present = true) (dt : DataType) :
    dir.hasExact dt = true :=
  hasExact_of_entity (List.all_eq_true.mp (Bool.and_eq_true_iff.mp h).2 dt (by cases dt <;> decide))

/-- Entities are confused exactly where two of them fall to one name, or releases to a name that
spells release groups with an underscore. -/
theorem unconfused_iff (dir : DumpDirectory) : Unconfused dir ↔ Unambiguous dir := by
  constructor
  · intro h
    refine ⟨fun dt dt' name hdt hdt' => ?_, fun name hname => ?_⟩
    · exact h.apart dt dt' name (maps_iff.mpr (.inr hdt)) (maps_iff.mpr (.inr hdt'))
    · exact (Bool.or_eq_false_iff.mp (h.groups name (maps_iff.mpr (.inr hname)))).2
  · intro h
    refine ⟨fun dt dt' name hdt hdt' => ?_, fun name hname => ?_, fun dt hexact => ?_,
      fun dt name hname => ?_, fun hcomplete dt => ?_⟩
    · rcases maps_iff.mp hdt with hexact | hfalls
      · exact ((fuzzyMatch_pattern (List.mem_of_find?_eq_some hexact)).mp (fuzzy_of_maps hdt')).symm
      · rcases maps_iff.mp hdt' with hexact' | hfalls'
        · exact (fuzzyMatch_pattern (List.mem_of_find?_eq_some hexact')).mp (fuzzy_of_maps hdt)
        · exact h.apart dt dt' name hfalls hfalls'
    · rcases maps_iff.mp hname with hexact | hfalls
      · exact groups_pattern (List.mem_of_find?_eq_some hexact)
      · exact Bool.or_eq_false_iff.mpr ⟨not_group_of_fuzzy (fuzzy_of_maps hname), h.groups name hfalls⟩
    · exact ⟨maps_of_exact hexact, fun name hname => exact_of_maps hname hexact⟩
    · exact ⟨discoverEntity_not_tmp (maps_iff_discoverEntity.mp hname),
        fun version => not_marker_of_fuzzy (fuzzy_of_maps hname)⟩
    · have hexact := hasExact_of_complete hcomplete dt
      obtain ⟨name, hname⟩ := maps_of_exact hexact
      exact ⟨name, hname, ownStem_pattern (exact_of_maps hname hexact).1⟩

/-! ## A dump of release groups -/

/-- One file, named as the web service spells its entity. -/
def groupsOnly : DumpDirectory where
  root := "/musicbrainz-data/20260101-000000"
  isDir := true
  present name := name == "release_group.jsonl.xz"
  listing := .ok ["release_group.jsonl.xz"]

/-- The file of the release groups is read as releases. -/
theorem groups_read_as_releases : ¬ Unconfused groupsOnly := by
  intro h
  have hmaps : groupsOnly.Maps .releases "release_group.jsonl.xz" :=
    maps_iff_discoverEntity.mpr (by decide +kernel)
  exact absurd (h.groups _ hmaps) (by decide +kernel)

/-! ## After a download -/

theorem discover_of_hasExact (hexact : ∀ dt, dir.hasExact dt = true) :
    ∃ nameOf : DataType → String, dir.discover = .ok (mbEntities.map fun dt => (dt, nameOf dt)) ∧
      ∀ dt, nameOf dt ∈ mbFilePatterns dt ∧ dir.present (nameOf dt) = true := by
  choose nameOf hname using fun dt => maps_of_exact (hexact dt)
  have hfound : (mbEntities.filterMap fun dt =>
      (discoverEntity dir.present dir.listed dt).map fun name => (dt, name)) =
        mbEntities.map fun dt => (dt, nameOf dt) := by
    rw [← List.filterMap_eq_map]
    refine List.filterMap_congr fun dt _ => ?_
    rw [maps_iff_discoverEntity.mp (hname dt)]
    rfl
  refine ⟨nameOf, ?_, fun dt => exact_of_maps (hname dt) (hexact dt)⟩
  unfold DumpDirectory.discover discoverMbDumpFiles
  unfold DumpDirectory.listed at hfound
  cases hlisting : dir.listing with
  | ok names =>
    simp only [hlisting] at hfound ⊢
    rw [hfound]
    rfl
  | error e =>
    simp only [hlisting] at hfound ⊢
    rw [hfound]
    rfl

/-- What has been downloaded is found: once a download has returned without an error, whatever
happens to the process and however the directory can be listed, as long as the power is not lost,
discovery finds a file of its own for every entity, and a file under a final name is a whole
verified extraction that is durable. -/
theorem download_is_discovered (env : DownloadExternals) (d t : Downloader)
    (h : (Downloader.machine env).Reachable d) (r : MbDownloadResult)
    (hok : d.outcome = some (.ok r)) (labels : List Downloader.Label)
    (hrun : (Downloader.machine env).run d labels = some t)
    (hlabels : ∀ label ∈ labels, label.isPowerLoss = false) (root : String)
    (listing : Except Error (List String)) :
    ∃ nameOf : DataType → String, nameOf.Injective ∧
      discoverMbDumpFiles root t.present listing = .ok (mbEntities.map fun dt => (dt, nameOf dt)) ∧
      ∀ dt, nameOf dt ∈ mbFilePatterns dt ∧ ∃ inode, t.volume.visible (nameOf dt) = some inode ∧
        (nameOf dt = outName dt → t.volume.synced inode = true ∧
          ∃ x ∈ t.verified, x.entity = dt ∧ x.content = t.volume.data inode ∧
            Downloader.Genuine env x) := by
  have hinv := Downloader.inv_reachable (h.run hrun)
  have hexact : ∀ dt, DumpDirectory.hasExact ⟨root, t.isDir, t.present, listing⟩ dt = true := fun dt =>
    hasExact_of_entity (Downloader.complete_run hrun hlabels ((Downloader.inv_reachable h).1.outcome r hok dt))
  obtain ⟨nameOf, hdiscover, hnames⟩ := discover_of_hasExact hexact
  refine ⟨nameOf, fun dt dt' heq => ?_, hdiscover, fun dt => ⟨(hnames dt).1, ?_⟩⟩
  · have hfits : fuzzyMatch dt (nameOf dt') = true :=
      heq ▸ (fuzzyMatch_pattern (hnames dt).1).mpr rfl
    exact (fuzzyMatch_pattern (hnames dt').1).mp hfits
  · obtain ⟨inode, hinode⟩ := Option.isSome_iff_exists.mp (hnames dt).2
    refine ⟨inode, hinode, fun hname => ?_⟩
    rw [hname] at hinode
    obtain ⟨-, hsynced, x, hx, hentity, hcontent⟩ :=
      hinv.1.volume.good _ t.volume.outcome_visible dt inode hinode
    exact ⟨hsynced, x, hx, hentity, hcontent, hinv.1.genuine x hx⟩

/-- The process is killed right after the download, and the directory cannot be listed. -/
theorem download_is_discovered_unlisted : ∃ d t, ∃ nameOf : DataType → String,
    (Downloader.machine archiveExternals).run artistMissing repairedRun = some d ∧
    (Downloader.machine archiveExternals).run d [.kill] = some t ∧ nameOf.Injective ∧
    discoverMbDumpFiles "/musicbrainz-data/20260101-000000" t.present
      (.error ["Permission denied"]) = .ok (mbEntities.map fun dt => (dt, nameOf dt)) := by
  obtain ⟨d, r, hrun, hreachable, houtcome, -⟩ := repaired_reachable
  obtain ⟨nameOf, hinjective, hdiscover, -⟩ := download_is_discovered archiveExternals d d.kill
    hreachable r houtcome [.kill] rfl (by simp [Downloader.Label.isPowerLoss])
    "/musicbrainz-data/20260101-000000" (.error ["Permission denied"])
  exact ⟨d, d.kill, nameOf, hrun, rfl, hinjective, hdiscover⟩

end MusicbrainzIngestion
