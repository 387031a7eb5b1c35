import MusicbrainzIngestion.Downloader.Trust

/-! What a name in the version directory is worth: a final name is a whole, verified and
durable extraction for as long as it exists, whatever happens on the way there, a
temporary name is nothing, and a version is reported only when all four final names exist. -/

namespace MusicbrainzIngestion
open Base

namespace Downloader

/-! ## A final name stays -/

/-- What a step does to the directory, a power loss apart. -/
inductive Touched (vol : Volume String (List UInt8)) : Volume String (List UInt8) → Prop where
  | same : Touched vol vol
  | remove (dt : DataType) : Touched vol (vol.remove (tmpDownloadName (outName dt)))
  | create (dt : DataType) : Touched vol (vol.create (tmpDownloadName (outName dt)) [])
  | write (inode : Nat) (data : List UInt8) : Touched vol (vol.write inode data)
  | fsync (inode : Nat) : Touched vol (vol.fsync inode)
  | rename (dt : DataType) : Touched vol (vol.rename (tmpDownloadName (outName dt)) (outName dt))
  | fsyncDir : Touched vol vol.fsyncDir

variable {env : DownloadExternals} {d t : Downloader}

theorem Touched.complete {vol vol' : Volume String (List UInt8)} (h : Touched vol vol')
    {dt : DataType} (hc : entityIsComplete (fun name => (vol.visible name).isSome) dt = true) :
    entityIsComplete (fun name => (vol'.visible name).isSome) dt = true := by
  cases h with
  | same => exact hc
  | remove k => exact (complete_congr (fun _ hn => visible_remove_final vol k hn) dt).trans hc
  | create k => exact (complete_congr (fun _ hn => visible_create_final vol k hn) dt).trans hc
  | write inode data => exact hc
  | fsync inode => exact hc
  | rename k => exact complete_rename vol k dt hc
  | fsyncDir => exact hc

theorem touched_removeTmp (d : Downloader) (job : Acquisition) (removed : Bool) :
    Touched d.volume (d.removeTmp job removed).volume := by
  cases removed with
  | false => exact .same
  | true => exact .remove job.entity

@[simp] theorem volume_retry (d : Downloader) (sums : String) (job : Acquisition) (e : Error) :
    (d.retry sums job e).volume = d.volume := by
  unfold retry
  split <;> rfl

def Label.isPowerLoss : Label → Bool
  | .powerLoss _ _ _ => true
  | _ => false

theorem touched_move {label : Label} (hmove : Move env d label t)
    (hlabel : label.isPowerLoss = false) : Touched d.volume t.volume := by
  cases hmove with
  | prepares | discards => exact touched_removeTmp d _ _
  | requestFails =>
    rw [volume_retry]
    exact .same
  | cleans =>
    rw [volume_retry]
    exact touched_removeTmp d _ _
  | @encoderFails sums job => exact .create job.entity
  | @creates sums job => exact .create job.entity
  | writeFails | writes | finishFails | finishes => exact .write _ _
  | syncs => exact .fsync _
  | renames => exact .rename _
  | syncsDir => exact .fsyncDir
  | losesPower | losesDir => cases hlabel
  | begins | indexFails | indexed | current | outdated | sumsFail | summed | makeDirFails | makesDir
  | downloaded | skips | noChecksum | acquires | unreadable | responds | scans | createFails
  | readFails | readsEnd | syncFails | drainFails | mismatches | verifies | renameFails | leavesDir
  | panics | killed => exact .same

/-- Only a power loss takes a final name away again. -/
theorem complete_run {labels : List Label} (hrun : (machine env).run d labels = some t)
    (hlabels : ∀ label ∈ labels, label.isPowerLoss = false) {dt : DataType}
    (hc : entityIsComplete d.present dt = true) : entityIsComplete t.present dt = true :=
  Machine.run_preserves (machine env) (P := fun d => entityIsComplete d.present dt = true)
    (fun _ _ _ hlabel hc hstep => (touched_move (step_move hstep) hlabel).complete hc)
    ((machine env).along_of_labels hlabels d) hc hrun

/-- The entity whose tarball a step requests. -/
def requested (d : Downloader) : Label → Option DataType
  | .request _ =>
    match d.phase with
    | .acquiring _ job .requesting => some job.entity
    | _ => none
  | _ => none

theorem requested_missing (h : Inv env d) {label : Label} {dt : DataType}
    (hr : d.requested label = some dt) : entityIsComplete d.present dt = false := by
  obtain ⟨-, hp⟩ := h
  unfold PhaseOk at hp
  unfold requested at hr
  split at hr
  · split at hr
    · next hphase =>
      rw [hphase] at hp
      cases hr
      exact hp.1.entity
    · cases hr
  · cases hr

end Downloader

/-! ## A temporary name is nothing -/

theorem not_tmp_of_endsWith {name suffix : String} (h : Text.endsWith name suffix = true)
    (hlast : suffix.toList.getLast? ≠ some 'p') (hne : suffix.toList ≠ []) :
    Text.endsWith name ".tmp" = false := by
  refine Bool.eq_false_iff.mpr fun htmp => hlast ?_
  have hp : ".tmp".toList.getLast? = some 'p' := by decide
  rw [← Text.getLast?_of_endsWith h hne, Text.getLast?_of_endsWith htmp (by decide), hp]

theorem mbFilePatterns_not_tmp {dt : DataType} {name : String} (h : name ∈ mbFilePatterns dt) :
    Text.endsWith name ".tmp" = false := by
  have hall : ∀ dt, ∀ name ∈ mbFilePatterns dt, Text.endsWith name ".tmp" = false := by
    intro dt
    cases dt <;> decide
  exact hall dt name h

theorem discoverEntity_not_tmp {present : String → Bool} {entries : List String} {dt : DataType}
    {name : String} (h : discoverEntity present entries dt = some name) :
    Text.endsWith name ".tmp" = false := by
  unfold discoverEntity at h
  rcases Option.or_eq_some_iff.mp h with h | ⟨-, h⟩
  · exact mbFilePatterns_not_tmp (List.mem_of_find?_eq_some h)
  · have hfuzzy := List.find?_some h
    unfold fuzzyMatch at hfuzzy
    obtain ⟨-, hsuffix⟩ := Bool.and_eq_true_iff.mp hfuzzy
    rcases Bool.or_eq_true_iff.mp hsuffix with hsuffix | hsuffix
    · exact not_tmp_of_endsWith hsuffix (by decide) (by decide)
    · exact not_tmp_of_endsWith hsuffix (by decide) (by decide)

theorem discoverMbDumpFiles_not_tmp {root : String} {present : String → Bool}
    {listing : Except Error (List String)} {found : List (DataType × String)}
    (h : discoverMbDumpFiles root present listing = .ok found) {dt : DataType} {name : String}
    (hn : (dt, name) ∈ found) : Text.endsWith name ".tmp" = false := by
  unfold discoverMbDumpFiles at h
  dsimp only at h
  split at h
  · cases h
  · cases h
    obtain ⟨dt', -, hdt'⟩ := List.mem_filterMap.mp hn
    obtain ⟨name', hname', heq⟩ := Option.map_eq_some_iff.mp hdt'
    cases heq
    exact discoverEntity_not_tmp hname'

theorem entityIsComplete_off_tmp {present present' : String → Bool}
    (h : ∀ name, Text.endsWith name ".tmp" = false → present' name = present name) (dt : DataType) :
    entityIsComplete present' dt = entityIsComplete present dt := by
  have hbare : Text.endsWith (bareName dt) ".tmp" = false := by cases dt <;> decide
  have hout : Text.endsWith (outName dt) ".tmp" = false := by cases dt <;> decide
  unfold entityIsComplete
  rw [h _ hbare, h _ hout]

theorem isVersionComplete_off_tmp {present present' : String → Bool}
    (h : ∀ name, Text.endsWith name ".tmp" = false → present' name = present name) (isDir : Bool) :
    isVersionComplete isDir present' = isVersionComplete isDir present := by
  unfold isVersionComplete
  rw [funext fun dt => entityIsComplete_off_tmp h dt]

/-! ## The downloader -/

/-- Whatever the responses, the faults, the kills and the power losses: a final name is a whole
verified extraction that is durable, nothing rests on a temporary name, and a run that returns
has all four entities and has requested none that was there before. -/
theorem downloader_trust (env : DownloadExternals) (d : Downloader)
    (h : (Downloader.machine env).Reachable d) :
    (∀ dt inode, d.volume.visible (outName dt) = some inode → d.volume.synced inode = true ∧
      ∃ x ∈ d.verified, x.entity = dt ∧ x.content = d.volume.data inode ∧
        Downloader.Genuine env x) ∧
    (∀ sums job inode, d.phase = .acquiring sums job (.renaming inode) →
      d.volume.visible (tmpDownloadName (outName job.entity)) = some inode ∧
      d.volume.synced inode = true) ∧
    (∀ r, d.outcome = some (.ok r) → ∀ dt, entityIsComplete d.present dt = true) ∧
    (∀ labels t, (Downloader.machine env).run d labels = some t →
      (∀ label ∈ labels, label.isPowerLoss = false) → ∀ dt, entityIsComplete d.present dt = true →
        ∀ label, t.requested label ≠ some dt) ∧
    (∀ present : String → Bool,
      (∀ name, Text.endsWith name ".tmp" = false → present name = d.present name) →
        isVersionComplete d.isDir present = isVersionComplete d.isDir d.present ∧
        ∀ dt, entityIsComplete present dt = entityIsComplete d.present dt) ∧
    (∀ root listing found, discoverMbDumpFiles root d.present listing = .ok found →
      ∀ dt name, (dt, name) ∈ found → Text.endsWith name ".tmp" = false) := by
  have hinv := Downloader.inv_reachable h
  refine ⟨fun dt inode hi => ?_, fun sums job inode hphase => ?_, hinv.1.outcome,
    fun labels t hrun hlabels dt hc label hr => ?_, fun present hp => ?_,
    fun root listing found hf dt name hn => ?_⟩
  · obtain ⟨-, hsynced, x, hx, hentity, hcontent⟩ :=
      hinv.1.volume.good _ d.volume.outcome_visible dt inode hi
    exact ⟨hsynced, x, hx, hentity, hcontent, hinv.1.genuine x hx⟩
  · have hp := hinv.2
    unfold Downloader.PhaseOk at hp
    rw [hphase] at hp
    exact ⟨hp.2.1, hp.2.2.1⟩
  · have hmissing := Downloader.requested_missing (Downloader.inv_reachable (h.run hrun)) hr
    rw [Downloader.complete_run hrun hlabels hc] at hmissing
    cases hmissing
  · exact ⟨isVersionComplete_off_tmp hp _, entityIsComplete_off_tmp hp⟩
  · exact discoverMbDumpFiles_not_tmp hf hn

/-! ## One entity, after a broken response and a power loss -/

section OneEntity

/-- `mbdump/artist`, `mbdump/label`, `mbdump/release-group` and `mbdump/release` with one line each,
as tar and xz write them. -/
def archive : List UInt8 := [
  253, 55, 122, 88, 90, 0, 0, 4, 230, 214, 180, 70, 2, 0, 33, 1, 28, 0, 0, 0, 16, 207, 88,
  204, 224, 39, 255, 0, 151, 93, 0, 54, 152, 136, 191, 168, 56, 201, 28, 93, 193, 227, 49, 56,
  73, 248, 217, 196, 218, 121, 167, 23, 227, 154, 41, 68, 112, 194, 2, 49, 228, 95, 221, 145,
  69, 95, 42, 135, 194, 136, 214, 169, 2, 247, 100, 34, 221, 203, 101, 154, 13, 232, 254, 0,
  187, 181, 176, 57, 21, 65, 123, 30, 206, 146, 0, 90, 254, 37, 248, 177, 99, 134, 49, 67, 14,
  151, 81, 66, 248, 13, 172, 2, 220, 35, 132, 173, 93, 233, 185, 248, 107, 41, 60, 199, 91,
  105, 190, 237, 254, 28, 152, 249, 141, 26, 66, 187, 236, 212, 58, 132, 85, 53, 52, 95, 213,
  49, 191, 184, 150, 113, 217, 133, 220, 33, 52, 47, 217, 133, 24, 131, 235, 242, 122, 108,
  148, 6, 223, 163, 72, 24, 193, 225, 5, 36, 47, 134, 110, 158, 198, 222, 98, 0, 0, 0, 231,
  135, 12, 195, 218, 190, 134, 6, 0, 1, 179, 1, 128, 80, 0, 0, 61, 4, 142, 227, 177, 196, 103,
  251, 2, 0, 0, 0, 0, 4, 89, 90]

def archiveSha256 : String := "6ad8d47d51faf32297455aa8ac961cf9c28be51219647c7d96b98e1e67a2d64e"

/-- The line of each member. -/
def archiveLine : List UInt8 := "\x7b\"id\":\"1\"\x7d\n".toByteArray.data.toList

/-- The line as the encoder writes it. -/
def encodedLine : List UInt8 := [
  253, 55, 122, 88, 90, 0, 0, 4, 230, 214, 180, 70, 4, 192, 15, 11, 33, 1, 16, 0, 0, 0, 0, 0,
  0, 0, 0, 0, 254, 78, 31, 104, 1, 0, 10, 123, 34, 105, 100, 34, 58, 34, 49, 34, 125, 10, 0,
  0, 134, 246, 42, 97, 138, 133, 216, 248, 0, 1, 43, 11, 202, 145, 36, 193, 31, 182, 243, 125,
  1, 0, 0, 0, 0, 4, 89, 90]

def archiveExternals : DownloadExternals where
  entries response :=
    if response.bytes = archive then
      .ok (mbEntities.map fun dt => .ok ⟨.ok (targetSuffix dt), [.ok archiveLine]⟩)
    else .ok [.error response.failure.toList]
  xzEncode content := if content = archiveLine then encodedLine else content
  sha256Hex bytes := if bytes = archive then archiveSha256 else ""

def archiveSums : String := archiveSha256 ++ "  artist.tar.xz\n"

/-- The other three entities are there uncompressed. -/
def artistMissing : Downloader where
  volume := ⟨fun _ => [], fun _ => true, 1, fun name =>
    if name ∈ [DataType.labels, .releaseGroups, .releases].map bareName then some 0 else none, []⟩
  isDir := true
  phase := .idle
  verified := []
  outcome := none

def openRun : List Downloader.Label :=
  [.begin, .index none, .check, .sums (.ok archiveSums), .makeDir none, .nextEntity]

/-- The connection breaks in the first attempt and the power goes in the second; the temporary
file is left behind with something else in it. -/
def brokenRun : List Downloader.Label := openRun ++ [
  .request (.ok ⟨archive.take 100, some "connection reset by peer"⟩), .scan, .clean true,
  .prepare true, .request (.ok ⟨archive, none⟩), .scan, .create true true,
  .copy (encodedLine.take 12) false,
  .powerLoss true [.link (tmpDownloadName (outName .artists)) 1] fun _ => [0, 0, 0]]

def repairedRun : List Downloader.Label := brokenRun ++ openRun ++ [
  .request (.ok ⟨archive, none⟩), .scan, .create true true, .copy [] false, .copy [] false,
  .finish none, .sync false, .drain, .rename false, .syncDir true,
  .nextEntity, .nextEntity, .nextEntity, .nextEntity]

theorem repaired_reachable : ∃ d r,
    (Downloader.machine archiveExternals).run artistMissing repairedRun = some d ∧
    (Downloader.machine archiveExternals).Reachable d ∧ d.outcome = some (.ok r) ∧
    d.present "artist.jsonl.xz" = true := by
  have hdone : ((Downloader.machine archiveExternals).run artistMissing repairedRun).any (fun d =>
      d.outcome.any Except.isOk && d.present "artist.jsonl.xz") = true := by decide +kernel
  obtain ⟨d, hrun, hd⟩ := (Option.any_eq_true _ _).mp hdone
  obtain ⟨houtcome, hname⟩ := Bool.and_eq_true_iff.mp hd
  have hnone : ∀ dt, artistMissing.volume.durable (outName dt) = none ∧
      artistMissing.volume.durable (tmpDownloadName (outName dt)) = none := by
    intro dt
    cases dt <;> exact ⟨by decide, by decide⟩
  obtain ⟨outcome, houtcome, hok⟩ := (Option.any_eq_true _ _).mp houtcome
  cases outcome with
  | error e => cases hok
  | ok r =>
    exact ⟨d, r, hrun, ⟨artistMissing, repairedRun, ⟨rfl, rfl, rfl, rfl, hnone⟩,
      fun _ _ => trivial, hrun⟩, houtcome, hname⟩

theorem downloader_trust_repaired : ∃ d inode,
    (Downloader.machine archiveExternals).run artistMissing repairedRun = some d ∧
    (∀ dt, entityIsComplete d.present dt = true) ∧
    d.volume.visible "artist.jsonl.xz" = some inode ∧ d.volume.synced inode = true ∧
    ∃ x ∈ d.verified, x.entity = .artists ∧ x.content = d.volume.data inode ∧
      Downloader.Genuine archiveExternals x := by
  obtain ⟨d, r, hrun, hreachable, houtcome, hname⟩ := repaired_reachable
  obtain ⟨inode, hinode⟩ := Option.isSome_iff_exists.mp hname
  obtain ⟨hfinal, -, hcomplete, -⟩ := downloader_trust archiveExternals d hreachable
  exact ⟨d, inode, hrun, hcomplete r houtcome, hinode, hfinal .artists inode hinode⟩

end OneEntity

end MusicbrainzIngestion
