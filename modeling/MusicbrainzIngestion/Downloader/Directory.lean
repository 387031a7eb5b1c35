import MusicbrainzIngestion.Base.StagedDir
import MusicbrainzIngestion.DownloadTrust

/-! What the rest of the process sees of the downloader. It is a writer of a staged directory:
a dump file it published stays as it is until a power loss takes it away. And what is in the
file came from outside in full view: the checksums and the response were replies it got. -/

namespace MusicbrainzIngestion
open Base

/-! ## The member of an archive -/

def archivedFrom (dt : DataType) : List (Except Error TarEntry) → Option (List UInt8)
  | [] => none
  | .error _ :: _ => none
  | .ok entry :: rest =>
    match entry.path with
    | .error _ => none
    | .ok path =>
      if pathEndsWith path (targetSuffix dt) then readAll entry.chunks else archivedFrom dt rest

/-- The lines of the entity, as the archive in the response has them. -/
def archived (env : DownloadExternals) (dt : DataType) (response : Text.Stream) :
    Option (List UInt8) :=
  match env.entries response with
  | .error _ => none
  | .ok entries => archivedFrom dt entries

theorem extractedFrom_archived (env : DownloadExternals) (dt : DataType)
    (entries : List (Except Error TarEntry)) :
    extractedFrom env dt entries = (archivedFrom dt entries).map env.xzEncode := by
  induction entries with
  | nil => rfl
  | cons entry rest ih =>
    cases entry with
    | error e => rfl
    | ok entry =>
      simp only [extractedFrom, archivedFrom]
      cases entry.path with
      | error e => rfl
      | ok path =>
        dsimp only
        split
        · rfl
        · exact ih

/-- The extraction is the member, compressed anew. -/
theorem extracted_eq (env : DownloadExternals) (dt : DataType) (response : Text.Stream) :
    extracted env dt response = (archived env dt response).map env.xzEncode := by
  unfold extracted archived
  cases env.entries response with
  | error e => rfl
  | ok entries => exact extractedFrom_archived env dt entries

namespace Downloader

variable {env : DownloadExternals} {d t : Downloader} {l : Label}

/-! ## The writer -/

theorem visible_out_of_incomplete {dt : DataType} (h : entityIsComplete d.present dt = false) :
    d.volume.visible (outName dt) = none := by
  obtain ⟨-, hout⟩ := Bool.or_eq_false_iff.mp h
  exact Option.isSome_eq_false_iff.mp hout |> Option.isNone_iff_eq_none.mp

theorem work_removeTmp (d : Downloader) (job : Acquisition) (removed : Bool) :
    staging.Work d.volume (d.removeTmp job removed).volume := by
  cases removed with
  | false => exact .same
  | true => exact Staging.Work.remove job.entity

/-- Every step but a power loss is one of a writer. -/
theorem work_move (hmove : Move env d l t) (h : Inv env d) (hl : l.isPowerLoss = false) :
    staging.Work d.volume t.volume := by
  obtain ⟨-, hp⟩ := h
  unfold PhaseOk at hp
  cases hmove with
  | prepares | discards => exact work_removeTmp d _ _
  | requestFails =>
    rw [volume_retry]
    exact .same
  | cleans =>
    rw [volume_retry]
    exact work_removeTmp d _ _
  | @encoderFails sums job => exact Staging.Work.create job.entity []
  | @creates sums job => exact Staging.Work.create job.entity []
  | @writeFails sums job response inode chunks content written fault hphase =>
    rw [hphase] at hp
    exact Staging.Work.write (k := job.entity) hp.2.1 _
  | @writes sums job response inode chunk rest content written hphase =>
    rw [hphase] at hp
    exact Staging.Work.write (k := job.entity) hp.2.1 _
  | @finishFails sums job response inode content data e hphase =>
    rw [hphase] at hp
    exact Staging.Work.write (k := job.entity) hp.2.1 _
  | @finishes sums job response inode content hphase =>
    rw [hphase] at hp
    exact Staging.Work.write (k := job.entity) hp.2.1 _
  | syncs => exact .fsync _
  | @renames sums job inode hphase =>
    rw [hphase] at hp
    exact Staging.Work.publish (k := job.entity) hp.2.1
      (visible_out_of_incomplete hp.1.entity)
  | syncsDir => exact .fsyncDir
  | losesPower | losesDir => cases hl
  | begins | indexFails | indexed | current | outdated | sumsFail | summed | makeDirFails | makesDir
  | downloaded | skips | noChecksum | acquires | unreadable | responds | scans | createFails
  | readFails | readsEnd | syncFails | drainFails | mismatches | verifies | renameFails | leavesDir
  | panics | killed => exact .same

/-- The directory of a downloader that found none of the dump files there. -/
structure Directory (env : DownloadExternals) (d : Downloader) : Prop where
  inv : Inv env d
  steady : staging.Steady d.volume
  free : ∀ dt, d.volume.Absent (bareName dt)

/-- The dump file of the entity. -/
def content (d : Downloader) (dt : DataType) : Option (List UInt8) := staging.content d.volume dt

theorem bareName_free (dt : DataType) :
    (∀ k, bareName dt ≠ staging.tmp k) ∧ ∀ k, bareName dt ≠ staging.final k :=
  ⟨bareName_ne_tmp dt, bareName_ne_outName dt⟩

theorem Directory.move (h : Directory env d) (hmove : Move env d l t) : Directory env t := by
  have hinv := inv_move hmove h.inv
  cases hl : l.isPowerLoss with
  | false =>
    have hwork := work_move hmove h.inv hl
    exact ⟨hinv, hwork.steady h.steady, fun dt =>
      hwork.absent (bareName_free dt).1 (bareName_free dt).2 (h.free dt)⟩
  | true =>
    cases hmove with
    | losesPower garbled hk =>
      exact ⟨hinv, Staging.Steady.powerLoss garbled, fun dt => (h.free dt).powerLoss hk garbled⟩
    | losesDir =>
      exact ⟨hinv, Staging.steady_emptied, fun dt => Volume.absent_emptied _ _⟩
    | _ => cases hl

/-- A dump file that is there stays as it is. -/
theorem Directory.content_kept (h : Directory env d) (hmove : Move env d l t)
    (hl : l.isPowerLoss = false) {dt : DataType} {bytes : List UInt8}
    (hc : d.content dt = some bytes) : t.content dt = some bytes :=
  (work_move hmove h.inv hl).content_kept h.inv.1.volume hc

/-- A power loss takes a dump file or leaves it as it was. -/
theorem Directory.content_lost (h : Directory env d) (hmove : Move env d l t)
    (hl : l.isPowerLoss = true) (dt : DataType) :
    t.content dt = none ∨ t.content dt = d.content dt := by
  cases hmove with
  | losesPower garbled hk =>
    exact Staging.content_powerLoss h.inv.1.volume h.steady hk garbled dt
  | losesDir => exact .inl rfl
  | _ => cases hl

theorem Directory.complete_iff (h : Directory env d) (dt : DataType) :
    entityIsComplete d.present dt = true ↔ (d.content dt).isSome = true := by
  have hbare : d.volume.visible (bareName dt) = none := h.free dt _ d.volume.outcome_visible
  unfold entityIsComplete present content Staging.content
  rw [hbare, Option.isSome_none, Bool.false_or, Option.isSome_map]
  rfl

/-- A dump file holds a verified extraction. -/
theorem Directory.content_verified (h : Directory env d) {dt : DataType} {bytes : List UInt8}
    (hc : d.content dt = some bytes) :
    ∃ x ∈ d.verified, x.entity = dt ∧ x.content = bytes ∧ Genuine env x := by
  obtain ⟨inode, hvisible, rfl⟩ := Option.map_eq_some_iff.mp hc
  obtain ⟨-, -, x, hx, hentity, hcontent⟩ :=
    h.inv.1.volume.good _ d.volume.outcome_visible dt inode hvisible
  exact ⟨x, hx, hentity, hcontent, h.inv.1.genuine x hx⟩

/-! ## The replies -/

/-- The response an attempt is reading. -/
def Stage.response : Stage → Option Text.Stream
  | .scanning response _ | .creating response _ | .copying response _ _ _
  | .finishing response _ _ | .syncing response _ | .draining response _ => some response
  | _ => none

section Heard

variable (Sums : String → Prop) (Response : Text.Stream → Prop)

def PhaseHeard : Phase → Prop
  | .makingDir sums | .entities sums _ => Sums sums
  | .acquiring sums _ stage => Sums sums ∧ ∀ response, stage.response = some response → Response response
  | _ => True

/-- What the downloader works with are replies it got. -/
structure Heard (d : Downloader) : Prop where
  verified : ∀ x ∈ d.verified, Sums x.sums ∧ Response x.response
  phase : PhaseHeard Sums Response d.phase

end Heard

variable {Sums Sums' : String → Prop} {Response Response' : Text.Stream → Prop}

theorem Heard.mono (h : Heard Sums Response d) (hs : ∀ sums, Sums sums → Sums' sums)
    (hr : ∀ response, Response response → Response' response) : Heard Sums' Response' d where
  verified x hx := ⟨hs _ (h.verified x hx).1, hr _ (h.verified x hx).2⟩
  phase := by
    have hp := h.phase
    unfold PhaseHeard at hp ⊢
    split at hp
    · exact hs _ hp
    · exact hs _ hp
    · exact ⟨hs _ hp.1, fun response hresponse => hr _ (hp.2 response hresponse)⟩
    · trivial

/-- An attempt that reads no response. -/
theorem phaseHeard_unread {sums : String} {job job' : Acquisition} {stage stage' : Stage}
    (h : PhaseHeard Sums Response (.acquiring sums job stage)) (hs : stage'.response = none) :
    PhaseHeard Sums Response (.acquiring sums job' stage') := by
  refine ⟨h.1, fun response hr => ?_⟩
  rw [hs] at hr
  cases hr

theorem response_scanned {dt : DataType} {response : Text.Stream}
    {entries : List (Except Error TarEntry)} {r : Text.Stream}
    (h : (scanned dt response entries).response = some r) : response = r := by
  unfold scanned at h
  split at h
  · cases h
  · cases h
  · split at h
    · cases h
    · split at h <;> cases h <;> rfl

theorem phaseHeard_retry {sums : String} {job : Acquisition} {stage : Stage}
    (h : PhaseHeard Sums Response (.acquiring sums job stage)) (d : Downloader) (e : Error) :
    PhaseHeard Sums Response (d.retry sums job e).phase := by
  unfold retry
  split
  · exact phaseHeard_unread h rfl
  · trivial

@[simp] theorem verified_retry (d : Downloader) (sums : String) (job : Acquisition) (e : Error) :
    (d.retry sums job e).verified = d.verified := by
  unfold retry
  split <;> rfl

@[simp] theorem verified_removeTmp (d : Downloader) (job : Acquisition) (removed : Bool) :
    (d.removeTmp job removed).verified = d.verified := by
  cases removed <;> rfl

theorem Heard.move (h : Heard Sums Response d) (hmove : Move env d l t)
    (hsums : ∀ sums, l = .sums (.ok sums) → Sums sums)
    (hresponse : ∀ response, l = .request (.ok response) → Response response) :
    Heard Sums Response t := by
  have hp := h.phase
  cases hmove with
  | begins | indexFails | indexed | current | outdated | sumsFail | makeDirFails | downloaded
  | noChecksum | panics | killed | losesPower | losesDir => exact ⟨h.verified, trivial⟩
  | summed => exact ⟨h.verified, hsums _ rfl⟩
  | makesDir hphase | skips hphase =>
    rw [hphase] at hp
    exact ⟨h.verified, hp⟩
  | acquires hphase =>
    rw [hphase] at hp
    exact ⟨h.verified, hp, fun _ hr => by cases hr⟩
  | prepares hphase | discards hphase =>
    rw [hphase] at hp
    refine ⟨fun x hx => h.verified x ?_, phaseHeard_unread hp rfl⟩
    simpa only [goto, verified_removeTmp] using hx
  | requestFails hphase =>
    rw [hphase] at hp
    exact ⟨by rw [verified_retry]; exact h.verified, phaseHeard_retry hp _ _⟩
  | cleans hphase =>
    rw [hphase] at hp
    refine ⟨?_, phaseHeard_retry hp _ _⟩
    rw [verified_retry, verified_removeTmp]
    exact h.verified
  | unreadable hphase | createFails hphase | encoderFails hphase | readFails hphase
  | writeFails hphase | finishFails hphase | syncFails hphase | drainFails hphase
  | mismatches hphase | renameFails hphase | renames hphase =>
    rw [hphase] at hp
    exact ⟨h.verified, phaseHeard_unread hp rfl⟩
  | responds hphase =>
    rw [hphase] at hp
    refine ⟨h.verified, hp.1, fun response hr => ?_⟩
    cases hr
    exact hresponse _ rfl
  | scans hphase =>
    rw [hphase] at hp
    refine ⟨h.verified, hp.1, fun response hr => hp.2 _ ?_⟩
    exact congrArg some (response_scanned hr)
  | creates hphase | readsEnd hphase | writes hphase | finishes hphase | syncs hphase =>
    rw [hphase] at hp
    exact ⟨h.verified, hp⟩
  | verifies hphase =>
    rw [hphase] at hp
    refine ⟨fun x hx => ?_, phaseHeard_unread hp rfl⟩
    rcases List.mem_append.mp hx with hx | hx
    · exact h.verified x hx
    · rw [List.mem_singleton.mp hx]
      exact ⟨hp.1, hp.2 _ rfl⟩
  | leavesDir hphase | syncsDir hphase =>
    rw [hphase] at hp
    exact ⟨h.verified, hp.1⟩

end Downloader

end MusicbrainzIngestion
