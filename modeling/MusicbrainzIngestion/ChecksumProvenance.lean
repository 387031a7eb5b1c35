import MusicbrainzIngestion.StateMarker.Fixed

/-! The checksum a file was processed from. A verification writes it into the download entry, the
start of the file's processing copies it from there, and nothing changes the copy until the
file is started again. Starting the download phase, or the download of the file, forgets
what was verified: the bytes are about to be replaced. -/

namespace MusicbrainzIngestion
open Base

namespace StateMarker

/-! ## From the verification to the start -/

namespace Operation

/-- The operation verifies bytes of the file. -/
def verifies (filename : String) : Operation → Bool
  | .fileBytesVerified f _ => decide (f = filename)
  | _ => false

/-- The operation starts the processing of the file. -/
def startsProcessing (filename : String) : Operation → Bool
  | .startFileProcessing f _ => decide (f = filename)
  | _ => false

/-- The operation replaces the download entry of the file, or drops it. -/
def forgets (filename : String) : Operation → Bool
  | .startDownload .. => true
  | .startFileDownload f _ => decide (f = filename)
  | _ => false

end Operation

/-- The checksum in the download entry of a file. -/
def verifiedChecksum (m : StateMarker) (filename : String) : Option String :=
  (m.download filename).bind (·.checksum)

theorem verifiedChecksum_of_phase {m m' : StateMarker} (h : m'.downloadPhase = m.downloadPhase)
    (f : String) : m'.verifiedChecksum f = m.verifiedChecksum f := by
  unfold verifiedChecksum download
  rw [h]

theorem verifiedChecksum_fileBytesVerified (m : StateMarker) (f checksum f' : String) :
    (m.fileBytesVerified f checksum).1.verifiedChecksum f' =
      if f' = f then (m.download f).map fun _ => checksum else m.verifiedChecksum f' := by
  rw [verifiedChecksum_of_phase (downloadPhase_fileBytesVerified m f checksum)]
  unfold verifiedChecksum
  rw [download_recordChecksum]
  split
  · cases m.download f <;> rfl
  · rfl

theorem verifiedChecksum_apply {m : StateMarker} {op : Operation} {f checksum : String}
    (hverifies : op.verifies f = false) (hforgets : op.forgets f = false)
    (h : m.verifiedChecksum f = some checksum) : (m.apply op).verifiedChecksum f = some checksum := by
  cases op with
  | startDownload => cases hforgets
  | startFileDownload g now =>
    have hne : f ≠ g := fun he => by simp [Operation.forgets, he] at hforgets
    rw [← h]
    unfold verifiedChecksum
    rw [apply, download_startFileDownload, if_neg hne]
  | fileDownloaded g bytes now =>
    rw [← h]
    unfold verifiedChecksum at h ⊢
    rw [apply, download_fileDownloaded]
    split
    · next heq =>
      subst heq
      cases hentry : m.download f with
      | none => simp [hentry] at h
      | some status => rfl
    · rfl
  | fileBytesVerified g checksum' =>
    have hne : f ≠ g := fun he => by simp [Operation.verifies, he] at hverifies
    rw [apply, verifiedChecksum_fileBytesVerified, if_neg hne, h]
  | completeDownload | startProcessing | completeProcessing | completeExtraction | saveLoad => exact h
  | startFileProcessing g now =>
    exact (verifiedChecksum_of_phase (downloadPhase_startFileProcessing m g now) f).trans h
  | updateFileProgress g records messages batches now =>
    exact (verifiedChecksum_of_phase (downloadPhase_updateFileProgress m g records messages batches
      now) f).trans h
  | completeFileProcessing g records now =>
    exact (verifiedChecksum_of_phase (downloadPhase_completeFileProcessing m g records now) f).trans h

theorem Fixed.SameTables.verifiedChecksum {m m' : StateMarker} (h : Fixed.SameTables m m')
    (f : String) : m'.verifiedChecksum f = m.verifiedChecksum f := by
  unfold StateMarker.verifiedChecksum download
  rw [h.downloads]

/-! ## From the start on -/

/-- The status of the file, if there is one, was computed from the bytes of the checksum. -/
def ComputedFrom (f checksum : String) (m : StateMarker) : Prop :=
  ∀ status, m.progress f = some status → status.sourceChecksum = some checksum

theorem ComputedFrom.fileBytesVerified {m : StateMarker} {f checksum : String}
    (h : m.ComputedFrom f checksum) (g other : String) :
    (m.fileBytesVerified g other).1.ComputedFrom f checksum := by
  rw [fileBytesVerified_eq]
  split
  · exact h
  · intro status hstatus
    unfold progress at hstatus
    rw [progressByFile_requeue] at hstatus
    by_cases hf : f = g
    · rw [hf, AList.lookup_erase] at hstatus
      cases hstatus
    · rw [AList.lookup_erase_ne hf] at hstatus
      exact h status hstatus

theorem ComputedFrom.apply {m : StateMarker} {op : Operation} {f checksum : String}
    (hstarts : op.startsProcessing f = false) (h : m.ComputedFrom f checksum) :
    (m.apply op).ComputedFrom f checksum := by
  cases op with
  | startDownload | startFileDownload | fileDownloaded | completeDownload | startProcessing
  | completeProcessing | completeExtraction | saveLoad => exact h
  | fileBytesVerified g other => exact h.fileBytesVerified g other
  | startFileProcessing g now =>
    have hne : f ≠ g := fun he => by simp [Operation.startsProcessing, he] at hstarts
    intro status hstatus
    rw [StateMarker.apply, progress_startFileProcessing, if_neg hne] at hstatus
    exact h status hstatus
  | updateFileProgress g records messages batches now =>
    intro status hstatus
    rw [StateMarker.apply, progress_updateFileProgress] at hstatus
    split at hstatus
    · next heq =>
      obtain ⟨before, hbefore, rfl⟩ := Option.map_eq_some_iff.mp hstatus
      exact h before (heq ▸ hbefore)
    · exact h status hstatus
  | completeFileProcessing g records now =>
    intro status hstatus
    rw [StateMarker.apply, progress_completeFileProcessing] at hstatus
    split at hstatus
    · next heq =>
      obtain ⟨before, hbefore, rfl⟩ := Option.map_eq_some_iff.mp hstatus
      exact h before (heq ▸ hbefore)
    · exact h status hstatus

theorem ComputedFrom.of_sameTables {m m' : StateMarker} {f checksum : String}
    (h : m.ComputedFrom f checksum) (htables : Fixed.SameTables m m') :
    m'.ComputedFrom f checksum := by
  intro status hstatus
  unfold progress at hstatus
  rw [htables.progress] at hstatus
  exact h status hstatus

theorem computedFrom_startFileProcessing {m : StateMarker} {f checksum : String} (now : DateTime)
    (h : m.verifiedChecksum f = some checksum) :
    (m.startFileProcessing f now).ComputedFrom f checksum := by
  intro status hstatus
  rw [progress_startFileProcessing, if_pos rfl] at hstatus
  cases hstatus
  exact h

theorem processedChecksum_of_computedFrom {m : StateMarker} {f checksum : String}
    (h : m.ComputedFrom f checksum) (hcompleted : m.fileCompleted f = true) :
    m.processedChecksum f = some checksum := by
  unfold fileCompleted at hcompleted
  unfold processedChecksum
  cases hstatus : m.progress f with
  | none => simp [hstatus] at hcompleted
  | some status =>
    rw [hstatus] at hcompleted
    simp only [of_decide_eq_true hcompleted, if_true]
    exact h status hstatus

/-! ## The next verification -/

/-- The file is queued again: nothing of it is left in the totals, which are the sums over the
files in 64 bits, and the version is not over. -/
structure Requeued (build : Build) (m m' : StateMarker) (f : String) : Prop where
  pending : ∀ allFiles, f ∈ allFiles → f ∈ m'.pendingFiles allFiles
  records : m'.processingPhase.recordsExtracted =
    Table.sumBy FileProcessingStatus.recordsExtracted m'.processingPhase.progressByFile % 2 ^ 64
  messages : m'.publishingPhase.messagesPublished =
    Table.sumBy FileProcessingStatus.messagesPublished m'.processingPhase.progressByFile % 2 ^ 64
  batches : m'.publishingPhase.batchesSent =
    Table.sumBy FileProcessingStatus.batchesSent m'.processingPhase.progressByFile % 2 ^ 64
  fit : build = .checked → Fixed.TotalsFit m'
  processed : m.processingPhase.filesProcessed = m.completedFileCount →
    m'.processingPhase.filesProcessed = m'.completedFileCount
  decision : m'.shouldProcess ≠ .skip

/-- The file is as if it had been processed from the bytes of the checksum: other bytes queue it
again, and the same bytes change nothing but the checksum in its download entry. -/
structure Provenance (build : Build) (m : StateMarker) (f checksum : String) : Prop where
  other : ∀ b, b ≠ checksum → ∃ m', Fixed.fileBytesVerified build m f b = some (m', true) ∧
    Requeued build m m' f
  same : Fixed.fileBytesVerified build m f checksum = some (m.recordChecksum f checksum, false)

/-- The checksum is the one the file was last verified with before its processing was last
started. -/
def LastVerified (f checksum : String) (ops : List Operation) : Prop :=
  ∃ before between now after,
    ops = before ++ .fileBytesVerified f checksum :: between ++ .startFileProcessing f now :: after ∧
    (∀ op ∈ between, op.verifies f = false) ∧ ∀ op ∈ after, op.startsProcessing f = false

theorem overall_reopen (m : StateMarker) : m.reopen.summary.overallStatus ≠ .completed := by
  unfold reopen
  dsimp only
  by_cases h : m.summary.overallStatus = .completed <;>
    by_cases hp : m.processingPhase.status = .completed <;> simp [h, hp]

theorem totals_reopen (m : StateMarker) :
    m.reopen.processingPhase.recordsExtracted = m.processingPhase.recordsExtracted ∧
      m.reopen.processingPhase.filesProcessed = m.processingPhase.filesProcessed ∧
      m.reopen.publishingPhase = m.publishingPhase := by
  unfold reopen
  dsimp only
  split <;> split <;> exact ⟨rfl, rfl, rfl⟩

/-- The marker without the file, before its totals are taken. -/
def dequeued (m : StateMarker) (f checksum : String) : StateMarker :=
  ((m.recordChecksum f checksum).dropProgress f).setFileType f .pending

theorem processingPhase_dequeued (m : StateMarker) (f checksum : String) :
    (m.dequeued f checksum).processingPhase = { m.processingPhase with
      progressByFile := m.processingPhase.progressByFile.erase f
      filesProcessed := m.processingPhase.filesProcessed - 1 } :=
  processingPhase_setFileType _ _ _

theorem requeued_dequeued {build : Build} {m : StateMarker} {f : String}
    (hcompleted : m.fileCompleted f = true) (hfit : build = .checked → Fixed.TotalsFit m)
    (checksum : String) : Requeued build m (Fixed.wrapTotals (m.dequeued f checksum)).reopen f := by
  have hphase := processingPhase_dequeued m f checksum
  have hprogress : (Fixed.wrapTotals (m.dequeued f checksum)).reopen.processingPhase.progressByFile =
      m.processingPhase.progressByFile.erase f := by
    rw [progressByFile_reopen]
    exact congrArg ProcessingPhase.progressByFile hphase
  obtain ⟨hrecords, hprocessed, hpublishing⟩ := totals_reopen (Fixed.wrapTotals (m.dequeued f checksum))
  constructor
  case pending =>
    intro allFiles hf
    refine List.mem_filter.mpr ⟨hf, ?_⟩
    unfold fileCompleted progress
    rw [hprogress, AList.lookup_erase]
    rfl
  case records =>
    rw [hrecords, progressByFile_reopen]
    rfl
  case messages =>
    rw [hpublishing, progressByFile_reopen]
    rfl
  case batches =>
    rw [hpublishing, progressByFile_reopen]
    rfl
  case fit => exact fun hb => (hfit hb).erase hprogress
  case processed =>
    intro hcount
    have hless : m.completedFileCount = 1 +
        (Fixed.wrapTotals (m.dequeued f checksum)).reopen.completedFileCount := by
      rw [completedFileCount_eq m f, hcompleted]
      unfold completedFileCount
      rw [hprogress, Table.countP_values, Bool.toNat_true]
    rw [hprocessed, show (Fixed.wrapTotals (m.dequeued f checksum)).processingPhase.filesProcessed =
      m.processingPhase.filesProcessed - 1 from congrArg ProcessingPhase.filesProcessed hphase]
    omega
  case decision => exact fun hskip => overall_reopen _ (overall_of_skip hskip)

theorem provenance_of_processedChecksum {build : Build} {m : StateMarker} {f checksum : String}
    (h : m.processedChecksum f = some checksum) (hcompleted : m.fileCompleted f = true)
    (hfit : build = .checked → Fixed.TotalsFit m) : Provenance build m f checksum := by
  constructor
  · intro b hb
    refine ⟨_, ?_, requeued_dequeued hcompleted hfit b⟩
    have hdequeued : build = .checked → Fixed.TotalsFit (m.dequeued f b) := fun hbuild =>
      (hfit hbuild).erase (congrArg ProcessingPhase.progressByFile (processingPhase_dequeued m f b))
    unfold Fixed.fileBytesVerified
    rw [h, Option.all_some, if_neg (by simpa using Ne.symm hb)]
    show (Fixed.syncPhaseTotals build (m.dequeued f b)).bind (fun m => some (m.reopen, true)) = _
    rw [Fixed.syncPhaseTotals_of_fits hdequeued, Option.bind_some]
  · unfold Fixed.fileBytesVerified
    rw [h, Option.all_some, if_pos (by simp)]

end StateMarker

open StateMarker in
/-- A file that was verified with an entry in the download table, whose download was not started
again before its last start of processing, and that is completed, is traced to the bytes of
that verification. -/
theorem provenance_of_verified (build : Build) (w : Nat) (m mid m' : StateMarker)
    (f checksum : String) (now : DateTime) (before between after : List Operation)
    (hbefore : Fixed.applyAll build w m before = some mid)
    (hentry : (mid.download f).isSome)
    (hlast : ∀ op ∈ between, op.verifies f = false)
    (hkept : ∀ op ∈ between, op.forgets f = false)
    (hstart : ∀ op ∈ after, op.startsProcessing f = false)
    (hrun : Fixed.applyAll build w m (before ++ .fileBytesVerified f checksum :: between ++
      .startFileProcessing f now :: after) = some m')
    (hcompleted : m'.fileCompleted f) : Provenance build m' f checksum := by
  have hops : before ++ Operation.fileBytesVerified f checksum :: between ++
      .startFileProcessing f now :: after =
    before ++ ([.fileBytesVerified f checksum] ++ (between ++ ([.startFileProcessing f now] ++
      after))) := by simp
  rw [hops, Fixed.applyAll_append, hbefore, Option.bind_some, Fixed.applyAll_append] at hrun
  obtain ⟨verified, hverified, hrun⟩ := Option.bind_eq_some_iff.mp hrun
  rw [Fixed.applyAll_append] at hrun
  obtain ⟨kept, hbetween, hrun⟩ := Option.bind_eq_some_iff.mp hrun
  have hchecksum : kept.verifiedChecksum f = some checksum := by
    refine Fixed.applyAll_invariant (P := fun m => m.verifiedChecksum f = some checksum)
      (fun m op m' hop h happly => ?_) ?_ hbetween
    · rw [(Fixed.sameTables_apply happly).verifiedChecksum]
      exact verifiedChecksum_apply (hlast op hop) (hkept op hop) h
    · rw [Fixed.applyAll_cons] at hverified
      obtain ⟨after', happly, hnil⟩ := Option.bind_eq_some_iff.mp hverified
      cases hnil
      obtain ⟨status, hstatus⟩ := Option.isSome_iff_exists.mp hentry
      rw [(Fixed.sameTables_apply happly).verifiedChecksum, StateMarker.apply,
        verifiedChecksum_fileBytesVerified, if_pos rfl, hstatus, Option.map_some]
  have hafter : Fixed.applyAll build w (kept.startFileProcessing f now) after = some m' := hrun
  have hfinal : m'.ComputedFrom f checksum ∧
      (build = .checked → m'.fileCompleted f = true → Fixed.TotalsFit m') := by
    refine Fixed.applyAll_invariant (P := fun m => m.ComputedFrom f checksum ∧
        (build = .checked → m.fileCompleted f = true → Fixed.TotalsFit m))
      (fun m op m' hop h happly => ⟨?_, ?_⟩) ⟨?_, ?_⟩ hafter
    · exact (h.1.apply (hstart op hop)).of_sameTables (Fixed.sameTables_apply happly)
    · rintro rfl
      exact Fixed.totalsFit_of_completed (h.2 rfl) happly
    · exact computedFrom_startFileProcessing now hchecksum
    · intro _ hdone
      simp [fileCompleted, progress_startFileProcessing] at hdone
  exact provenance_of_processedChecksum (processedChecksum_of_computedFrom hfinal.1 hcompleted)
    hcompleted fun hb => hfinal.2 hb hcompleted

/-! ## One dump file -/

section Verified
open StateMarker

/-- Downloaded and verified, then processed. -/
def verifiedThenProcessed (between : List Operation) : List Operation :=
  [.startDownload 1 0, .startFileDownload "artist.jsonl.xz" 1,
    .fileDownloaded "artist.jsonl.xz" 1024 2] ++
  .fileBytesVerified "artist.jsonl.xz" "aa" :: between ++
  .startFileProcessing "artist.jsonl.xz" 5 :: [.completeFileProcessing "artist.jsonl.xz" 500 6]

theorem provenance_of_verified_artist :
    ∃ m', Fixed.applyAll .checked 64 (.new "20260101" 0)
      (verifiedThenProcessed [.completeDownload 3, .startProcessing 1 4]) = some m' ∧
      Provenance .checked m' "artist.jsonl.xz" "aa" := by
  refine ⟨_, rfl, provenance_of_verified .checked 64 (.new "20260101" 0) _ _ _ _ 5
    [.startDownload 1 0, .startFileDownload "artist.jsonl.xz" 1,
      .fileDownloaded "artist.jsonl.xz" 1024 2]
    [.completeDownload 3, .startProcessing 1 4] [.completeFileProcessing "artist.jsonl.xz" 500 6]
    rfl (by decide +kernel) (by decide) (by decide) (by decide) rfl (by decide +kernel)⟩

/-- The download of the file is started again before it is processed: other bytes than the ones
verified leave it completed. -/
theorem provenance_forgotten :
    let ops := verifiedThenProcessed [.startFileDownload "artist.jsonl.xz" 3]
    LastVerified "artist.jsonl.xz" "aa" ops ∧ ∀ build, ∃ m,
      Fixed.applyAll build 64 (.new "20260101" 0) ops = some m ∧
      m.fileCompleted "artist.jsonl.xz" = true ∧
      (Fixed.fileBytesVerified build m "artist.jsonl.xz" "bb").map Prod.snd = some false ∧
      ¬ Provenance build m "artist.jsonl.xz" "aa" := by
  refine ⟨⟨_, _, _, _, rfl, by decide, by decide⟩, fun build => ?_⟩
  have hruns : ∃ m, Fixed.applyAll build 64 (.new "20260101" 0)
        (verifiedThenProcessed [.startFileDownload "artist.jsonl.xz" 3]) = some m ∧
      m.fileCompleted "artist.jsonl.xz" = true ∧
      (Fixed.fileBytesVerified build m "artist.jsonl.xz" "bb").map Prod.snd = some false := by
    cases build <;> exact ⟨_, rfl, by decide +kernel, by decide +kernel⟩
  obtain ⟨m, hrun, hcompleted, hanswer⟩ := hruns
  refine ⟨m, hrun, hcompleted, hanswer, fun h => ?_⟩
  obtain ⟨m', hverified, -⟩ := h.other "bb" (by decide)
  rw [hverified] at hanswer
  cases hanswer

end Verified

end MusicbrainzIngestion
