import MusicbrainzIngestion.Base.FixedSum
import MusicbrainzIngestion.StateMarker.Operations

/-! The operations of a marker in the arithmetic of the machine. The totals are sums of 64 bits
and the counters of files have the width of a `usize`; a checked build stops where one of them
overflows, the other goes on with the wrapped number. The tables are those of the exact
operations, and so are the totals as long as they fit. -/

namespace MusicbrainzIngestion
open Base

namespace StateMarker

namespace Fixed

variable (build : Build) (w : Nat)

def syncPhaseTotals (m : StateMarker) : Option StateMarker := do
  let files := m.processingPhase.progressByFile
  let records ← total build FileProcessingStatus.recordsExtracted files
  let messages ← total build FileProcessingStatus.messagesPublished files
  let batches ← total build FileProcessingStatus.batchesSent files
  return { m with
    processingPhase := { m.processingPhase with recordsExtracted := records }
    publishingPhase := { m.publishingPhase with
      messagesPublished := messages, batchesSent := batches } }

def fileDownloaded (m : StateMarker) (filename : String) (bytes : Nat) (now : DateTime) :
    Option StateMarker := do
  let downloads := m.downloadPhase.downloadsByFile
  let previous := downloads.lookup filename
  let alreadyCompleted : Bool := previous.any fun status => decide (status.status = .completed)
  let status : FileDownloadStatus := { (previous.getD { startedAt := some now }) with
    status := .completed, bytesDownloaded := bytes, completedAt := some now }
  let downloads := downloads.insert filename status
  let filesDownloaded ← (if alreadyCompleted then some m.downloadPhase.filesDownloaded
    else increment build w m.downloadPhase.filesDownloaded)
  let bytesDownloaded ← total build FileDownloadStatus.bytesDownloaded downloads
  return { m with downloadPhase := { m.downloadPhase with
    downloadsByFile := downloads
    filesDownloaded := filesDownloaded
    bytesDownloaded := bytesDownloaded } }

def updateFileProgress (m : StateMarker) (filename : String) (records messages batches : Nat)
    (now : DateTime) : Option StateMarker := do
  let m ← syncPhaseTotals build (m.modifyProgress filename fun status => { status with
    recordsExtracted := records, messagesPublished := messages, batchesSent := batches })
  return if 0 < m.publishingPhase.messagesPublished then
    { m with publishingPhase := { m.publishingPhase with
        status := .inProgress, lastAmqpHeartbeat := some now } }
  else m

def completeFileProcessing (m : StateMarker) (filename : String) (records : Nat) (now : DateTime) :
    Option StateMarker := do
  let m := m.modifyProgress filename fun status => { status with
    status := .completed
    completedAt := some now
    recordsExtracted := records
    messagesPublished := if status.messagesPublished = 0 then records else status.messagesPublished }
  let filesProcessed ← increment build w m.processingPhase.filesProcessed
  let m ← syncPhaseTotals build
    { m with processingPhase := { m.processingPhase with filesProcessed := filesProcessed } }
  return m.setFileType filename .completed

/-- The subtraction of the counter saturates. -/
def fileBytesVerified (m : StateMarker) (filename checksum : String) :
    Option (StateMarker × Bool) :=
  if (m.processedChecksum filename).all (· = checksum) then
    some (m.recordChecksum filename checksum, false)
  else do
    let m ← syncPhaseTotals build
      (((m.recordChecksum filename checksum).dropProgress filename).setFileType filename .pending)
    return (m.reopen, true)

def apply (m : StateMarker) : Operation → Option StateMarker
  | .fileDownloaded filename bytes now => fileDownloaded build w m filename bytes now
  | .fileBytesVerified filename checksum => (fileBytesVerified build m filename checksum).map Prod.fst
  | .updateFileProgress filename records messages batches now =>
    updateFileProgress build m filename records messages batches now
  | .completeFileProcessing filename records now =>
    completeFileProcessing build w m filename records now
  | op => some (m.apply op)

/-- None when the run stops at an overflow. -/
def applyAll (m : StateMarker) (ops : List Operation) : Option StateMarker :=
  ops.foldlM (apply build w) m

variable {build w} {m m' : StateMarker} {op : Operation} {ops more : List Operation}

@[simp] theorem applyAll_nil : applyAll build w m [] = some m := rfl

theorem applyAll_cons :
    applyAll build w m (op :: ops) = (apply build w m op).bind fun m' => applyAll build w m' ops := by
  rw [applyAll, List.foldlM_cons]
  rfl

theorem applyAll_append : applyAll build w m (ops ++ more) =
    (applyAll build w m ops).bind fun m' => applyAll build w m' more := by
  rw [applyAll, List.foldlM_append]
  rfl

theorem applyAll_snoc : applyAll build w m (ops ++ [op]) =
    (applyAll build w m ops).bind fun m' => apply build w m' op := by
  rw [applyAll_append]
  refine Option.bind_congr fun m' _ => ?_
  rw [applyAll_cons]
  cases apply build w m' op <;> rfl

/-- What every operation that goes through preserves, a run preserves. -/
theorem applyAll_invariant {P : StateMarker → Prop}
    (hstep : ∀ m op m', op ∈ ops → P m → apply build w m op = some m' → P m')
    (h : P m) (hrun : applyAll build w m ops = some m') : P m' := by
  induction ops generalizing m with
  | nil =>
    cases hrun
    exact h
  | cons op ops ih =>
    rw [applyAll_cons] at hrun
    obtain ⟨mid, hop, hrest⟩ := Option.bind_eq_some_iff.mp hrun
    exact ih (fun m op' m' hop' => hstep m op' m' (List.mem_cons_of_mem _ hop'))
      (hstep m op mid List.mem_cons_self h hop) hrest

/-! ## The totals -/

/-- The sums over the progress of the files do not overflow. -/
structure TotalsFit (m : StateMarker) : Prop where
  records : TotalFits FileProcessingStatus.recordsExtracted m.processingPhase.progressByFile
  messages : TotalFits FileProcessingStatus.messagesPublished m.processingPhase.progressByFile
  batches : TotalFits FileProcessingStatus.batchesSent m.processingPhase.progressByFile

/-- The marker with the totals of its table, each of them modulo the width. -/
def wrapTotals (m : StateMarker) : StateMarker :=
  let files := m.processingPhase.progressByFile
  { m with
    processingPhase := { m.processingPhase with
      recordsExtracted := Table.sumBy FileProcessingStatus.recordsExtracted files % 2 ^ 64 }
    publishingPhase := { m.publishingPhase with
      messagesPublished := Table.sumBy FileProcessingStatus.messagesPublished files % 2 ^ 64
      batchesSent := Table.sumBy FileProcessingStatus.batchesSent files % 2 ^ 64 } }

theorem syncPhaseTotals_eq (h : syncPhaseTotals build m = some m') :
    m' = wrapTotals m ∧ (build = .checked → TotalsFit m) := by
  unfold syncPhaseTotals at h
  obtain ⟨records, hrecords, h⟩ := Option.bind_eq_some_iff.mp h
  obtain ⟨messages, hmessages, h⟩ := Option.bind_eq_some_iff.mp h
  obtain ⟨batches, hbatches, h⟩ := Option.bind_eq_some_iff.mp h
  cases h
  refine ⟨?_, ?_⟩
  · rw [total_mod hrecords, total_mod hmessages, total_mod hbatches]
    rfl
  · rintro rfl
    exact ⟨fits_of_total hrecords, fits_of_total hmessages, fits_of_total hbatches⟩

theorem syncPhaseTotals_of_fits (h : build = .checked → TotalsFit m) :
    syncPhaseTotals build m = some (wrapTotals m) := by
  unfold syncPhaseTotals
  simp only [total_of_fits fun hb => (h hb).records, total_of_fits fun hb => (h hb).messages,
    total_of_fits fun hb => (h hb).batches]
  rfl

/-! ## The tables -/

/-- The tables, on which all but the totals depends, are those of the other marker. -/
structure SameTables (m m' : StateMarker) : Prop where
  downloads : m'.downloadPhase.downloadsByFile = m.downloadPhase.downloadsByFile
  progress : m'.processingPhase.progressByFile = m.processingPhase.progressByFile

theorem sameTables_fileDownloaded {f : String} {bytes : Nat} {now : DateTime}
    (h : fileDownloaded build w m f bytes now = some m') :
    SameTables (m.fileDownloaded f bytes now) m' := by
  unfold fileDownloaded at h
  obtain ⟨files, -, h⟩ := Option.bind_eq_some_iff.mp h
  obtain ⟨sum, -, h⟩ := Option.bind_eq_some_iff.mp h
  cases h
  exact ⟨rfl, rfl⟩

theorem sameTables_updateFileProgress {f : String} {records messages batches : Nat} {now : DateTime}
    (h : updateFileProgress build m f records messages batches now = some m') :
    SameTables (m.updateFileProgress f records messages batches now) m' := by
  unfold updateFileProgress at h
  obtain ⟨synced, hsynced, h⟩ := Option.bind_eq_some_iff.mp h
  obtain ⟨rfl, -⟩ := syncPhaseTotals_eq hsynced
  cases h
  constructor
  all_goals
    unfold StateMarker.updateFileProgress
    dsimp only
    split <;> split <;> rfl

theorem sameTables_completeFileProcessing {f : String} {records : Nat} {now : DateTime}
    (h : completeFileProcessing build w m f records now = some m') :
    SameTables (m.completeFileProcessing f records now) m' := by
  unfold completeFileProcessing at h
  obtain ⟨files, -, h⟩ := Option.bind_eq_some_iff.mp h
  obtain ⟨synced, hsynced, h⟩ := Option.bind_eq_some_iff.mp h
  obtain ⟨rfl, -⟩ := syncPhaseTotals_eq hsynced
  cases h
  constructor
  · rw [downloadPhase_setFileType, downloadPhase_completeFileProcessing]
    rfl
  · unfold StateMarker.completeFileProcessing
    rw [processingPhase_setFileType, processingPhase_setFileType]
    rfl

/-- A verification that goes through: it changes the checksum in the download entry alone, or drops
what was computed from other bytes. -/
theorem fileBytesVerified_cases {f checksum : String} {answer : Bool}
    (h : fileBytesVerified build m f checksum = some (m', answer)) :
    (m' = m.recordChecksum f checksum ∧ answer = false ∧
      (m.processedChecksum f).all (· = checksum) = true) ∨
    (m' = (wrapTotals (((m.recordChecksum f checksum).dropProgress f).setFileType f .pending)).reopen ∧
      answer = true ∧ (m.processedChecksum f).all (· = checksum) = false) := by
  unfold fileBytesVerified at h
  split at h
  · next hsame =>
    cases h
    exact .inl ⟨rfl, rfl, hsame⟩
  · next hother =>
    obtain ⟨synced, hsynced, h⟩ := Option.bind_eq_some_iff.mp h
    cases h
    exact .inr ⟨by rw [(syncPhaseTotals_eq hsynced).1], rfl, Bool.eq_false_iff.mpr hother⟩

theorem sameTables_fileBytesVerified {f checksum : String} {answer : Bool}
    (h : fileBytesVerified build m f checksum = some (m', answer)) :
    SameTables (m.fileBytesVerified f checksum).1 m' := by
  rw [fileBytesVerified_eq]
  rcases fileBytesVerified_cases h with ⟨rfl, -, hsame⟩ | ⟨rfl, -, hother⟩
  · rw [if_pos hsame]
    exact ⟨rfl, rfl⟩
  · rw [if_neg (Bool.eq_false_iff.mp hother)]
    constructor
    · rw [downloadPhase_reopen, downloadPhase_requeue]
      exact congrArg DownloadPhase.downloadsByFile (downloadPhase_setFileType _ _ _)
    · rw [progressByFile_reopen, progressByFile_requeue]
      exact congrArg ProcessingPhase.progressByFile (processingPhase_setFileType _ _ _)

theorem sameTables_apply (h : apply build w m op = some m') : SameTables (m.apply op) m' := by
  cases op with
  | fileDownloaded f bytes now => exact sameTables_fileDownloaded h
  | fileBytesVerified f checksum =>
    obtain ⟨⟨after, answer⟩, hverified, rfl⟩ := Option.map_eq_some_iff.mp h
    exact sameTables_fileBytesVerified hverified
  | updateFileProgress f records messages batches now => exact sameTables_updateFileProgress h
  | completeFileProcessing f records now => exact sameTables_completeFileProcessing h
  | startDownload | startFileDownload | completeDownload | startProcessing | startFileProcessing
  | completeProcessing | completeExtraction | saveLoad =>
    cases h
    exact ⟨rfl, rfl⟩

/-! ## A checked build that goes on -/

theorem TotalFits.of_erase {g : FileProcessingStatus → Nat} {t : Table String FileProcessingStatus}
    (h : TotalFits g t) (f : String) : TotalFits g (t.erase f) := by
  unfold TotalFits at h ⊢
  rw [Table.sumBy_eq_lookup_add_erase _ _ f] at h
  omega

theorem TotalFits.insert {g : FileProcessingStatus → Nat} {t : Table String FileProcessingStatus}
    (h : TotalFits g t) (f : String) {status : FileProcessingStatus} (hzero : g status = 0) :
    TotalFits g (t.insert f status) := by
  have herase := TotalFits.of_erase h f
  unfold TotalFits at herase ⊢
  rw [Table.sumBy_insert, hzero]
  omega

theorem TotalsFit.of_progress (h : TotalsFit m)
    (heq : m'.processingPhase.progressByFile = m.processingPhase.progressByFile) : TotalsFit m' :=
  ⟨heq ▸ h.records, heq ▸ h.messages, heq ▸ h.batches⟩

theorem TotalsFit.erase (h : TotalsFit m) {f : String}
    (heq : m'.processingPhase.progressByFile = m.processingPhase.progressByFile.erase f) :
    TotalsFit m' :=
  ⟨heq ▸ TotalFits.of_erase h.records f, heq ▸ TotalFits.of_erase h.messages f,
    heq ▸ TotalFits.of_erase h.batches f⟩

theorem totalsFit_completeFileProcessing {f : String} {records : Nat} {now : DateTime}
    (h : completeFileProcessing .checked w m f records now = some m') : TotalsFit m' := by
  unfold completeFileProcessing at h
  obtain ⟨files, -, h⟩ := Option.bind_eq_some_iff.mp h
  obtain ⟨synced, hsynced, h⟩ := Option.bind_eq_some_iff.mp h
  obtain ⟨rfl, hfits⟩ := syncPhaseTotals_eq hsynced
  refine (hfits rfl).of_progress ?_
  cases h
  rw [processingPhase_setFileType]
  rfl

/-- A checked build that has not stopped keeps its totals in range. -/
theorem totalsFit_apply (h : TotalsFit m) (hop : apply .checked w m op = some m') : TotalsFit m' := by
  have htables := (sameTables_apply hop).progress
  cases op with
  | startDownload | startFileDownload | fileDownloaded | completeDownload | startProcessing
  | completeProcessing | completeExtraction | saveLoad => exact h.of_progress htables
  | fileBytesVerified f checksum =>
    rw [StateMarker.apply, fileBytesVerified_eq] at htables
    split at htables
    · exact h.of_progress htables
    · exact h.erase (htables.trans (progressByFile_requeue _ f))
  | startFileProcessing f now =>
    rw [StateMarker.apply, progressByFile_startFileProcessing] at htables
    exact ⟨htables ▸ TotalFits.insert h.records f rfl, htables ▸ TotalFits.insert h.messages f rfl,
      htables ▸ TotalFits.insert h.batches f rfl⟩
  | updateFileProgress f records messages batches now =>
    simp only [apply, updateFileProgress] at hop
    obtain ⟨synced, hsynced, hop⟩ := Option.bind_eq_some_iff.mp hop
    obtain ⟨rfl, hfits⟩ := syncPhaseTotals_eq hsynced
    refine (hfits rfl).of_progress ?_
    cases hop
    split <;> rfl
  | completeFileProcessing f records now => exact totalsFit_completeFileProcessing hop

theorem SameTables.fileCompleted (h : SameTables m m') (f : String) :
    m'.fileCompleted f = m.fileCompleted f := by
  unfold StateMarker.fileCompleted StateMarker.progress
  rw [h.progress]

/-- Only the end of a file completes one, and that takes the totals anew. -/
theorem totalsFit_of_completed {f : String} (h : m.fileCompleted f = true → TotalsFit m)
    (hop : apply .checked w m op = some m') (hcompleted : m'.fileCompleted f = true) :
    TotalsFit m' := by
  have hexact := ((sameTables_apply hop).fileCompleted f).symm.trans hcompleted
  cases op with
  | completeFileProcessing g records now => exact totalsFit_completeFileProcessing hop
  | startDownload | startFileDownload | fileDownloaded | completeDownload | startProcessing
  | completeProcessing | completeExtraction | saveLoad => exact totalsFit_apply (h hexact) hop
  | fileBytesVerified g checksum =>
    refine totalsFit_apply (h ?_) hop
    rw [StateMarker.apply, fileBytesVerified_eq] at hexact
    split at hexact
    · exact hexact
    · unfold StateMarker.fileCompleted StateMarker.progress at hexact
      rw [progressByFile_requeue] at hexact
      by_cases hf : f = g
      · rw [hf, AList.lookup_erase] at hexact
        cases hexact
      · rw [AList.lookup_erase_ne hf] at hexact
        exact hexact
  | startFileProcessing g now =>
    refine totalsFit_apply (h ?_) hop
    unfold StateMarker.fileCompleted at hexact ⊢
    rw [StateMarker.apply, progress_startFileProcessing] at hexact
    by_cases hf : f = g
    · rw [if_pos hf] at hexact
      cases hexact
    · rwa [if_neg hf] at hexact
  | updateFileProgress g records messages batches now =>
    refine totalsFit_apply (h ?_) hop
    unfold StateMarker.fileCompleted at hexact ⊢
    rw [StateMarker.apply, progress_updateFileProgress] at hexact
    by_cases hf : f = g
    · rw [if_pos hf, ← hf] at hexact
      cases hbefore : m.progress f with
      | none => simp [hbefore] at hexact
      | some status => simpa [hbefore] using hexact
    · rwa [if_neg hf] at hexact

end Fixed

end StateMarker

end MusicbrainzIngestion
