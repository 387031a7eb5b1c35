import MusicbrainzIngestion.StateMarker

/-! The operations of a marker as data, and sequences of them. A load gives back what was
saved, so between a save and a load only the time of the update changes. -/

namespace MusicbrainzIngestion
open Base

namespace StateMarker

inductive Operation where
  | startDownload (filesTotal : Nat) (now : DateTime)
  | startFileDownload (filename : String) (now : DateTime)
  | fileDownloaded (filename : String) (bytes : Nat) (now : DateTime)
  | fileBytesVerified (filename checksum : String)
  | completeDownload (now : DateTime)
  | startProcessing (filesTotal : Nat) (now : DateTime)
  | startFileProcessing (filename : String) (now : DateTime)
  | updateFileProgress (filename : String) (records messages batches : Nat) (now : DateTime)
  | completeFileProcessing (filename : String) (records : Nat) (now : DateTime)
  | completeProcessing (now : DateTime)
  | completeExtraction
  | saveLoad (now : DateTime)

def apply (m : StateMarker) : Operation → StateMarker
  | .startDownload filesTotal now => m.startDownload filesTotal now
  | .startFileDownload filename now => m.startFileDownload filename now
  | .fileDownloaded filename bytes now => m.fileDownloaded filename bytes now
  | .fileBytesVerified filename checksum => (m.fileBytesVerified filename checksum).1
  | .completeDownload now => m.completeDownload now
  | .startProcessing filesTotal now => m.startProcessing filesTotal now
  | .startFileProcessing filename now => m.startFileProcessing filename now
  | .updateFileProgress filename records messages batches now =>
    m.updateFileProgress filename records messages batches now
  | .completeFileProcessing filename records now => m.completeFileProcessing filename records now
  | .completeProcessing now => m.completeProcessing now
  | .completeExtraction => m.completeExtraction
  | .saveLoad now => m.stamped now

def applyAll (m : StateMarker) (ops : List Operation) : StateMarker := ops.foldl apply m

@[simp] theorem applyAll_nil (m : StateMarker) : m.applyAll [] = m := rfl

theorem applyAll_append (m : StateMarker) (ops more : List Operation) :
    m.applyAll (ops ++ more) = (m.applyAll ops).applyAll more := List.foldl_append

theorem applyAll_snoc (m : StateMarker) (ops : List Operation) (op : Operation) :
    m.applyAll (ops ++ [op]) = (m.applyAll ops).apply op := applyAll_append m ops [op]

/-- What every operation preserves, a sequence preserves. -/
theorem applyAll_invariant {P : StateMarker → Prop} (hstep : ∀ m op, P m → P (m.apply op))
    {m : StateMarker} (h : P m) (ops : List Operation) : P (m.applyAll ops) := by
  induction ops generalizing m with
  | nil => exact h
  | cons op ops ih => exact ih (hstep m op h)

/-! ## The download table -/

/-- The download entry of a file. -/
def download (m : StateMarker) (filename : String) : Option FileDownloadStatus :=
  m.downloadPhase.downloadsByFile.lookup filename

theorem download_startFileDownload (m : StateMarker) (f f' : String) (now : DateTime) :
    (m.startFileDownload f now).download f' =
      if f' = f then some { status := .inProgress, startedAt := some now } else m.download f' := by
  unfold download startFileDownload
  split
  · next h => rw [h, AList.lookup_insert]
  · next h => rw [AList.lookup_insert_ne h]

/-- A report keeps the start and the checksum of the entry. -/
theorem download_fileDownloaded (m : StateMarker) (f f' : String) (bytes : Nat) (now : DateTime) :
    (m.fileDownloaded f bytes now).download f' =
      if f' = f then some { (m.download f).getD { startedAt := some now } with
        status := .completed, bytesDownloaded := bytes, completedAt := some now }
      else m.download f' := by
  unfold download fileDownloaded
  split
  · next h => rw [h, AList.lookup_insert]
  · next h => rw [AList.lookup_insert_ne h]

@[simp] theorem downloadPhase_setFileType (m : StateMarker) (f : String) (status : PhaseStatus) :
    (m.setFileType f status).downloadPhase = m.downloadPhase := by
  unfold setFileType
  split <;> rfl

@[simp] theorem downloadPhase_startFileProcessing (m : StateMarker) (f : String) (now : DateTime) :
    (m.startFileProcessing f now).downloadPhase = m.downloadPhase := by
  unfold startFileProcessing
  rw [downloadPhase_setFileType]

@[simp] theorem downloadPhase_updateFileProgress (m : StateMarker) (f : String)
    (records messages batches : Nat) (now : DateTime) :
    (m.updateFileProgress f records messages batches now).downloadPhase = m.downloadPhase := by
  unfold updateFileProgress
  dsimp only
  split <;> rfl

@[simp] theorem downloadPhase_completeFileProcessing (m : StateMarker) (f : String) (records : Nat)
    (now : DateTime) :
    (m.completeFileProcessing f records now).downloadPhase = m.downloadPhase := by
  unfold completeFileProcessing
  rw [downloadPhase_setFileType]
  rfl

/-! ## A verification, in its parts -/

/-- The checksum a completed file was computed from, if it is known. -/
def processedChecksum (m : StateMarker) (filename : String) : Option String :=
  match m.progress filename with
  | some status => if status.status = PhaseStatus.completed then status.sourceChecksum else none
  | none => none

/-- Write the checksum into the download entry of the file, when there is one. -/
def recordChecksum (m : StateMarker) (filename checksum : String) : StateMarker :=
  { m with downloadPhase := { m.downloadPhase with
    downloadsByFile := m.downloadPhase.downloadsByFile.modify filename fun status =>
      { status with checksum := some checksum } } }

theorem download_recordChecksum (m : StateMarker) (f checksum f' : String) :
    (m.recordChecksum f checksum).download f' =
      if f' = f then (m.download f).map fun status => { status with checksum := some checksum }
      else m.download f' := by
  unfold download recordChecksum
  split
  · next h => rw [h, Table.lookup_modify]
  · next h => rw [Table.lookup_modify_ne _ _ h]

/-- Drop the status of a file. -/
def dropProgress (m : StateMarker) (filename : String) : StateMarker :=
  { m with processingPhase := { m.processingPhase with
    progressByFile := m.processingPhase.progressByFile.erase filename
    filesProcessed := m.processingPhase.filesProcessed - 1 } }

/-- The version is not over any more. -/
def reopen (m : StateMarker) : StateMarker :=
  let m : StateMarker := if m.summary.overallStatus = .completed then
      { m with summary := { m.summary with overallStatus := .inProgress } }
    else m
  if m.processingPhase.status = .completed then
    { m with processingPhase := { m.processingPhase with
        status := .inProgress, completedAt := none } }
  else m

def requeue (m : StateMarker) (filename : String) : StateMarker :=
  ((m.dropProgress filename).setFileType filename .pending).syncPhaseTotals.reopen

theorem fileBytesVerified_eq (m : StateMarker) (f checksum : String) :
    m.fileBytesVerified f checksum =
      if (m.processedChecksum f).all (· = checksum) then (m.recordChecksum f checksum, false)
      else ((m.recordChecksum f checksum).requeue f, true) := rfl

@[simp] theorem downloadPhase_reopen (m : StateMarker) :
    m.reopen.downloadPhase = m.downloadPhase := by
  unfold reopen
  dsimp only
  split <;> split <;> rfl

@[simp] theorem downloadPhase_requeue (m : StateMarker) (f : String) :
    (m.requeue f).downloadPhase = m.downloadPhase := by
  rw [requeue, downloadPhase_reopen]
  exact downloadPhase_setFileType _ _ _

theorem downloadPhase_fileBytesVerified (m : StateMarker) (f checksum : String) :
    (m.fileBytesVerified f checksum).1.downloadPhase =
      (m.recordChecksum f checksum).downloadPhase := by
  rw [fileBytesVerified_eq]
  split
  · rfl
  · exact downloadPhase_requeue _ _

@[simp] theorem progressByFile_reopen (m : StateMarker) :
    m.reopen.processingPhase.progressByFile = m.processingPhase.progressByFile := by
  unfold reopen
  dsimp only
  split <;> split <;> rfl

theorem progressByFile_requeue (m : StateMarker) (f : String) :
    (m.requeue f).processingPhase.progressByFile = m.processingPhase.progressByFile.erase f := by
  rw [requeue, progressByFile_reopen]
  unfold syncPhaseTotals
  dsimp only
  rw [processingPhase_setFileType]
  rfl

/-! ## The start of a file -/

section Start

variable {m : StateMarker} {f : String}

/-- The entry of a file that was just started. -/
def startedEntry (m : StateMarker) (f : String) (now : DateTime) : FileProcessingStatus where
  status := .inProgress
  startedAt := some now
  sourceChecksum := (m.downloadPhase.downloadsByFile.lookup f).bind (·.checksum)

theorem progressByFile_startFileProcessing (now : DateTime) :
    (m.startFileProcessing f now).processingPhase.progressByFile =
      m.processingPhase.progressByFile.insert f (m.startedEntry f now) := by
  unfold startFileProcessing
  rw [processingPhase_setFileType]
  rfl

theorem totals_startFileProcessing (now : DateTime) :
    (m.startFileProcessing f now).processingPhase.recordsExtracted =
        m.processingPhase.recordsExtracted ∧
      (m.startFileProcessing f now).processingPhase.filesProcessed =
        m.processingPhase.filesProcessed ∧
      (m.startFileProcessing f now).publishingPhase = m.publishingPhase := by
  unfold startFileProcessing
  rw [processingPhase_setFileType]
  refine ⟨rfl, rfl, ?_⟩
  unfold setFileType
  split <;> rfl

/-- Starting a file takes what was counted for it out of the sums. -/
theorem sumBy_startFileProcessing (g : FileProcessingStatus → Nat) (now : DateTime)
    (hg : g (m.startedEntry f now) = 0) :
    Table.sumBy g m.processingPhase.progressByFile = ((m.progress f).map g).getD 0 +
      Table.sumBy g (m.startFileProcessing f now).processingPhase.progressByFile := by
  rw [progressByFile_startFileProcessing, Table.sumBy_insert, hg, Nat.zero_add]
  exact Table.sumBy_eq_lookup_add_erase g _ f

end Start

end StateMarker

end MusicbrainzIngestion
