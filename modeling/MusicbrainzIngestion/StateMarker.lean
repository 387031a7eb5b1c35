import MusicbrainzIngestion.Base.Table
import MusicbrainzIngestion.Base.Text
import MusicbrainzIngestion.Types

/-! The state marker of a dump version: what has been downloaded and processed, and
the decision a later run takes from it. Every operation that reads the clock takes
the time as `now`. The totals are exact here; `StateMarker.Fixed` has the operations with the
widths of the machine, and when they agree with these. -/

namespace MusicbrainzIngestion
open Base

inductive PhaseStatus where
  | pending
  | inProgress
  | completed
  | failed
deriving DecidableEq, Repr

/-- Per-file download tracking; `checksum` identifies the verified bytes on disk. -/
structure FileDownloadStatus where
  status : PhaseStatus := .pending
  bytesDownloaded : Nat := 0
  startedAt : Option DateTime := none
  completedAt : Option DateTime := none
  checksum : Option String := none
deriving DecidableEq

structure DownloadPhase where
  status : PhaseStatus := .pending
  startedAt : Option DateTime := none
  completedAt : Option DateTime := none
  filesDownloaded : Nat := 0
  filesTotal : Nat := 0
  bytesDownloaded : Nat := 0
  downloadsByFile : Table String FileDownloadStatus := ∅
  errors : List String := []

/-- Per-file processing; `sourceChecksum` is the byte-image it was computed from, if known. -/
structure FileProcessingStatus where
  status : PhaseStatus := .pending
  recordsExtracted : Nat := 0
  messagesPublished : Nat := 0
  batchesSent : Nat := 0
  startedAt : Option DateTime := none
  completedAt : Option DateTime := none
  sourceChecksum : Option String := none
deriving DecidableEq

structure ProcessingPhase where
  status : PhaseStatus := .pending
  startedAt : Option DateTime := none
  completedAt : Option DateTime := none
  filesProcessed : Nat := 0
  filesTotal : Nat := 0
  recordsExtracted : Nat := 0
  currentFile : Option String := none
  progressByFile : Table String FileProcessingStatus := ∅
  errors : List String := []

structure PublishingPhase where
  status : PhaseStatus := .pending
  messagesPublished : Nat := 0
  batchesSent : Nat := 0
  errors : List String := []
  lastAmqpHeartbeat : Option DateTime := none

/-- The duration is a double, as the rational number it stands for. -/
structure ExtractionSummary where
  overallStatus : PhaseStatus := .pending
  totalDurationSeconds : Option Rat := none
  filesByType : Table String PhaseStatus := ∅

structure StateMarker where
  metadataVersion : String
  lastUpdated : DateTime
  currentVersion : String
  downloadPhase : DownloadPhase
  processingPhase : ProcessingPhase
  publishingPhase : PublishingPhase
  summary : ExtractionSummary

inductive ProcessingDecision where
  | reprocess
  | continue
  | skip
deriving DecidableEq, Repr

/-- The entity type of a dump file's name, in the plural event vocabulary. -/
def extractDataType (filename : String) : Option String :=
  if !Text.contains filename "_" && Text.contains filename ".jsonl" then
    let stem := Text.splitFirst filename '.'
    if stem = "" then none
    else
      let base := (Text.stripPrefix stem "mbdump-").getD stem
      some (match base with
        | "artist" => "artists"
        | "label" => "labels"
        | "release" => "releases"
        | "release-group" => "release-groups"
        | other => other)
  else none

namespace StateMarker

def new (version : String) (now : DateTime) : StateMarker where
  metadataVersion := "1.0"
  lastUpdated := now
  currentVersion := version
  downloadPhase := {}
  processingPhase := {}
  publishingPhase := {}
  summary := {}

/-- The marker a save writes. -/
def stamped (m : StateMarker) (now : DateTime) : StateMarker := { m with lastUpdated := now }

/-- The processing progress of one file. -/
def progress (m : StateMarker) (filename : String) : Option FileProcessingStatus :=
  m.processingPhase.progressByFile.lookup filename

/-- The file is marked as processed. -/
def fileCompleted (m : StateMarker) (filename : String) : Bool :=
  match m.progress filename with
  | some status => decide (status.status = .completed)
  | none => false

def completedFileCount (m : StateMarker) : Nat :=
  m.processingPhase.progressByFile.values.countP fun status => decide (status.status = .completed)

def shouldProcess (m : StateMarker) : ProcessingDecision :=
  if m.downloadPhase.status = .failed ∨ m.downloadPhase.status = .inProgress then
    if 0 < m.completedFileCount then .continue else .reprocess
  else if m.processingPhase.status = .failed then .continue
  else if m.processingPhase.status = .inProgress then .continue
  else if m.summary.overallStatus = .completed then .skip
  else .continue

theorem overall_of_skip {m : StateMarker} (h : m.shouldProcess = .skip) :
    m.summary.overallStatus = .completed := by
  unfold shouldProcess at h
  split at h
  · split at h <;> cases h
  · split at h
    · cases h
    · split at h
      · cases h
      · split at h
        · assumption
        · cases h

/-! ## The download phase -/

def startDownload (m : StateMarker) (filesTotal : Nat) (now : DateTime) : StateMarker :=
  { m with downloadPhase := { m.downloadPhase with
      status := .inProgress
      startedAt := some now
      filesTotal := filesTotal
      filesDownloaded := 0
      bytesDownloaded := 0
      downloadsByFile := ∅ } }

def startFileDownload (m : StateMarker) (filename : String) (now : DateTime) : StateMarker :=
  { m with downloadPhase := { m.downloadPhase with
      downloadsByFile := m.downloadPhase.downloadsByFile.insert filename
        { status := .inProgress, startedAt := some now } } }

/-- Counted once: a file that was completed before is not counted again. -/
def fileDownloaded (m : StateMarker) (filename : String) (bytes : Nat) (now : DateTime) :
    StateMarker :=
  let downloads := m.downloadPhase.downloadsByFile
  let previous := downloads.lookup filename
  let alreadyCompleted : Bool := match previous with
    | some status => decide (status.status = .completed)
    | none => false
  let status : FileDownloadStatus := { (previous.getD { startedAt := some now }) with
    status := .completed, bytesDownloaded := bytes, completedAt := some now }
  let downloads := downloads.insert filename status
  let filesDownloaded := m.downloadPhase.filesDownloaded
  { m with downloadPhase := { m.downloadPhase with
      downloadsByFile := downloads
      filesDownloaded := if alreadyCompleted then filesDownloaded else filesDownloaded + 1
      bytesDownloaded := Table.sumBy FileDownloadStatus.bytesDownloaded downloads } }

def completeDownload (m : StateMarker) (now : DateTime) : StateMarker :=
  { m with downloadPhase := { m.downloadPhase with status := .completed, completedAt := some now } }

/-! ## The processing phase -/

def syncPhaseTotals (m : StateMarker) : StateMarker :=
  let files := m.processingPhase.progressByFile
  { m with
    processingPhase := { m.processingPhase with
      recordsExtracted := Table.sumBy FileProcessingStatus.recordsExtracted files }
    publishingPhase := { m.publishingPhase with
      messagesPublished := Table.sumBy FileProcessingStatus.messagesPublished files
      batchesSent := Table.sumBy FileProcessingStatus.batchesSent files } }

def setFileType (m : StateMarker) (filename : String) (status : PhaseStatus) : StateMarker :=
  match extractDataType filename with
  | some dataType =>
    { m with summary := { m.summary with
        filesByType := m.summary.filesByType.insert dataType status } }
  | none => m

def startProcessing (m : StateMarker) (filesTotal : Nat) (now : DateTime) : StateMarker :=
  { m with
    processingPhase := { m.processingPhase with
      status := .inProgress
      startedAt := some now
      filesTotal := filesTotal
      filesProcessed := 0
      recordsExtracted := 0 }
    summary := { m.summary with overallStatus := .inProgress } }

/-- Bind this attempt to the bytes it is about to read. -/
def startFileProcessing (m : StateMarker) (filename : String) (now : DateTime) : StateMarker :=
  let sourceChecksum := (m.downloadPhase.downloadsByFile.lookup filename).bind (·.checksum)
  let status : FileProcessingStatus :=
    { status := .inProgress, startedAt := some now, sourceChecksum := sourceChecksum }
  setFileType
    { m with processingPhase := { m.processingPhase with
        currentFile := some filename
        progressByFile := m.processingPhase.progressByFile.insert filename status } }
    filename .inProgress

def modifyProgress (m : StateMarker) (filename : String)
    (f : FileProcessingStatus → FileProcessingStatus) : StateMarker :=
  { m with processingPhase := { m.processingPhase with
      progressByFile := m.processingPhase.progressByFile.modify filename f } }

def updateFileProgress (m : StateMarker) (filename : String) (records messages batches : Nat)
    (now : DateTime) : StateMarker :=
  let m := (m.modifyProgress filename fun status => { status with
    recordsExtracted := records, messagesPublished := messages, batchesSent := batches }).syncPhaseTotals
  if 0 < m.publishingPhase.messagesPublished then
    { m with publishingPhase := { m.publishingPhase with
        status := .inProgress, lastAmqpHeartbeat := some now } }
  else m

def completeFileProcessing (m : StateMarker) (filename : String) (records : Nat) (now : DateTime) :
    StateMarker :=
  let m := m.modifyProgress filename fun status => { status with
    status := .completed
    completedAt := some now
    recordsExtracted := records
    messagesPublished := if status.messagesPublished = 0 then records else status.messagesPublished }
  let m := { m with processingPhase := { m.processingPhase with
    filesProcessed := m.processingPhase.filesProcessed + 1 } }
  setFileType m.syncPhaseTotals filename .completed

def completeProcessing (m : StateMarker) (now : DateTime) : StateMarker :=
  { m with processingPhase := { m.processingPhase with
      status := .completed, completedAt := some now, currentFile := none } }

def completeExtraction (m : StateMarker) : StateMarker :=
  let duration := match m.downloadPhase.startedAt, m.processingPhase.completedAt with
    | some start, some finish => some (((finish : Int) - start).tdiv 1000000000 : Int)
    | _, _ => m.summary.totalDurationSeconds
  { m with
    publishingPhase := { m.publishingPhase with status := .completed }
    summary := { m.summary with overallStatus := .completed, totalDurationSeconds := duration } }

/-- Record the checksum of the bytes on disk; a status computed from other bytes is dropped
and its file queued again. True when that happened. -/
def fileBytesVerified (m : StateMarker) (filename checksum : String) : StateMarker × Bool :=
  let previous := match m.progress filename with
    | some status => if status.status = PhaseStatus.completed then status.sourceChecksum else none
    | none => none
  let m : StateMarker := { m with downloadPhase := { m.downloadPhase with
    downloadsByFile := m.downloadPhase.downloadsByFile.modify filename fun status =>
      { status with checksum := some checksum } } }
  if previous.all (· = checksum) then (m, false)
  else
    let m : StateMarker := { m with processingPhase := { m.processingPhase with
      progressByFile := m.processingPhase.progressByFile.erase filename
      filesProcessed := m.processingPhase.filesProcessed - 1 } }
    let m : StateMarker := (setFileType m filename .pending).syncPhaseTotals
    let m : StateMarker := if m.summary.overallStatus = .completed then
        { m with summary := { m.summary with overallStatus := .inProgress } }
      else m
    let m : StateMarker := if m.processingPhase.status = .completed then
        { m with processingPhase := { m.processingPhase with
            status := .inProgress, completedAt := none } }
      else m
    (m, true)

def pendingFiles (m : StateMarker) (allFiles : List String) : List String :=
  allFiles.filter fun filename => !m.fileCompleted filename

/-! ## What each operation does to a file's progress -/

section Progress

variable (m : StateMarker) (f f' : String) (now : DateTime)

@[simp] theorem progress_startProcessing (n : Nat) :
    (m.startProcessing n now).progress f = m.progress f := rfl

@[simp] theorem processingPhase_setFileType (status : PhaseStatus) :
    (m.setFileType f status).processingPhase = m.processingPhase := by
  unfold setFileType
  split <;> rfl

@[simp] theorem progress_setFileType (status : PhaseStatus) :
    (m.setFileType f status).progress f' = m.progress f' := by
  simp [progress]

theorem progress_modifyProgress (g : FileProcessingStatus → FileProcessingStatus) :
    (m.modifyProgress f g).progress f' = if f' = f then (m.progress f).map g else m.progress f' := by
  split
  · next h =>
    subst h
    exact Table.lookup_modify _ _ _
  · next h => exact Table.lookup_modify_ne _ _ h

/-- A restarted file begins from nothing, whatever was recorded for it. -/
theorem progress_startFileProcessing :
    (m.startFileProcessing f now).progress f' =
      if f' = f then
        some {
          status := .inProgress
          startedAt := some now
          sourceChecksum := (m.downloadPhase.downloadsByFile.lookup f).bind (·.checksum) }
      else m.progress f' := by
  unfold startFileProcessing
  rw [progress_setFileType]
  unfold progress
  split
  · next h => rw [h, AList.lookup_insert]
  · next h => rw [AList.lookup_insert_ne h]

theorem progress_updateFileProgress (records messages batches : Nat) :
    (m.updateFileProgress f records messages batches now).progress f' =
      if f' = f then (m.progress f).map fun status => { status with
        recordsExtracted := records, messagesPublished := messages, batchesSent := batches }
      else m.progress f' := by
  rw [← progress_modifyProgress]
  unfold updateFileProgress
  dsimp only
  split <;> rfl

theorem progress_completeFileProcessing (records : Nat) :
    (m.completeFileProcessing f records now).progress f' =
      if f' = f then (m.progress f).map fun status => { status with
        status := .completed
        completedAt := some now
        recordsExtracted := records
        messagesPublished := if status.messagesPublished = 0 then records
          else status.messagesPublished }
      else m.progress f' := by
  rw [← progress_modifyProgress]
  unfold completeFileProcessing
  rw [progress_setFileType]
  rfl

end Progress

/-! ## What a later run reads of a marker -/

/-- The number of records of a file marked as processed. -/
def completedRecords (m : StateMarker) (filename : String) : Option Nat :=
  (m.progress filename).bind fun status =>
    if status.status = .completed then some status.recordsExtracted else none

/-- The file's processing was started and is not over. -/
def fileStarted (m : StateMarker) (filename : String) : Prop :=
  ∃ status, m.progress filename = some status ∧ status.status = .inProgress

/-- The phase total is the sum over the files. -/
def Tallied (m : StateMarker) : Prop :=
  m.processingPhase.recordsExtracted =
    Table.sumBy FileProcessingStatus.recordsExtracted m.processingPhase.progressByFile

/-- The two markers differ at most in what a later run does not decide on. -/
structure Agrees (m m' : StateMarker) : Prop where
  completed : ∀ f, m'.completedRecords f = m.completedRecords f
  known : ∀ f, (m'.progress f).isSome = (m.progress f).isSome
  processing : m'.processingPhase.status = m.processingPhase.status
  started : m'.processingPhase.startedAt = m.processingPhase.startedAt
  overall : m'.summary.overallStatus = m.summary.overallStatus
  download : m'.downloadPhase.status = m.downloadPhase.status

/-- The second marker is the first with one file marked as processed. -/
structure Marked (filename : String) (records : Nat) (m m' : StateMarker) : Prop where
  completed : ∀ f, m'.completedRecords f =
    if f = filename then some records else m.completedRecords f
  known : ∀ f, (m'.progress f).isSome = (m.progress f).isSome
  processing : m'.processingPhase.status = m.processingPhase.status
  started : m'.processingPhase.startedAt = m.processingPhase.startedAt
  overall : m'.summary.overallStatus = m.summary.overallStatus
  download : m'.downloadPhase.status = m.downloadPhase.status
  tallied : m'.Tallied

section Observed

variable {m m' m'' : StateMarker} {f : String} (now : DateTime)

theorem Agrees.refl (m : StateMarker) : Agrees m m :=
  ⟨fun _ => rfl, fun _ => rfl, rfl, rfl, rfl, rfl⟩

theorem Agrees.trans (h : Agrees m m') (h' : Agrees m' m'') : Agrees m m'' where
  completed f := (h'.completed f).trans (h.completed f)
  known f := (h'.known f).trans (h.known f)
  processing := h'.processing.trans h.processing
  started := h'.started.trans h.started
  overall := h'.overall.trans h.overall
  download := h'.download.trans h.download

theorem agrees_stamped : Agrees m (m.stamped now) := ⟨fun _ => rfl, fun _ => rfl, rfl, rfl, rfl, rfl⟩

theorem fileCompleted_eq : m.fileCompleted f = (m.completedRecords f).isSome := by
  unfold fileCompleted completedRecords
  cases m.progress f with
  | none => rfl
  | some status => by_cases h : status.status = .completed <;> simp [h]

/-- The count of completed files, with one file told apart. -/
theorem completedFileCount_eq (m : StateMarker) (f : String) :
    m.completedFileCount = (m.fileCompleted f).toNat +
      Table.sumBy (fun s => (decide (s.status = .completed)).toNat)
        (m.processingPhase.progressByFile.erase f) := by
  unfold completedFileCount fileCompleted progress
  rw [Table.countP_values, Table.sumBy_eq_lookup_add_erase _ _ f]
  cases m.processingPhase.progressByFile.lookup f <;> rfl

theorem completedRecords_of_fileStarted (h : m.fileStarted f) : m.completedRecords f = none := by
  obtain ⟨status, hp, hs⟩ := h
  simp [completedRecords, hp, hs]

theorem fileStarted_startFileProcessing : (m.startFileProcessing f now).fileStarted f :=
  ⟨_, by rw [progress_startFileProcessing, if_pos rfl], rfl⟩

theorem processing_startFileProcessing :
    (m.startFileProcessing f now).processingPhase.status = m.processingPhase.status ∧
      (m.startFileProcessing f now).processingPhase.startedAt = m.processingPhase.startedAt := by
  unfold startFileProcessing
  rw [processingPhase_setFileType]
  exact ⟨rfl, rfl⟩

theorem overall_startFileProcessing :
    (m.startFileProcessing f now).summary.overallStatus = m.summary.overallStatus ∧
      (m.startFileProcessing f now).downloadPhase = m.downloadPhase := by
  unfold startFileProcessing setFileType
  split <;> exact ⟨rfl, rfl⟩

/-- Starting a file that is not completed leaves what is completed. -/
theorem completedRecords_startFileProcessing (h : m.completedRecords f = none) (f' : String) :
    (m.startFileProcessing f now).completedRecords f' = m.completedRecords f' := by
  unfold completedRecords
  rw [progress_startFileProcessing]
  split
  · next heq =>
    subst heq
    exact h.symm
  · rfl

theorem fileStarted_updateFileProgress (records messages batches : Nat) (h : m.fileStarted f) :
    (m.updateFileProgress f records messages batches now).fileStarted f := by
  obtain ⟨status, hp, hs⟩ := h
  have hq := progress_updateFileProgress m f f now records messages batches
  rw [if_pos rfl, hp, Option.map_some] at hq
  exact ⟨_, hq, hs⟩

/-- Counting a started file changes nothing a later run decides on. -/
theorem agrees_updateFileProgress (records messages batches : Nat) (h : m.fileStarted f) :
    Agrees m (m.updateFileProgress f records messages batches now) := by
  obtain ⟨status, hp, hs⟩ := h
  refine ⟨fun f' => ?_, fun f' => ?_, ?_, ?_, ?_, ?_⟩
  · unfold completedRecords
    rw [progress_updateFileProgress]
    split
    · next heq => subst heq; simp [hp, hs]
    · rfl
  · rw [progress_updateFileProgress]
    split
    · next heq => subst heq; simp [hp]
    · rfl
  all_goals
    unfold updateFileProgress
    dsimp only
    split <;> rfl

theorem marked_completeFileProcessing (records : Nat) (h : m.fileStarted f) :
    Marked f records m (m.completeFileProcessing f records now) := by
  obtain ⟨status, hp, hs⟩ := h
  refine ⟨fun f' => ?_, fun f' => ?_, ?_, ?_, ?_, ?_, ?_⟩
  · unfold completedRecords
    rw [progress_completeFileProcessing]
    split
    · next heq => subst heq; simp [hp]
    · rfl
  · rw [progress_completeFileProcessing]
    split
    · next heq => subst heq; simp [hp]
    · rfl
  · simp only [completeFileProcessing, processingPhase_setFileType]
    rfl
  · simp only [completeFileProcessing, processingPhase_setFileType]
    rfl
  · unfold completeFileProcessing setFileType
    split <;> rfl
  · unfold completeFileProcessing setFileType
    split <;> rfl
  · unfold Tallied completeFileProcessing
    rw [processingPhase_setFileType]
    rfl

end Observed

end StateMarker

end MusicbrainzIngestion
