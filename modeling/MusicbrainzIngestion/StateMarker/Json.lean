import Mathlib.Algebra.Field.Rat
import MusicbrainzIngestion.StateMarker
import MusicbrainzIngestion.WireFormat

/-! The state marker as JSON. Fields that older markers lack have defaults, fields that are not
known are ignored, and a marker that was written is read back up to the order of its tables. -/

namespace MusicbrainzIngestion
open Base Base.Json

/-! ## Numbers and times -/

/-- The whole seconds that are doubles. No other duration is ever written. -/
def WholeSeconds (q : Rat) : Prop := ∃ n : Int, n.natAbs < 2 ^ 53 ∧ q = n

/-- How a double is printed, read and converted to. Of a fraction the reader may lose the last
digit. -/
structure FloatFormat where
  print : Rat → String
  read : String → Option Rat
  ofInt : Int → Rat
  read_print : ∀ q, WholeSeconds q → read (print q) = some q

namespace FloatFormat

def toValue (f : FloatFormat) (q : Rat) : Value := .number (.float (f.print q))

def ofValue (f : FloatFormat) : Value → Option Rat
  | .number (.float text) => f.read text
  | .number (.posInt n) => some (f.ofInt n.toNat)
  | .number (.negInt n) => some (f.ofInt n.toInt)
  | _ => none

theorem ofValue_toValue (f : FloatFormat) {q : Rat} (h : WholeSeconds q) :
    f.ofValue (f.toValue q) = some q := f.read_print q h

end FloatFormat

/-- How the parts of a marker are printed and read. -/
structure MarkerFormat where
  times : TimeFormat
  floats : FloatFormat
  text : JsonText

/-! ## Writing and reading -/

namespace PhaseStatus

def toValue : PhaseStatus → Value
  | .pending => .string "pending"
  | .inProgress => .string "in_progress"
  | .completed => .string "completed"
  | .failed => .string "failed"

def ofValue : Value → Option PhaseStatus
  | .string "pending" => some .pending
  | .string "in_progress" => some .inProgress
  | .string "completed" => some .completed
  | .string "failed" => some .failed
  | _ => none

@[simp] theorem ofValue_toValue (s : PhaseStatus) : ofValue s.toValue = some s := by
  cases s <;> rfl

end PhaseStatus

section Records

open Value

def FileDownloadStatus.toValue (f : TimeFormat) (s : FileDownloadStatus) : Value := .object [
  ("status", s.status.toValue),
  ("bytes_downloaded", ofNat s.bytesDownloaded),
  ("started_at", nullable f.toValue s.startedAt),
  ("completed_at", nullable f.toValue s.completedAt),
  ("checksum", nullable .string s.checksum)]

def FileDownloadStatus.ofValue (f : TimeFormat) (v : Value) : Option FileDownloadStatus := do
  let es ← v.asObject
  let status ← es.required "status" PhaseStatus.ofValue
  let bytesDownloaded ← es.required "bytes_downloaded" asNat
  let startedAt ← es.optional "started_at" f.ofValue
  let completedAt ← es.optional "completed_at" f.ofValue
  let checksum ← es.withDefault "checksum" (asNullable asStr) none
  return { status, bytesDownloaded, startedAt, completedAt, checksum }

def DownloadPhase.toValue (f : TimeFormat) (p : DownloadPhase) : Value := .object [
  ("status", p.status.toValue),
  ("started_at", nullable f.toValue p.startedAt),
  ("completed_at", nullable f.toValue p.completedAt),
  ("files_downloaded", ofNat p.filesDownloaded),
  ("files_total", ofNat p.filesTotal),
  ("bytes_downloaded", ofNat p.bytesDownloaded),
  ("downloads_by_file", ofTable (FileDownloadStatus.toValue f) p.downloadsByFile),
  ("errors", ofElements .string p.errors)]

def DownloadPhase.ofValue (f : TimeFormat) (v : Value) : Option DownloadPhase := do
  let es ← v.asObject
  let status ← es.required "status" PhaseStatus.ofValue
  let startedAt ← es.optional "started_at" f.ofValue
  let completedAt ← es.optional "completed_at" f.ofValue
  let filesDownloaded ← es.required "files_downloaded" asNat
  let filesTotal ← es.required "files_total" asNat
  let bytesDownloaded ← es.required "bytes_downloaded" asNat
  let downloadsByFile ← es.required "downloads_by_file" (asTable (FileDownloadStatus.ofValue f))
  let errors ← es.required "errors" (asElements asStr)
  return {
    status, startedAt, completedAt, filesDownloaded, filesTotal, bytesDownloaded,
    downloadsByFile, errors }

def FileProcessingStatus.toValue (f : TimeFormat) (s : FileProcessingStatus) : Value := .object [
  ("status", s.status.toValue),
  ("records_extracted", ofNat s.recordsExtracted),
  ("messages_published", ofNat s.messagesPublished),
  ("batches_sent", ofNat s.batchesSent),
  ("started_at", nullable f.toValue s.startedAt),
  ("completed_at", nullable f.toValue s.completedAt),
  ("source_checksum", nullable .string s.sourceChecksum)]

def FileProcessingStatus.ofValue (f : TimeFormat) (v : Value) : Option FileProcessingStatus := do
  let es ← v.asObject
  let status ← es.required "status" PhaseStatus.ofValue
  let recordsExtracted ← es.required "records_extracted" asNat
  let messagesPublished ← es.required "messages_published" asNat
  let batchesSent ← es.required "batches_sent" asNat
  let startedAt ← es.optional "started_at" f.ofValue
  let completedAt ← es.optional "completed_at" f.ofValue
  let sourceChecksum ← es.withDefault "source_checksum" (asNullable asStr) none
  return {
    status, recordsExtracted, messagesPublished, batchesSent, startedAt, completedAt,
    sourceChecksum }

def ProcessingPhase.toValue (f : TimeFormat) (p : ProcessingPhase) : Value := .object [
  ("status", p.status.toValue),
  ("started_at", nullable f.toValue p.startedAt),
  ("completed_at", nullable f.toValue p.completedAt),
  ("files_processed", ofNat p.filesProcessed),
  ("files_total", ofNat p.filesTotal),
  ("records_extracted", ofNat p.recordsExtracted),
  ("current_file", nullable .string p.currentFile),
  ("progress_by_file", ofTable (FileProcessingStatus.toValue f) p.progressByFile),
  ("errors", ofElements .string p.errors)]

def ProcessingPhase.ofValue (f : TimeFormat) (v : Value) : Option ProcessingPhase := do
  let es ← v.asObject
  let status ← es.required "status" PhaseStatus.ofValue
  let startedAt ← es.optional "started_at" f.ofValue
  let completedAt ← es.optional "completed_at" f.ofValue
  let filesProcessed ← es.required "files_processed" asNat
  let filesTotal ← es.required "files_total" asNat
  let recordsExtracted ← es.required "records_extracted" asNat
  let currentFile ← es.optional "current_file" asStr
  let progressByFile ← es.required "progress_by_file" (asTable (FileProcessingStatus.ofValue f))
  let errors ← es.required "errors" (asElements asStr)
  return {
    status, startedAt, completedAt, filesProcessed, filesTotal, recordsExtracted,
    currentFile, progressByFile, errors }

def PublishingPhase.toValue (f : TimeFormat) (p : PublishingPhase) : Value := .object [
  ("status", p.status.toValue),
  ("messages_published", ofNat p.messagesPublished),
  ("batches_sent", ofNat p.batchesSent),
  ("errors", ofElements .string p.errors),
  ("last_amqp_heartbeat", nullable f.toValue p.lastAmqpHeartbeat)]

def PublishingPhase.ofValue (f : TimeFormat) (v : Value) : Option PublishingPhase := do
  let es ← v.asObject
  let status ← es.required "status" PhaseStatus.ofValue
  let messagesPublished ← es.required "messages_published" asNat
  let batchesSent ← es.required "batches_sent" asNat
  let errors ← es.required "errors" (asElements asStr)
  let lastAmqpHeartbeat ← es.optional "last_amqp_heartbeat" f.ofValue
  return { status, messagesPublished, batchesSent, errors, lastAmqpHeartbeat }

def ExtractionSummary.toValue (f : FloatFormat) (s : ExtractionSummary) : Value := .object [
  ("overall_status", s.overallStatus.toValue),
  ("total_duration_seconds", nullable f.toValue s.totalDurationSeconds),
  ("files_by_type", ofTable PhaseStatus.toValue s.filesByType)]

def ExtractionSummary.ofValue (f : FloatFormat) (v : Value) : Option ExtractionSummary := do
  let es ← v.asObject
  let overallStatus ← es.required "overall_status" PhaseStatus.ofValue
  let totalDurationSeconds ← es.optional "total_duration_seconds" f.ofValue
  let filesByType ← es.required "files_by_type" (asTable PhaseStatus.ofValue)
  return { overallStatus, totalDurationSeconds, filesByType }

def StateMarker.toValue (f : MarkerFormat) (m : StateMarker) : Value := .object [
  ("metadata_version", .string m.metadataVersion),
  ("last_updated", f.times.toValue m.lastUpdated),
  ("current_version", .string m.currentVersion),
  ("download_phase", m.downloadPhase.toValue f.times),
  ("processing_phase", m.processingPhase.toValue f.times),
  ("publishing_phase", m.publishingPhase.toValue f.times),
  ("summary", m.summary.toValue f.floats)]

def StateMarker.ofValue (f : MarkerFormat) (v : Value) : Option StateMarker := do
  let es ← v.asObject
  let metadataVersion ← es.required "metadata_version" Value.asStr
  let lastUpdated ← es.required "last_updated" f.times.ofValue
  let currentVersion ← es.required "current_version" Value.asStr
  let downloadPhase ← es.required "download_phase" (DownloadPhase.ofValue f.times)
  let processingPhase ← es.required "processing_phase" (ProcessingPhase.ofValue f.times)
  let publishingPhase ← es.required "publishing_phase" (PublishingPhase.ofValue f.times)
  let summary ← es.required "summary" (ExtractionSummary.ofValue f.floats)
  return {
    metadataVersion, lastUpdated, currentVersion, downloadPhase, processingPhase,
    publishingPhase, summary }

end Records

/-! ## Counters and doubles in their types -/

def FileDownloadStatus.Bounded (s : FileDownloadStatus) : Prop := s.bytesDownloaded < 2 ^ 64

structure DownloadPhase.Bounded (p : DownloadPhase) : Prop where
  filesDownloaded : p.filesDownloaded < 2 ^ 64
  filesTotal : p.filesTotal < 2 ^ 64
  bytesDownloaded : p.bytesDownloaded < 2 ^ 64
  files : ∀ k s, p.downloadsByFile.lookup k = some s → s.Bounded

structure FileProcessingStatus.Bounded (s : FileProcessingStatus) : Prop where
  recordsExtracted : s.recordsExtracted < 2 ^ 64
  messagesPublished : s.messagesPublished < 2 ^ 64
  batchesSent : s.batchesSent < 2 ^ 64

structure ProcessingPhase.Bounded (p : ProcessingPhase) : Prop where
  filesProcessed : p.filesProcessed < 2 ^ 64
  filesTotal : p.filesTotal < 2 ^ 64
  recordsExtracted : p.recordsExtracted < 2 ^ 64
  files : ∀ k s, p.progressByFile.lookup k = some s → s.Bounded

structure PublishingPhase.Bounded (p : PublishingPhase) : Prop where
  messagesPublished : p.messagesPublished < 2 ^ 64
  batchesSent : p.batchesSent < 2 ^ 64

def ExtractionSummary.Bounded (s : ExtractionSummary) : Prop :=
  ∀ q, s.totalDurationSeconds = some q → WholeSeconds q

/-- The end of a version, whose phases were stamped with nanoseconds of the same years. -/
theorem StateMarker.bounded_completeExtraction {m : StateMarker} (h : m.summary.Bounded)
    (hstart : ∀ t : Nat, m.downloadPhase.startedAt = some t → t < 2 ^ 53 * 1000000000)
    (hfinish : ∀ t : Nat, m.processingPhase.completedAt = some t → t < 2 ^ 53 * 1000000000) :
    m.completeExtraction.summary.Bounded := by
  intro q hq
  unfold completeExtraction at hq
  dsimp only at hq
  split at hq
  · next start finish hstarted hfinished =>
    cases hq
    refine ⟨((finish : Int) - start).tdiv 1000000000, ?_, rfl⟩
    have hspan : ((finish : Int) - start).natAbs < 2 ^ 53 * 1000000000 := by
      have hs := hstart start hstarted
      have hf := hfinish finish hfinished
      omega
    rw [Int.natAbs_tdiv]
    exact (Nat.div_lt_iff_lt_mul (by decide)).mpr hspan
  · exact h q hq

structure StateMarker.Bounded (m : StateMarker) : Prop where
  download : m.downloadPhase.Bounded
  processing : m.processingPhase.Bounded
  publishing : m.publishingPhase.Bounded
  summary : m.summary.Bounded

/-! ## Equal up to the order of the tables -/

def DownloadPhase.Same (p q : DownloadPhase) : Prop :=
  p = { q with downloadsByFile := p.downloadsByFile } ∧
    ∀ k, p.downloadsByFile.lookup k = q.downloadsByFile.lookup k

def ProcessingPhase.Same (p q : ProcessingPhase) : Prop :=
  p = { q with progressByFile := p.progressByFile } ∧
    ∀ k, p.progressByFile.lookup k = q.progressByFile.lookup k

def ExtractionSummary.Same (s t : ExtractionSummary) : Prop :=
  s = { t with filesByType := s.filesByType } ∧
    ∀ k, s.filesByType.lookup k = t.filesByType.lookup k

structure StateMarker.Same (m m' : StateMarker) : Prop where
  metadataVersion : m.metadataVersion = m'.metadataVersion
  lastUpdated : m.lastUpdated = m'.lastUpdated
  currentVersion : m.currentVersion = m'.currentVersion
  download : m.downloadPhase.Same m'.downloadPhase
  processing : m.processingPhase.Same m'.processingPhase
  publishing : m.publishingPhase = m'.publishingPhase
  summary : m.summary.Same m'.summary

/-! ## Round trips -/

section RoundTrip

open Value

variable {f : TimeFormat}

theorem asNullable_time (t : Option DateTime) :
    asNullable f.ofValue (nullable f.toValue t) = some t :=
  asNullable_nullable (fun t _ => f.ofValue_toValue t) fun t h => by cases h

theorem asNullable_string (s : Option String) :
    asNullable asStr (nullable .string s) = some s :=
  asNullable_nullable (fun _ _ => rfl) fun s h => by cases h

theorem asElements_strings (ss : List String) :
    asElements asStr (ofElements .string ss) = some ss :=
  asElements_ofElements fun _ _ => rfl

theorem FileDownloadStatus.ofValue_toValue {s : FileDownloadStatus} (h : s.Bounded) :
    FileDownloadStatus.ofValue f (s.toValue f) = some s := by
  simp [ofValue, toValue, asObject, Entries.required, Entries.optional, Entries.withDefault,
    Entries.occurrences, asNat_ofNat h, asNullable_time, asNullable_string]

theorem FileProcessingStatus.ofValue_toValue {s : FileProcessingStatus} (h : s.Bounded) :
    FileProcessingStatus.ofValue f (s.toValue f) = some s := by
  simp [ofValue, toValue, asObject, Entries.required, Entries.optional, Entries.withDefault,
    Entries.occurrences, asNat_ofNat h.recordsExtracted, asNat_ofNat h.messagesPublished,
    asNat_ofNat h.batchesSent, asNullable_time, asNullable_string]

theorem DownloadPhase.ofValue_toValue {p : DownloadPhase} (h : p.Bounded) :
    ∃ p', DownloadPhase.ofValue f (p.toValue f) = some p' ∧ p'.Same p := by
  have hstatus : ∀ k s, p.downloadsByFile.lookup k = some s →
      FileDownloadStatus.ofValue f (s.toValue f) = some s :=
    fun k s hs => FileDownloadStatus.ofValue_toValue (h.files k s hs)
  obtain ⟨files, hfiles, hlookup⟩ := asTable_ofTable hstatus
  refine ⟨{ p with downloadsByFile := files }, ?_, rfl, hlookup⟩
  simp [ofValue, toValue, asObject, Entries.required, Entries.optional, Entries.occurrences,
    asNat_ofNat h.filesDownloaded, asNat_ofNat h.filesTotal, asNat_ofNat h.bytesDownloaded,
    asNullable_time, asElements_strings, hfiles]

theorem ProcessingPhase.ofValue_toValue {p : ProcessingPhase} (h : p.Bounded) :
    ∃ p', ProcessingPhase.ofValue f (p.toValue f) = some p' ∧ p'.Same p := by
  have hstatus : ∀ k s, p.progressByFile.lookup k = some s →
      FileProcessingStatus.ofValue f (s.toValue f) = some s :=
    fun k s hs => FileProcessingStatus.ofValue_toValue (h.files k s hs)
  obtain ⟨files, hfiles, hlookup⟩ := asTable_ofTable hstatus
  refine ⟨{ p with progressByFile := files }, ?_, rfl, hlookup⟩
  simp [ofValue, toValue, asObject, Entries.required, Entries.optional, Entries.occurrences,
    asNat_ofNat h.filesProcessed, asNat_ofNat h.filesTotal, asNat_ofNat h.recordsExtracted,
    asNullable_time, asNullable_string, asElements_strings, hfiles]

theorem PublishingPhase.ofValue_toValue {p : PublishingPhase} (h : p.Bounded) :
    PublishingPhase.ofValue f (p.toValue f) = some p := by
  simp [ofValue, toValue, asObject, Entries.required, Entries.optional, Entries.occurrences,
    asNat_ofNat h.messagesPublished, asNat_ofNat h.batchesSent, asNullable_time, asElements_strings]

theorem ExtractionSummary.ofValue_toValue {f : FloatFormat} {s : ExtractionSummary}
    (h : s.Bounded) : ∃ s', ExtractionSummary.ofValue f (s.toValue f) = some s' ∧ s'.Same s := by
  have hduration : asNullable f.ofValue (nullable f.toValue s.totalDurationSeconds) =
      some s.totalDurationSeconds :=
    asNullable_nullable (fun q hq => f.ofValue_toValue (h q hq)) fun q hq => by cases hq
  obtain ⟨files, hfiles, hlookup⟩ := asTable_ofTable
    fun k status (_ : s.filesByType.lookup k = some status) => PhaseStatus.ofValue_toValue status
  refine ⟨{ s with filesByType := files }, ?_, rfl, hlookup⟩
  simp [ofValue, toValue, asObject, Entries.required, Entries.optional, Entries.occurrences,
    hduration, hfiles]

/-- A marker is read back with every phase and table it was written with. -/
theorem StateMarker.ofValue_toValue {f : MarkerFormat} {m : StateMarker} (h : m.Bounded) :
    ∃ m', StateMarker.ofValue f (m.toValue f) = some m' ∧ m'.Same m := by
  obtain ⟨download, hdownload, hsameDownload⟩ := DownloadPhase.ofValue_toValue (f := f.times) h.download
  obtain ⟨processing, hprocessing, hsameProcessing⟩ :=
    ProcessingPhase.ofValue_toValue (f := f.times) h.processing
  obtain ⟨summary, hsummary, hsameSummary⟩ :=
    ExtractionSummary.ofValue_toValue (f := f.floats) h.summary
  have hpublishing := PublishingPhase.ofValue_toValue (f := f.times) h.publishing
  refine ⟨{ m with downloadPhase := download, processingPhase := processing, summary := summary },
    ?_, ⟨rfl, rfl, rfl, hsameDownload, hsameProcessing, rfl, hsameSummary⟩⟩
  simp [ofValue, toValue, asObject, asStr, Entries.required, Entries.occurrences, hdownload,
    hprocessing, hpublishing, hsummary]

end RoundTrip

end MusicbrainzIngestion
