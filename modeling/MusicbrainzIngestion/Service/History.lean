import MusicbrainzIngestion.Pipeline.Soundness
import MusicbrainzIngestion.Service.Moves
import MusicbrainzIngestion.StateMarker.Operations

/-! What happens to the files of a run, in order, and the marker that follows from it. The
marker at any point is determined, up to the times in it, by the marker the loop began with and
by the events since; only the totals of the phases depend on more than what each file came to. -/

namespace MusicbrainzIngestion
open Base

/-- The totals that the phases keep over the table of files. -/
inductive Total where
  | records
  | messages
  | batches
deriving DecidableEq, Repr

namespace Total

def ofFile : Total → FileProcessingStatus → Nat
  | .records => FileProcessingStatus.recordsExtracted
  | .messages => FileProcessingStatus.messagesPublished
  | .batches => FileProcessingStatus.batchesSent

def ofMarker : Total → StateMarker → Nat
  | .records => fun m => m.processingPhase.recordsExtracted
  | .messages => fun m => m.publishingPhase.messagesPublished
  | .batches => fun m => m.publishingPhase.batchesSent

/-- The sum over the table. -/
def ofTable (c : Total) (m : StateMarker) : Nat :=
  Table.sumBy c.ofFile m.processingPhase.progressByFile

end Total

/-! ## Events -/

inductive FileEvent where
  | started (dt : DataType)
  | updated (dt : DataType) (records batches : Nat)
  | faulted (dt : DataType)
  | completed (dt : DataType) (records : Nat)
  | ended (dt : DataType) (totalCount : Nat)
  | announced (delivered : Bool)
deriving DecidableEq, Repr

namespace Tasks

/-- The batcher updated the marker: at a checkpoint, or before it returned. -/
def updates (t t' : Tasks) : Bool :=
  match t.batcher.phase, t'.batcher.phase with
  | .checkpointing, .receiving => true
  | .checkpointing, .flushing _ _ => true
  | .saving, .done (.returned _) => true
  | _, _ => false

/-- A task ended without returning, or the completion of the file was not delivered. -/
def faults (t : Tasks) (l : Pipeline.Label) (t' : Tasks) : Bool :=
  match l with
  | .sendFileComplete reply => !reply.delivered
  | _ => t.healthy && !t'.healthy

/-- The file was marked as processed. -/
def completes (t t' : Tasks) : Option Nat :=
  match t.main, t'.main with
  | .marking _ _, .finished true totalCount _ => some totalCount
  | _, _ => none

def events (dt : DataType) (t : Tasks) (l : Pipeline.Label) (t' : Tasks) : List FileEvent :=
  (if t.updates t' then [.updated dt t.batcher.totalRecords t.batcher.totalBatches] else []) ++
    (if t.faults l t' then [.faulted dt] else []) ++
    (match t.completes t' with
      | some totalCount => [.completed dt totalCount]
      | none => [])

end Tasks

/-- What a step of a run does to the files of its loop. -/
def Service.events (s : Service) (l : Service.Label) (t : Service) : List FileEvent :=
  match s.phase, l, t.phase with
  | .looping _, .nextFile _, .processing dt _ _ _ => [.started dt]
  | .processing dt _ _ tasks, .pipeline l, .processing _ _ _ tasks' => tasks.events dt l tasks'
  | .processing dt _ _ tasks, .fileDone, .looping _ =>
    match tasks.main with
    | .finished _ totalCount _ => [.ended dt totalCount]
    | _ => []
  | .announcing _ _ _, .announce reply, _ => [.announced reply.delivered]
  | _, _, _ => []

/-! ## What a history says -/

namespace FileEvent

/-- The file the event is about. -/
def about : FileEvent → Option DataType
  | .started dt => some dt
  | .updated dt _ _ => some dt
  | .faulted dt => some dt
  | .completed dt _ => some dt
  | .ended dt _ => some dt
  | .announced _ => none

def file : FileEvent → Option DataType
  | .started dt => some dt
  | _ => none

def update (dt : DataType) : FileEvent → Option (Nat × Nat)
  | .updated dt' records batches => if dt' = dt then some (records, batches) else none
  | _ => none

def completion (dt : DataType) : FileEvent → Option Nat
  | .completed dt' records => if dt' = dt then some records else none
  | _ => none

def ending (dt : DataType) : FileEvent → Option Nat
  | .ended dt' totalCount => if dt' = dt then some totalCount else none
  | _ => none

def delivery : FileEvent → Option Bool
  | .announced delivered => some delivered
  | _ => none

end FileEvent

namespace History

variable {α : Type}

def latest (f : FileEvent → Option α) (h : List FileEvent) : Option α := (h.filterMap f).getLast?

theorem latest_snoc (f : FileEvent → Option α) (h : List FileEvent) (e : FileEvent) :
    latest f (h ++ [e]) = (f e).or (latest f h) := by
  unfold latest
  rw [List.filterMap_append]
  cases hf : f e with
  | none => simp [hf]
  | some a => simp [hf]

/-- The files that were started, in order. -/
def started (h : List FileEvent) : List DataType := h.filterMap FileEvent.file

/-- The files of which a task failed or the completion was not sent. -/
def failed (h : List FileEvent) : List DataType := (started h).filter fun dt => .faulted dt ∈ h

/-- What the last update of the file counted. -/
def counts (h : List FileEvent) (dt : DataType) : Nat × Nat := (latest (FileEvent.update dt) h).getD (0, 0)

def completion (h : List FileEvent) (dt : DataType) : Option Nat := latest (FileEvent.completion dt) h

def totalCount (h : List FileEvent) (dt : DataType) : Option Nat := latest (FileEvent.ending dt) h

/-- The files that were completed. -/
def completed (h : List FileEvent) : List DataType := (started h).filter fun dt => (completion h dt).isSome

/-- How the version was announced, exchange by exchange. -/
def deliveries (h : List FileEvent) : List Bool := h.filterMap FileEvent.delivery

/-- What a total holds beyond the table: at first as much as in the marker the loop began with,
more with each file that is started over old counts, and nothing after an update. -/
def leave (dump : DumpSet) (m₀ : StateMarker) (c : Total) (left : Int) : FileEvent → Int
  | .started dt => left + ((m₀.progress (dump.fileName dt)).map c.ofFile).getD 0
  | .updated _ _ _ => 0
  | _ => left

def leftover (dump : DumpSet) (m₀ : StateMarker) (h : List FileEvent) (c : Total) : Int :=
  h.foldl (leave dump m₀ c) (c.ofMarker m₀ - c.ofTable m₀)

/-- The entry of a file that was started, without its times. -/
def entry (dump : DumpSet) (m₀ : StateMarker) (h : List FileEvent) (dt : DataType) :
    FileProcessingStatus where
  status := if (completion h dt).isSome then .completed else .inProgress
  recordsExtracted := (counts h dt).1
  messagesPublished := (counts h dt).1
  batchesSent := (counts h dt).2
  sourceChecksum := (m₀.downloadPhase.downloadsByFile.lookup (dump.fileName dt)).bind (·.checksum)

/-- The last of the files whose names give this type. -/
def lastNamed (dump : DumpSet) (k : String) (files : List DataType) : Option DataType :=
  (files.filter fun dt => extractDataType (dump.fileName dt) = some k).getLast?

/-- The status of a type in the summary is what the last started file of the type came to. -/
def fileType (dump : DumpSet) (m₀ : StateMarker) (h : List FileEvent) (k : String) : Option PhaseStatus :=
  ((lastNamed dump k (started h)).map fun dt =>
    if (completion h dt).isSome then .completed else .inProgress).or (m₀.summary.filesByType.lookup k)

section Snoc

variable (h : List FileEvent) (e : FileEvent) (dt : DataType)

theorem started_snoc : started (h ++ [e]) = started h ++ e.file.toList := by
  unfold started
  rw [List.filterMap_append]
  cases e <;> rfl

theorem counts_snoc : counts (h ++ [e]) dt = (e.update dt).getD (counts h dt) := by
  unfold counts
  rw [latest_snoc]
  cases e.update dt <;> rfl

theorem completion_snoc : completion (h ++ [e]) dt = (e.completion dt).or (completion h dt) :=
  latest_snoc _ h e

theorem totalCount_snoc : totalCount (h ++ [e]) dt = (e.ending dt).or (totalCount h dt) :=
  latest_snoc _ h e

theorem deliveries_snoc : deliveries (h ++ [e]) = deliveries h ++ e.delivery.toList := by
  unfold deliveries
  rw [List.filterMap_append]
  cases e <;> rfl

theorem mem_of_lastNamed {dump : DumpSet} {k : String} {files : List DataType} {dt : DataType}
    (h : lastNamed dump k files = some dt) :
    dt ∈ files ∧ extractDataType (dump.fileName dt) = some k := by
  simpa using List.mem_filter.mp (List.mem_of_getLast? h)

theorem lastNamed_snoc (dump : DumpSet) (k : String) (files : List DataType) (dt : DataType) :
    lastNamed dump k (files ++ [dt]) =
      if extractDataType (dump.fileName dt) = some k then some dt else lastNamed dump k files := by
  unfold lastNamed
  rw [List.filter_append]
  split
  · next hk => rw [List.filter_cons_of_pos (by simpa using hk), List.filter_nil,
      List.getLast?_concat]
  · next hk => rw [List.filter_cons_of_neg (by simpa using hk), List.filter_nil, List.append_nil]

theorem fileType_congr (dump : DumpSet) (m₀ : StateMarker) (k : String) {h h' : List FileEvent}
    (hstarted : started h' = started h)
    (hcompletion : ∀ dt, lastNamed dump k (started h) = some dt →
      (completion h' dt).isSome = (completion h dt).isSome) :
    fileType dump m₀ h' k = fileType dump m₀ h k := by
  unfold fileType
  rw [hstarted]
  cases hlast : lastNamed dump k (started h) with
  | none => rfl
  | some dt => rw [Option.map_some, Option.map_some, hcompletion dt hlast]

theorem leftover_snoc (dump : DumpSet) (m₀ : StateMarker) (c : Total) :
    leftover dump m₀ (h ++ [e]) c = leave dump m₀ c (leftover dump m₀ h c) e := by
  unfold leftover
  rw [List.foldl_append]
  rfl

/-- Without counts of earlier attempts nothing is ever left in a total. -/
theorem leftover_eq_zero {dump : DumpSet} {m₀ : StateMarker} {c : Total}
    (htotal : c.ofMarker m₀ = c.ofTable m₀)
    (hold : ∀ dt ∈ started h, ((m₀.progress (dump.fileName dt)).map c.ofFile).getD 0 = 0) :
    leftover dump m₀ h c = 0 := by
  induction h using List.reverseRecOn with
  | nil =>
    unfold leftover
    rw [List.foldl_nil, htotal]
    omega
  | append_singleton h e ih =>
    rw [started_snoc] at hold
    rw [leftover_snoc, ih fun dt hdt => hold dt (List.mem_append_left _ hdt)]
    cases e with
    | started dt =>
      have hzero := hold dt (List.mem_append_right _ (List.mem_singleton.mpr rfl))
      show (0 : Int) + (((m₀.progress (dump.fileName dt)).map c.ofFile).getD 0 : Nat) = 0
      rw [hzero]
      rfl
    | _ => rfl

end Snoc

/-- Nothing is said about the file. -/
def Unseen (h : List FileEvent) (dt : DataType) : Prop := ∀ e ∈ h, e.about ≠ some dt

theorem latest_eq_none {f : FileEvent → Option α} {h : List FileEvent} (hf : ∀ e ∈ h, f e = none) :
    latest f h = none := by
  unfold latest
  rw [List.filterMap_eq_nil_iff.mpr hf]
  rfl

variable {h : List FileEvent} {dt : DataType}

theorem Unseen.counts (hu : Unseen h dt) : History.counts h dt = (0, 0) := by
  have hnone : ∀ e ∈ h, e.update dt = none := fun e he => by
    cases e <;> simp only [FileEvent.update]
    exact if_neg fun heq => hu _ he (congrArg some heq)
  unfold History.counts
  rw [latest_eq_none hnone]
  rfl

theorem Unseen.completion (hu : Unseen h dt) : History.completion h dt = none := by
  refine latest_eq_none fun e he => ?_
  cases e <;> simp only [FileEvent.completion]
  exact if_neg fun heq => hu _ he (congrArg some heq)

theorem Unseen.totalCount (hu : Unseen h dt) : History.totalCount h dt = none := by
  refine latest_eq_none fun e he => ?_
  cases e <;> simp only [FileEvent.ending]
  exact if_neg fun heq => hu _ he (congrArg some heq)

theorem Unseen.not_started (hu : Unseen h dt) : dt ∉ started h := fun hs => by
  obtain ⟨e, he, hfile⟩ := List.mem_filterMap.mp hs
  cases e <;> cases hfile
  exact hu _ he rfl

theorem Unseen.not_faulted (hu : Unseen h dt) : .faulted dt ∉ h := fun hf => hu _ hf rfl

theorem Unseen.snoc (hu : Unseen h dt) {e : FileEvent} (he : e.about ≠ some dt) :
    Unseen (h ++ [e]) dt := fun e' he' => by
  rcases List.mem_append.mp he' with he' | he'
  · exact hu e' he'
  · rw [List.mem_singleton.mp he']
    exact he

end History

/-! ## Markers without their times -/

def FileProcessingStatus.untimed (status : FileProcessingStatus) : FileProcessingStatus :=
  { status with startedAt := none, completedAt := none }

/-- What a run leaves of a marker until it finalises it. -/
def StateMarker.skeleton (m : StateMarker) : StateMarker :=
  { m with
    lastUpdated := 0
    processingPhase := { m.processingPhase with
      filesProcessed := 0
      recordsExtracted := 0
      currentFile := none
      progressByFile := ∅ }
    publishingPhase := { m.publishingPhase with
      status := .pending
      messagesPublished := 0
      batchesSent := 0
      lastAmqpHeartbeat := none }
    summary := { m.summary with filesByType := ∅ } }

/-- Publishing is not over, and what it counted so far it shows. -/
structure StateMarker.Publishing (m : StateMarker) : Prop where
  status : m.publishingPhase.status = .pending ∨ m.publishingPhase.status = .inProgress
  shown : m.publishingPhase.status = .pending → ∀ f status, m.progress f = some status →
    status.messagesPublished = 0

/-- The second marker follows from the first by the events. -/
structure Image (dump : DumpSet) (m₀ : StateMarker) (h : List FileEvent) (m : StateMarker) : Prop where
  nodup : (History.started h).Nodup
  skeleton : m.skeleton = m₀.skeleton
  others : ∀ f, (∀ dt ∈ History.started h, f ≠ dump.fileName dt) → m.progress f = m₀.progress f
  entries : ∀ dt ∈ History.started h,
    (m.progress (dump.fileName dt)).map FileProcessingStatus.untimed = some (History.entry dump m₀ h dt)
  processed : m.processingPhase.filesProcessed =
    m₀.processingPhase.filesProcessed + (History.completed h).length
  totals : ∀ c : Total, (c.ofMarker m : Int) = c.ofTable m + History.leftover dump m₀ h c
  publishing : m₀.Publishing →
    (m.publishingPhase.status = .pending ∨ m.publishingPhase.status = .inProgress) ∧
    (m.publishingPhase.status = .pending ↔ m₀.publishingPhase.status = .pending ∧
      ∀ dt ∈ History.started h, (History.counts h dt).1 = 0)
  types : ∀ k, m.summary.filesByType.lookup k = History.fileType dump m₀ h k

namespace StateMarker

variable (m : StateMarker) (f : String) (now : DateTime)

theorem skeleton_startFileProcessing : (m.startFileProcessing f now).skeleton = m.skeleton := by
  unfold startFileProcessing setFileType
  split <;> rfl

theorem skeleton_updateFileProgress (records messages batches : Nat) :
    (m.updateFileProgress f records messages batches now).skeleton = m.skeleton := by
  unfold updateFileProgress
  dsimp only
  split <;> rfl

theorem skeleton_completeFileProcessing (records : Nat) :
    (m.completeFileProcessing f records now).skeleton = m.skeleton := by
  unfold completeFileProcessing setFileType
  split <;> rfl

theorem lookup_setFileType (status : PhaseStatus) (k : String) :
    (m.setFileType f status).summary.filesByType.lookup k =
      if extractDataType f = some k then some status else m.summary.filesByType.lookup k := by
  unfold setFileType
  cases hf : extractDataType f with
  | none => rfl
  | some k' =>
    by_cases hk : k' = k
    · rw [hk, if_pos rfl, AList.lookup_insert]
    · rw [if_neg fun hs => hk (Option.some.inj hs), AList.lookup_insert_ne (Ne.symm hk)]

theorem types_startFileProcessing (k : String) :
    (m.startFileProcessing f now).summary.filesByType.lookup k =
      if extractDataType f = some k then some .inProgress else m.summary.filesByType.lookup k := by
  unfold startFileProcessing
  rw [lookup_setFileType]

theorem types_updateFileProgress (records messages batches : Nat) :
    (m.updateFileProgress f records messages batches now).summary.filesByType =
      m.summary.filesByType := by
  unfold updateFileProgress
  dsimp only
  split <;> rfl

theorem types_completeFileProcessing (records : Nat) (k : String) :
    (m.completeFileProcessing f records now).summary.filesByType.lookup k =
      if extractDataType f = some k then some .completed else m.summary.filesByType.lookup k := by
  unfold completeFileProcessing
  rw [lookup_setFileType]
  rfl

theorem processed_updateFileProgress (records messages batches : Nat) :
    (m.updateFileProgress f records messages batches now).processingPhase.filesProcessed =
      m.processingPhase.filesProcessed := by
  unfold updateFileProgress
  dsimp only
  split <;> rfl

theorem processed_completeFileProcessing (records : Nat) :
    (m.completeFileProcessing f records now).processingPhase.filesProcessed =
      m.processingPhase.filesProcessed + 1 := by
  unfold completeFileProcessing
  rw [processingPhase_setFileType]
  rfl

/-- An update shows that publishing began, once anything was published. -/
theorem publishing_updateFileProgress (records messages batches : Nat) :
    (m.updateFileProgress f records messages batches now).publishingPhase.status =
      if 0 < Total.messages.ofTable (m.updateFileProgress f records messages batches now) then
        .inProgress
      else m.publishingPhase.status := by
  have hsum : Total.messages.ofTable (m.updateFileProgress f records messages batches now) =
      ((m.modifyProgress f fun status => { status with
        recordsExtracted := records, messagesPublished := messages,
        batchesSent := batches }).syncPhaseTotals).publishingPhase.messagesPublished := by
    unfold updateFileProgress
    dsimp only
    split <;> rfl
  rw [hsum]
  unfold updateFileProgress
  dsimp only
  split <;> rfl

theorem publishing_completeFileProcessing (records : Nat) :
    (m.completeFileProcessing f records now).publishingPhase.status = m.publishingPhase.status := by
  unfold completeFileProcessing setFileType
  split <;> rfl

theorem total_startFileProcessing (c : Total) :
    c.ofMarker (m.startFileProcessing f now) = c.ofMarker m := by
  obtain ⟨hrecords, -, hpublishing⟩ := totals_startFileProcessing (m := m) (f := f) now
  cases c with
  | records => exact hrecords
  | messages => exact congrArg PublishingPhase.messagesPublished hpublishing
  | batches => exact congrArg PublishingPhase.batchesSent hpublishing

theorem total_updateFileProgress (c : Total) (records messages batches : Nat) :
    c.ofMarker (m.updateFileProgress f records messages batches now) =
      c.ofTable (m.updateFileProgress f records messages batches now) := by
  unfold updateFileProgress
  dsimp only
  split <;> cases c <;> rfl

theorem total_completeFileProcessing (c : Total) (records : Nat) :
    c.ofMarker (m.completeFileProcessing f records now) =
      c.ofTable (m.completeFileProcessing f records now) := by
  unfold completeFileProcessing setFileType
  split <;> cases c <;> rfl

end StateMarker

/-! ## What an operation does to the image -/

namespace Image

variable {dump : DumpSet} {m₀ m : StateMarker} {h : List FileEvent} {dt dt' : DataType}

theorem entry_congr {h' : List FileEvent} (hcounts : History.counts h' dt = History.counts h dt)
    (hcompletion : History.completion h' dt = History.completion h dt) :
    History.entry dump m₀ h' dt = History.entry dump m₀ h dt := by
  unfold History.entry
  rw [hcounts, hcompletion]

theorem fileName_ne (hne : dt' ≠ dt) : dump.fileName dt' ≠ dump.fileName dt := fun heq =>
  hne (dump.fileName_injective heq)

theorem download (hi : Image dump m₀ h m) : m.downloadPhase = m₀.downloadPhase := by
  have hsame := congrArg StateMarker.downloadPhase hi.skeleton
  exact hsame

/-- A file that was not started is as it was. -/
theorem untouched (hi : Image dump m₀ h m) (hdt : dt ∉ History.started h) :
    m.progress (dump.fileName dt) = m₀.progress (dump.fileName dt) :=
  hi.others _ fun _ hdt' => fileName_ne fun heq => hdt (heq ▸ hdt')

theorem refl (m : StateMarker) : Image dump m [] m where
  nodup := List.nodup_nil
  skeleton := rfl
  others _ _ := rfl
  entries _ hdt := nomatch hdt
  processed := rfl
  totals c := by
    unfold History.leftover
    simp
  publishing hp := ⟨hp.status, fun hs => ⟨hs, fun _ hdt => nomatch hdt⟩, fun hs => hs.1⟩
  types _ := rfl

/-- One more element of a list without duplicates meets the condition. -/
theorem length_filter_succ {p q : DataType → Bool} {files : List DataType} (hn : files.Nodup)
    (hdt : dt ∈ files) (hp : p dt = false) (hq : q dt = true) (hsame : ∀ dt', dt' ≠ dt → q dt' = p dt') :
    (files.filter q).length = (files.filter p).length + 1 := by
  induction files with
  | nil => cases hdt
  | cons x files ih =>
    obtain ⟨hnot, hn⟩ := List.nodup_cons.mp hn
    rcases List.mem_cons.mp hdt with rfl | hdt
    · have hrest : files.filter q = files.filter p :=
        List.filter_congr fun dt' hdt' => hsame dt' fun heq => hnot (heq ▸ hdt')
      rw [List.filter_cons_of_pos hq, List.filter_cons_of_neg (by simp [hp]), hrest, List.length_cons]
    · have hx := hsame x fun heq => hnot (heq ▸ hdt)
      cases hpx : p x with
      | true =>
        rw [List.filter_cons_of_pos (hx.trans hpx), List.filter_cons_of_pos hpx, List.length_cons,
          List.length_cons, ih hn hdt]
      | false =>
        rw [List.filter_cons_of_neg (by simp [hx, hpx]), List.filter_cons_of_neg (by simp [hpx]),
          ih hn hdt]

/-- Nothing is written: a task fails, the loop takes a file's count, the version is announced. -/
theorem silent (hi : Image dump m₀ h m) {e : FileEvent} (hfile : e.file = none)
    (hupdate : ∀ dt, e.update dt = none) (hcompletion : ∀ dt, e.completion dt = none)
    (hleft : ∀ c left, History.leave dump m₀ c left e = left) :
    Image dump m₀ (h ++ [e]) m := by
  have hstarted : History.started (h ++ [e]) = History.started h := by
    rw [History.started_snoc, hfile, Option.toList_none, List.append_nil]
  have hcounts : ∀ dt, History.counts (h ++ [e]) dt = History.counts h dt := fun dt => by
    rw [History.counts_snoc, hupdate]
    rfl
  have hcompletion' : ∀ dt, History.completion (h ++ [e]) dt = History.completion h dt :=
    fun dt => by
      rw [History.completion_snoc, hcompletion]
      rfl
  refine ⟨by rw [hstarted]; exact hi.nodup, hi.skeleton, ?_, fun dt hdt => ?_, ?_, fun c => ?_,
    fun hp => ?_, fun k => ?_⟩
  · rw [hstarted]
    exact hi.others
  · rw [hstarted] at hdt
    rw [entry_congr (hcounts dt) (hcompletion' dt)]
    exact hi.entries dt hdt
  · unfold History.completed
    rw [hstarted]
    simp only [hcompletion']
    exact hi.processed
  · rw [History.leftover_snoc, hleft]
    exact hi.totals c
  · rw [hstarted]
    simp only [hcounts]
    exact hi.publishing hp
  · rw [History.fileType_congr dump m₀ k hstarted fun dt _ => by rw [hcompletion']]
    exact hi.types k

theorem stamped (hi : Image dump m₀ h m) (now : DateTime) : Image dump m₀ h (m.stamped now) :=
  ⟨hi.nodup, hi.skeleton, hi.others, hi.entries, hi.processed, fun c => by
    have hc := hi.totals c
    cases c <;> exact hc, hi.publishing, hi.types⟩

/-- A file is started, over whatever was recorded for it. -/
theorem start (hi : Image dump m₀ h m) (hu : History.Unseen h dt) (now : DateTime) :
    Image dump m₀ (h ++ [.started dt]) (m.startFileProcessing (dump.fileName dt) now) := by
  have hstarted : History.started (h ++ [.started dt]) = History.started h ++ [dt] :=
    History.started_snoc h _
  have hne : ∀ dt' ∈ History.started h, dt' ≠ dt := fun dt' hdt' heq =>
    hu.not_started (heq ▸ hdt')
  have hcounts : ∀ dt', History.counts (h ++ [.started dt]) dt' = History.counts h dt' :=
    fun dt' => History.counts_snoc h _ dt'
  have hcompletion : ∀ dt', History.completion (h ++ [.started dt]) dt' = History.completion h dt' :=
    fun dt' => History.completion_snoc h _ dt'
  obtain ⟨-, hprocessed, hpublishing⟩ :=
    StateMarker.totals_startFileProcessing (m := m) (f := dump.fileName dt) now
  refine ⟨?_, (m.skeleton_startFileProcessing _ now).trans hi.skeleton, fun f hf => ?_,
    fun dt' hdt' => ?_, ?_, fun c => ?_, fun hp => ?_, fun k => ?_⟩
  · rw [hstarted]
    exact List.nodup_append_comm.mp (List.nodup_cons.mpr ⟨hu.not_started, hi.nodup⟩)
  · rw [hstarted] at hf
    rw [StateMarker.progress_startFileProcessing, if_neg (hf dt (by simp))]
    exact hi.others f fun dt' hdt' => hf dt' (List.mem_append_left _ hdt')
  · rw [entry_congr (hcounts dt') (hcompletion dt'), StateMarker.progress_startFileProcessing]
    rw [hstarted] at hdt'
    rcases List.mem_append.mp hdt' with hdt' | hdt'
    · rw [if_neg (fileName_ne (hne dt' hdt'))]
      exact hi.entries dt' hdt'
    · rw [List.mem_singleton.mp hdt', if_pos rfl, hi.download]
      unfold History.entry
      rw [hu.counts, hu.completion]
      rfl
  · rw [hprocessed, hi.processed]
    unfold History.completed
    rw [hstarted]
    simp only [hcompletion, List.filter_append]
    rw [List.filter_cons_of_neg (by rw [hu.completion]; simp), List.filter_nil, List.append_nil]
  · have hzero : c.ofFile (m.startedEntry (dump.fileName dt) now) = 0 := by cases c <;> rfl
    have hsum := StateMarker.sumBy_startFileProcessing (m := m) (f := dump.fileName dt) c.ofFile now
      hzero
    have htotal := hi.totals c
    rw [hi.untouched hu.not_started] at hsum
    rw [StateMarker.total_startFileProcessing, History.leftover_snoc]
    unfold Total.ofTable at htotal ⊢
    simp only [History.leave]
    omega
  · obtain ⟨hopen, hiff⟩ := hi.publishing hp
    rw [hpublishing, hstarted]
    refine ⟨hopen, hiff.trans (and_congr_right fun _ => ⟨fun hall dt' hdt' => ?_, fun hall dt' hdt' => ?_⟩)⟩
    · rw [hcounts]
      rcases List.mem_append.mp hdt' with hdt' | hdt'
      · exact hall dt' hdt'
      · rw [List.mem_singleton.mp hdt', hu.counts]
    · rw [← hcounts]
      exact hall dt' (List.mem_append_left _ hdt')
  · rw [StateMarker.types_startFileProcessing, hi.types]
    unfold History.fileType
    rw [hstarted, History.lastNamed_snoc]
    simp only [hcompletion]
    split
    · rw [Option.map_some, hu.completion]
      rfl
    · rfl

/-- While nothing is published and nothing is counted for the files, the table has no messages. -/
theorem no_messages (hp : m₀.Publishing) (hpending : m₀.publishingPhase.status = .pending)
    {files : List DataType}
    (hothers : ∀ f, (∀ dt ∈ files, f ≠ dump.fileName dt) → m.progress f = m₀.progress f)
    (hentries : ∀ dt ∈ files, (m.progress (dump.fileName dt)).map FileProcessingStatus.untimed =
      some (History.entry dump m₀ h dt))
    (hzero : ∀ dt ∈ files, (History.counts h dt).1 = 0) : Total.messages.ofTable m = 0 := by
  refine Table.sumBy_eq_zero FileProcessingStatus.messagesPublished _ fun f status hstatus => ?_
  by_cases hf : ∃ dt ∈ files, f = dump.fileName dt
  · obtain ⟨dt, hdt, rfl⟩ := hf
    have hentry := hentries dt hdt
    rw [show m.progress (dump.fileName dt) = some status from hstatus] at hentry
    have hmessages := congrArg FileProcessingStatus.messagesPublished (Option.some.inj hentry)
    exact hmessages.trans (hzero dt hdt)
  · refine hp.shown hpending f status ?_
    rw [← hothers f fun dt hdt heq => hf ⟨dt, hdt, heq⟩]
    exact hstatus

/-- The batcher's counts are written for a file that is not completed. -/
theorem update (hi : Image dump m₀ h m) (hdt : dt ∈ History.started h)
    (hopen : History.completion h dt = none) {records : Nat}
    (hgrows : (History.counts h dt).1 ≤ records) (batches : Nat) (now : DateTime) :
    Image dump m₀ (h ++ [.updated dt records batches])
      (m.updateFileProgress (dump.fileName dt) records records batches now) := by
  have hstarted : History.started (h ++ [.updated dt records batches]) = History.started h :=
    (History.started_snoc h _).trans (List.append_nil _)
  have hcounts : ∀ dt', History.counts (h ++ [.updated dt records batches]) dt' =
      if dt' = dt then (records, batches) else History.counts h dt' := fun dt' => by
    rw [History.counts_snoc, FileEvent.update]
    by_cases heq : dt = dt'
    · rw [if_pos heq, if_pos heq.symm]
      rfl
    · rw [if_neg heq, if_neg (Ne.symm heq)]
      rfl
  have hcompletion : ∀ dt', History.completion (h ++ [.updated dt records batches]) dt' =
      History.completion h dt' := fun dt' => History.completion_snoc h _ dt'
  obtain ⟨status, hstatus, huntimed⟩ := Option.map_eq_some_iff.mp (hi.entries dt hdt)
  have hprogress : ∀ f, (m.updateFileProgress (dump.fileName dt) records records batches
      now).progress f = if f = dump.fileName dt then some { status with
        recordsExtracted := records, messagesPublished := records, batchesSent := batches }
      else m.progress f := fun f => by
    rw [StateMarker.progress_updateFileProgress, hstatus]
    rfl
  have hentries : ∀ dt' ∈ History.started h, ((m.updateFileProgress (dump.fileName dt) records records
      batches now).progress (dump.fileName dt')).map FileProcessingStatus.untimed =
      some (History.entry dump m₀ (h ++ [.updated dt records batches]) dt') := by
    intro dt' hdt'
    rw [hprogress]
    by_cases heq : dt' = dt
    · subst heq
      rw [if_pos rfl]
      unfold History.entry at huntimed ⊢
      rw [hcounts, if_pos rfl, hcompletion]
      simp only [FileProcessingStatus.untimed, FileProcessingStatus.mk.injEq] at huntimed
      obtain ⟨hs, -, -, -, -, -, hsource⟩ := huntimed
      simp only [Option.map_some, FileProcessingStatus.untimed, hs, hsource]
    · rw [if_neg (fileName_ne heq), entry_congr (by rw [hcounts, if_neg heq]) (hcompletion dt')]
      exact hi.entries dt' hdt'
  have hothers : ∀ f, (∀ dt' ∈ History.started h, f ≠ dump.fileName dt') →
      (m.updateFileProgress (dump.fileName dt) records records batches now).progress f =
        m₀.progress f := fun f hf => by
    rw [hprogress, if_neg (hf dt hdt)]
    exact hi.others f hf
  refine ⟨by rw [hstarted]; exact hi.nodup,
    (m.skeleton_updateFileProgress _ now _ _ _).trans hi.skeleton, by rw [hstarted]; exact hothers,
    by rw [hstarted]; exact hentries, ?_, fun c => ?_, fun hp => ?_, fun k => ?_⟩
  · rw [StateMarker.processed_updateFileProgress, hi.processed]
    unfold History.completed
    rw [hstarted]
    simp only [hcompletion]
  · rw [StateMarker.total_updateFileProgress, History.leftover_snoc]
    simp [History.leave]
  · obtain ⟨hopen', hiff⟩ := hi.publishing hp
    rw [StateMarker.publishing_updateFileProgress, hstarted]
    have hmine : records ≤ Total.messages.ofTable
        (m.updateFileProgress (dump.fileName dt) records records batches now) :=
      Table.le_sumBy FileProcessingStatus.messagesPublished _ (k := dump.fileName dt)
        ((hprogress _).trans (if_pos rfl))
    by_cases hsum : 0 < Total.messages.ofTable
        (m.updateFileProgress (dump.fileName dt) records records batches now)
    · rw [if_pos hsum]
      refine ⟨Or.inr rfl, iff_of_false (fun hs => nomatch hs) fun ⟨hpending, hzero⟩ => ?_⟩
      exact absurd (no_messages hp hpending hothers hentries hzero) (Nat.ne_of_gt hsum)
    · rw [if_neg hsum]
      refine ⟨hopen', hiff.trans (and_congr_right fun _ => forall_congr' fun dt' =>
        imp_congr_right fun _ => ?_)⟩
      rw [hcounts]
      by_cases heq : dt' = dt
      · subst heq
        rw [if_pos rfl]
        constructor <;> intro <;> omega
      · rw [if_neg heq]
  · rw [StateMarker.types_updateFileProgress,
      History.fileType_congr dump m₀ k hstarted fun dt' _ => by rw [hcompletion]]
    exact hi.types k

/-- The file in work, whose last update counted everything, is completed. -/
theorem complete (hi : Image dump m₀ h m) (hlast : (History.started h).getLast? = some dt)
    (hopen : History.completion h dt = none) {records : Nat}
    (hall : (History.counts h dt).1 = records) (hleft : ∀ c, History.leftover dump m₀ h c = 0)
    (now : DateTime) :
    Image dump m₀ (h ++ [.completed dt records])
      (m.completeFileProcessing (dump.fileName dt) records now) := by
  have hdt : dt ∈ History.started h := List.mem_of_getLast? hlast
  have hstarted : History.started (h ++ [.completed dt records]) = History.started h :=
    (History.started_snoc h _).trans (List.append_nil _)
  have hcounts : ∀ dt', History.counts (h ++ [.completed dt records]) dt' = History.counts h dt' :=
    fun dt' => History.counts_snoc h _ dt'
  have hcompletion : ∀ dt', History.completion (h ++ [.completed dt records]) dt' =
      if dt' = dt then some records else History.completion h dt' := fun dt' => by
    rw [History.completion_snoc, FileEvent.completion]
    by_cases heq : dt = dt'
    · rw [if_pos heq, if_pos heq.symm]
      rfl
    · rw [if_neg heq, if_neg (Ne.symm heq)]
      rfl
  obtain ⟨status, hstatus, huntimed⟩ := Option.map_eq_some_iff.mp (hi.entries dt hdt)
  refine ⟨by rw [hstarted]; exact hi.nodup,
    (m.skeleton_completeFileProcessing _ now _).trans hi.skeleton, fun f hf => ?_,
    fun dt' hdt' => ?_, ?_, fun c => ?_, fun hp => ?_, fun k => ?_⟩
  · rw [hstarted] at hf
    rw [StateMarker.progress_completeFileProcessing, if_neg (hf dt hdt)]
    exact hi.others f hf
  · rw [hstarted] at hdt'
    rw [StateMarker.progress_completeFileProcessing]
    by_cases heq : dt' = dt
    · subst heq
      rw [if_pos rfl, hstatus]
      unfold History.entry at huntimed ⊢
      rw [hcounts, hcompletion, if_pos rfl]
      simp only [FileProcessingStatus.untimed, FileProcessingStatus.mk.injEq] at huntimed
      obtain ⟨-, -, hmessages, hbatches, -, -, hsource⟩ := huntimed
      simp only [Option.map_some, FileProcessingStatus.untimed, hmessages, hbatches, hsource, hall,
        Option.isSome_some, if_true]
      split <;> rfl
    · rw [if_neg (fileName_ne heq), entry_congr (hcounts dt') (by rw [hcompletion, if_neg heq])]
      exact hi.entries dt' hdt'
  · rw [StateMarker.processed_completeFileProcessing, hi.processed]
    unfold History.completed
    rw [hstarted, Nat.add_assoc]
    refine congrArg _ (Eq.symm ?_)
    refine length_filter_succ hi.nodup hdt (by rw [hopen]; rfl) (by rw [hcompletion, if_pos rfl]; rfl)
      fun dt' hne => by rw [hcompletion, if_neg hne]
  · rw [StateMarker.total_completeFileProcessing, History.leftover_snoc]
    simp [History.leave, hleft]
  · rw [StateMarker.publishing_completeFileProcessing, hstarted]
    simp only [hcounts]
    exact hi.publishing hp
  · rw [StateMarker.types_completeFileProcessing, hi.types]
    split
    · next hk =>
      obtain ⟨before, hbefore⟩ := List.getLast?_eq_some_iff.mp hlast
      unfold History.fileType
      rw [hstarted, hbefore, History.lastNamed_snoc, if_pos hk, Option.map_some, hcompletion,
        if_pos rfl]
      rfl
    · next hk =>
      refine (History.fileType_congr dump m₀ k hstarted fun dt' hdt' => ?_).symm
      rw [hcompletion, if_neg]
      rintro rfl
      exact hk (History.mem_of_lastNamed hdt').2

end Image

end MusicbrainzIngestion
