import MusicbrainzIngestion.Pipeline.Soundness

/-! The batcher conserves the stream. It runs between an upstream and a downstream that
may do anything with the channels; every message it took is in exactly one batch, in the
order taken, however full batches, timeouts and checkpoints fall. -/

namespace MusicbrainzIngestion
open Base

/-! ## The batcher in any surroundings -/

/-- All that the batcher does not own. -/
structure Surroundings where
  now : DateTime
  disk : Option StateMarker
  log : List Attempt
  parser : Parser
  parseChannel : Channel DataMessage
  batchChannel : Channel (List DataMessage)
  publisher : Publisher
  main : Main

def Pipeline.surroundedBy (p : Pipeline) (o : Surroundings) : Pipeline where
  shared := { p.shared with now := o.now, disk := o.disk, log := o.log }
  tasks := {
    parser := o.parser, parseChannel := o.parseChannel, batcher := p.tasks.batcher
    batchChannel := o.batchChannel, publisher := o.publisher, main := o.main }

namespace Batching

inductive Label where
  | surroundings (o : Surroundings)
  | recv
  | timeout (elapsed : Bool)
  | checkpoint (saved : Bool)
  | flush
  | save (saved : Bool)
  | panic

variable (cfg : PipelineConfig) (job : Job)

def step (p : Pipeline) : Label → Option Pipeline
  | .surroundings o => some (p.surroundedBy o)
  | .recv => p.batcherRecv cfg job
  | .timeout elapsed => p.batcherTimeout elapsed
  | .checkpoint saved => p.batcherCheckpoint cfg job saved
  | .flush => p.batcherFlush
  | .save saved => p.batcherSave job saved
  | .panic => p.batcherPanic

/-- The batcher of a file that has a marker entry, before its first receive. -/
structure Spawned (p : Pipeline) : Prop where
  batcher : p.tasks.batcher = (Tasks.spawn cfg).batcher
  entry : (p.shared.marker.progress job.fileName).isSome

def machine : Machine Pipeline Label where
  init := Spawned cfg job
  step := step cfg job

/-! ## What is seen of it -/

inductive Seen where
  | received (msg : DataMessage)
  | accepted (batch : List DataMessage)
  | checkpoint (status : Option FileProcessingStatus)

def Seen.message : Seen → Option DataMessage
  | .received msg => some msg
  | _ => none

def Seen.batch : Seen → Option (List DataMessage)
  | .accepted batch => some batch
  | _ => none

/-- The batch that the flush hands on, if the downstream takes it. -/
def accepts (p : Pipeline) : Option (List DataMessage) :=
  match p.tasks.batcher.phase with
  | .flushing messages _ =>
    match p.tasks.batchChannel.send messages with
    | .sent _ => some messages
    | _ => none
  | _ => none

def see (p : Pipeline) (l : Label) (q : Pipeline) : List Seen :=
  match l with
  | .recv => (p.tasks.parseChannel.buffer.head?.map .received).toList
  | .flush => ((accepts p).map .accepted).toList
  | .checkpoint _ => [.checkpoint (q.shared.marker.progress job.fileName)]
  | .surroundings _ | .timeout _ | .save _ | .panic => []

def received (h : List Seen) : List DataMessage := h.filterMap Seen.message

def accepted (h : List Seen) : List (List DataMessage) := h.filterMap Seen.batch

/-- A checkpoint reports what was received, a multiple of the interval, and only batches that
were sent before it. -/
structure Reported (h : List Seen) (status : FileProcessingStatus) : Prop where
  due : cfg.stateSaveInterval ∣ status.recordsExtracted
  records : status.recordsExtracted = (received h).length
  messages : status.messagesPublished = (received h).length
  batches : status.batchesSent ≤ (accepted h).length

def CheckpointsReported (h : List Seen) : Prop :=
  ∀ pre post status, h = pre ++ .checkpoint status :: post → ∃ st, status = some st ∧ Reported cfg pre st

/-- What the marker entry says when the batcher has returned. -/
structure Final (h : List Seen) (status : FileProcessingStatus) : Prop where
  records : status.recordsExtracted = (received h).length
  messages : status.messagesPublished = (received h).length
  batches : status.batchesSent = (accepted h).length

/-- The contract of the batcher, once it has seen `h` and is at `q`. -/
structure Conserves (start : ExtractionProgress) (h : List Seen) (q : Pipeline) : Prop where
  sized : ∀ batch ∈ accepted h, batch ≠ [] ∧ batch.length ≤ cfg.batchSize
  whole : q.tasks.batcher.phase = .done (.returned ()) → (accepted h).flatten = received h
  entry : q.tasks.batcher.phase = .done (.returned ()) →
    ∃ status, q.shared.marker.progress job.fileName = some status ∧ Final h status
  progress : ∀ dt, q.shared.progress.get dt =
    start.get dt + if job.dataType = dt then (received h).length else 0
  checkpoints : CheckpointsReported cfg h
  cut : ∀ e, q.tasks.batcher.phase = .done (.failed e) → (accepted h).flatten <+: received h

/-! ## Histories -/

section History

variable {cfg job} {h : List Seen}

@[simp] theorem received_snoc_received (msg : DataMessage) :
    received (h ++ [.received msg]) = received h ++ [msg] := List.filterMap_append

@[simp] theorem received_snoc_accepted (batch : List DataMessage) :
    received (h ++ [.accepted batch]) = received h := by
  simp [received, Seen.message]

@[simp] theorem received_snoc_checkpoint (status : Option FileProcessingStatus) :
    received (h ++ [.checkpoint status]) = received h := by
  simp [received, Seen.message]

@[simp] theorem accepted_snoc_received (msg : DataMessage) :
    accepted (h ++ [.received msg]) = accepted h := by
  simp [accepted, Seen.batch]

@[simp] theorem accepted_snoc_accepted (batch : List DataMessage) :
    accepted (h ++ [.accepted batch]) = accepted h ++ [batch] := List.filterMap_append

@[simp] theorem accepted_snoc_checkpoint (status : Option FileProcessingStatus) :
    accepted (h ++ [.checkpoint status]) = accepted h := by
  simp [accepted, Seen.batch]

theorem CheckpointsReported.snoc (hc : CheckpointsReported cfg h) {x : Seen}
    (hx : ∀ status, x = .checkpoint status → ∃ st, status = some st ∧ Reported cfg h st) :
    CheckpointsReported cfg (h ++ [x]) := by
  intro pre post status heq
  rcases List.eq_nil_or_concat post with rfl | ⟨post, y, rfl⟩
  · obtain ⟨rfl, hlast⟩ := List.append_inj' heq rfl
    exact hx status (List.singleton_inj.mp hlast)
  · have hsplit : h ++ [x] = (pre ++ .checkpoint status :: post) ++ [y] := by
      rw [heq, List.concat_eq_append, List.append_assoc, List.cons_append]
    exact hc pre post status (List.append_inj' hsplit rfl).1

end History

/-! ## The invariant -/

variable {cfg job} {b : Batcher} {h : List Seen} {p q : Pipeline}

structure Counted (cfg : PipelineConfig) (b : Batcher) (h : List Seen) : Prop where
  records : b.totalRecords = (received h).length
  batches : b.totalBatches = (accepted h).length
  sized : ∀ batch ∈ accepted h, batch ≠ [] ∧ batch.length ≤ cfg.batchSize

/-- Where the messages received and not yet accepted are. -/
def Carries (cfg : PipelineConfig) (b : Batcher) (h : List Seen) : Prop :=
  match b.phase with
  | .receiving => b.batch.length < cfg.batchSize ∧ (accepted h).flatten ++ b.batch = received h
  | .checkpointing =>
    b.batch ≠ [] ∧ b.batch.length ≤ cfg.batchSize ∧ cfg.stateSaveInterval ∣ b.totalRecords ∧
      (accepted h).flatten ++ b.batch = received h
  | .flushing messages _ =>
    b.batch = [] ∧ messages ≠ [] ∧ messages.length ≤ cfg.batchSize ∧
      (accepted h).flatten ++ messages = received h
  | .saving => (accepted h).flatten = received h
  | .done (.returned _) => (accepted h).flatten = received h
  | .done _ => (accepted h).flatten <+: received h

/-- The marker entry and the shared tally. -/
structure Posted (cfg : PipelineConfig) (job : Job) (start : ExtractionProgress) (p : Pipeline)
    (h : List Seen) : Prop where
  entry : ∃ status, p.shared.marker.progress job.fileName = some status ∧
    (p.tasks.batcher.phase = .done (.returned ()) → Final h status)
  progress : ∀ dt, p.shared.progress.get dt =
    start.get dt + if job.dataType = dt then (received h).length else 0
  checkpoints : CheckpointsReported cfg h

structure Inv (cfg : PipelineConfig) (job : Job) (start : ExtractionProgress) (p : Pipeline)
    (h : List Seen) : Prop where
  counted : Counted cfg p.tasks.batcher h
  carries : Carries cfg p.tasks.batcher h
  posted : Posted cfg job start p h

/-! ## The batcher's own steps -/

theorem carries_sizeCheck (hne : b.batch ≠ []) (hsize : b.batch.length ≤ cfg.batchSize)
    (heq : (accepted h).flatten ++ b.batch = received h) : Carries cfg (Pipeline.sizeCheck cfg b) h := by
  unfold Pipeline.sizeCheck
  split
  · exact ⟨rfl, hne, hsize, heq⟩
  · next hlt => exact ⟨Nat.lt_of_not_le hlt, heq⟩

theorem carries_afterRecv (msg : DataMessage) (hsize : b.batch.length < cfg.batchSize)
    (heq : (accepted h).flatten ++ b.batch = received h) :
    Carries cfg (Pipeline.afterRecv cfg (Pipeline.taken b msg)) (h ++ [.received msg]) := by
  have hne : (Pipeline.taken b msg).batch ≠ [] := by simp [Pipeline.taken]
  have hlen : (Pipeline.taken b msg).batch.length ≤ cfg.batchSize := by
    simpa [Pipeline.taken] using Nat.succ_le_of_lt hsize
  have htaken : (accepted (h ++ [.received msg])).flatten ++ (Pipeline.taken b msg).batch =
      received (h ++ [.received msg]) := by
    rw [accepted_snoc_received, received_snoc_received, ← heq, List.append_assoc]
    rfl
  unfold Pipeline.afterRecv
  split
  · next hdue =>
    have hdvd := (of_decide_eq_true hdue).1
    exact ⟨hne, hlen, Nat.dvd_of_mod_eq_zero hdvd, htaken⟩
  · exact carries_sizeCheck hne hlen htaken

theorem carries_afterClose (hsize : b.batch.length < cfg.batchSize)
    (heq : (accepted h).flatten ++ b.batch = received h) :
    Carries cfg (Pipeline.afterClose b) h := by
  unfold Pipeline.afterClose
  split
  · next hnil =>
    rw [hnil, List.append_nil] at heq
    exact heq
  · next hne => exact ⟨rfl, hne, Nat.le_of_lt hsize, heq⟩

theorem Carries.prefix (hc : Carries cfg b h) : (accepted h).flatten <+: received h := by
  unfold Carries at hc
  cases hphase : b.phase with
  | receiving =>
    rw [hphase] at hc
    exact ⟨b.batch, hc.2⟩
  | checkpointing =>
    rw [hphase] at hc
    exact ⟨b.batch, hc.2.2.2⟩
  | flushing messages final =>
    rw [hphase] at hc
    exact ⟨messages, hc.2.2.2⟩
  | saving =>
    rw [hphase] at hc
    exact ⟨[], by rw [List.append_nil, hc]⟩
  | done result =>
    rw [hphase] at hc
    cases result with
    | returned => exact ⟨[], by rw [List.append_nil]; exact hc⟩
    | failed e => exact hc
    | panicked => exact hc

theorem counted_sizeCheck (hc : Counted cfg b h) : Counted cfg (Pipeline.sizeCheck cfg b) h := by
  unfold Pipeline.sizeCheck
  split <;> exact ⟨hc.records, hc.batches, hc.sized⟩

theorem counted_afterRecv (hc : Counted cfg b h) (msg : DataMessage) :
    Counted cfg (Pipeline.afterRecv cfg (Pipeline.taken b msg)) (h ++ [.received msg]) := by
  have htaken : Counted cfg (Pipeline.taken b msg) (h ++ [.received msg]) := by
    refine ⟨?_, ?_, ?_⟩
    · rw [received_snoc_received, List.length_append, ← hc.records]
      rfl
    · rw [accepted_snoc_received]
      exact hc.batches
    · rw [accepted_snoc_received]
      exact hc.sized
  unfold Pipeline.afterRecv
  split
  · exact ⟨htaken.records, htaken.batches, htaken.sized⟩
  · exact counted_sizeCheck htaken

theorem counted_afterClose (hc : Counted cfg b h) : Counted cfg (Pipeline.afterClose b) h := by
  unfold Pipeline.afterClose
  split <;> exact ⟨hc.records, hc.batches, hc.sized⟩

theorem not_returned (hopen : b.isDone = false) (result : TaskResult Unit) :
    b.phase ≠ .done result := by
  intro hdone
  simp [Batcher.isDone, hdone] at hopen

theorem counted_accepted (hc : Counted cfg b h) {c : Batcher} {messages : List DataMessage}
    (hne : messages ≠ []) (hsize : messages.length ≤ cfg.batchSize)
    (hrecords : c.totalRecords = b.totalRecords) (hbatches : c.totalBatches = b.totalBatches + 1) :
    Counted cfg c (h ++ [.accepted messages]) := by
  refine ⟨?_, ?_, fun batch hbatch => ?_⟩
  · rw [received_snoc_accepted, hrecords, hc.records]
  · rw [accepted_snoc_accepted, List.length_append, hbatches, hc.batches]
    rfl
  · rw [accepted_snoc_accepted] at hbatch
    rcases List.mem_append.mp hbatch with hold | hnew
    · exact hc.sized batch hold
    · rw [List.mem_singleton.mp hnew]
      exact ⟨hne, hsize⟩

theorem counted_checkpoint (hc : Counted cfg b h) (status : Option FileProcessingStatus) :
    Counted cfg b (h ++ [.checkpoint status]) := by
  refine ⟨?_, ?_, ?_⟩
  · rw [received_snoc_checkpoint, hc.records]
  · rw [accepted_snoc_checkpoint, hc.batches]
  · rw [accepted_snoc_checkpoint]
    exact hc.sized

theorem carries_checkpoint (hc : Carries cfg b h) (status : Option FileProcessingStatus) :
    Carries cfg b (h ++ [.checkpoint status]) := by
  unfold Carries at hc ⊢
  rw [received_snoc_checkpoint, accepted_snoc_checkpoint]
  exact hc

/-- What a checkpoint and the final save write into the marker entry. -/
theorem progress_checkpointed (saved : Bool) {status : FileProcessingStatus}
    (hentry : p.shared.marker.progress job.fileName = some status) :
    (p.checkpointed job saved).marker.progress job.fileName = some { status with
      recordsExtracted := p.tasks.batcher.totalRecords
      messagesPublished := p.tasks.batcher.totalRecords
      batchesSent := p.tasks.batcher.totalBatches } := by
  show (p.shared.marker.updateFileProgress _ _ _ _ _).progress _ = _
  rw [StateMarker.progress_updateFileProgress, if_pos rfl, hentry, Option.map_some]

/-! ## Steps -/

variable {start : ExtractionProgress}

theorem posted_of_open {x : List Seen} (hp : Posted cfg job start p h)
    (hmarker : q.shared.marker = p.shared.marker) (hprogress : q.shared.progress = p.shared.progress)
    (hopen : q.tasks.batcher.isDone = false) (hreceived : received x = received h)
    (hcheckpoints : CheckpointsReported cfg x) : Posted cfg job start q x := by
  obtain ⟨status, hstatus, -⟩ := hp.entry
  refine ⟨⟨status, by rw [hmarker, hstatus], fun hdone => ?_⟩, fun dt => ?_, hcheckpoints⟩
  · exact absurd hdone (not_returned hopen _)
  · rw [hprogress, hreceived]
    exact hp.progress dt

theorem inv_recv (hi : Inv cfg job start p h) (hstep : p.batcherRecv cfg job = some q) :
    Inv cfg job start q (h ++ see job p .recv q) := by
  unfold Pipeline.batcherRecv at hstep
  cases hphase : p.tasks.batcher.phase with
  | receiving =>
    have hcarries := hi.carries
    simp only [Carries, hphase] at hcarries
    obtain ⟨hsize, heq⟩ := hcarries
    rw [hphase] at hstep
    cases hrecv : p.tasks.parseChannel.recv with
    | received msg channel =>
      obtain ⟨hbuffer, -⟩ := Channel.recv_received hrecv
      have hsee : see job p .recv q = [.received msg] := by simp [see, hbuffer]
      simp only [hrecv, Option.some.injEq] at hstep
      subst hstep
      rw [hsee]
      refine ⟨counted_afterRecv hi.counted msg, carries_afterRecv msg hsize heq, ?_⟩
      obtain ⟨status, hstatus, -⟩ := hi.posted.entry
      refine ⟨⟨status, hstatus, fun hdone => ?_⟩, fun dt => ?_, ?_⟩
      · exact absurd hdone (not_returned (Pipeline.afterRecv_open cfg (Pipeline.taken _ msg)).1 _)
      · have hprogress := hi.posted.progress dt
        simp only [ExtractionProgress.increment, ExtractionProgress.get_add, received_snoc_received,
          List.length_append, List.length_singleton, hprogress]
        split <;> omega
      · exact hi.posted.checkpoints.snoc fun status hx => by cases hx
    | empty => simp [hrecv] at hstep
    | closed =>
      obtain ⟨hbuffer, -⟩ := Channel.recv_closed hrecv
      have hsee : see job p .recv q = [] := by simp [see, hbuffer]
      simp only [hrecv, Option.some.injEq] at hstep
      subst hstep
      rw [hsee, List.append_nil]
      exact ⟨counted_afterClose hi.counted, carries_afterClose hsize heq,
        posted_of_open hi.posted rfl rfl (Pipeline.afterClose_closing _).1 rfl hi.posted.checkpoints⟩
  | _ => simp [hphase] at hstep

theorem inv_timeout {elapsed : Bool} (hi : Inv cfg job start p h)
    (hstep : p.batcherTimeout elapsed = some q) : Inv cfg job start q h := by
  unfold Pipeline.batcherTimeout at hstep
  cases hphase : p.tasks.batcher.phase with
  | receiving =>
    have hcarries := hi.carries
    simp only [Carries, hphase] at hcarries
    obtain ⟨hsize, heq⟩ := hcarries
    simp only [hphase, Option.some.injEq] at hstep
    subst hstep
    by_cases hflush : p.tasks.batcher.batch ≠ [] ∧ elapsed = true
    · rw [if_pos hflush]
      exact ⟨⟨hi.counted.records, hi.counted.batches, hi.counted.sized⟩,
        ⟨rfl, hflush.1, Nat.le_of_lt hsize, heq⟩,
        posted_of_open hi.posted rfl rfl rfl rfl hi.posted.checkpoints⟩
    · rw [if_neg hflush]
      exact hi
  | _ => simp [hphase] at hstep

theorem inv_checkpoint {saved : Bool} (hi : Inv cfg job start p h)
    (hstep : p.batcherCheckpoint cfg job saved = some q) :
    Inv cfg job start q (h ++ see job p (.checkpoint saved) q) := by
  unfold Pipeline.batcherCheckpoint at hstep
  cases hphase : p.tasks.batcher.phase with
  | checkpointing =>
    have hcarries := hi.carries
    simp only [Carries, hphase] at hcarries
    obtain ⟨hne, hsize, hdue, heq⟩ := hcarries
    simp only [hphase, Option.some.injEq] at hstep
    subst hstep
    obtain ⟨status, hstatus, -⟩ := hi.posted.entry
    have hwritten := progress_checkpointed saved hstatus
    refine ⟨counted_checkpoint (counted_sizeCheck hi.counted) _,
      carries_checkpoint (carries_sizeCheck hne hsize heq) _,
      ⟨_, hwritten, fun hdone => ?_⟩, fun dt => ?_, ?_⟩
    · exact absurd hdone (not_returned (Pipeline.sizeCheck_open cfg _).1 _)
    · rw [see, received_snoc_checkpoint]
      exact hi.posted.progress dt
    · refine hi.posted.checkpoints.snoc fun st hx => ⟨_, (Seen.checkpoint.inj hx).symm.trans hwritten, ?_⟩
      exact ⟨hdue, hi.counted.records, hi.counted.records, Nat.le_of_eq hi.counted.batches⟩
  | _ => simp [hphase] at hstep

theorem inv_flush (hpos : 0 < cfg.batchSize) (hi : Inv cfg job start p h)
    (hstep : p.batcherFlush = some q) : Inv cfg job start q (h ++ see job p .flush q) := by
  unfold Pipeline.batcherFlush at hstep
  cases hphase : p.tasks.batcher.phase with
  | flushing messages final =>
    have hcarries := hi.carries
    simp only [Carries, hphase] at hcarries
    obtain ⟨hempty, hne, hsize, heq⟩ := hcarries
    cases hsend : p.tasks.batchChannel.send messages with
    | sent channel =>
      have hsee : see job p .flush q = [.accepted messages] := by simp [see, accepts, hphase, hsend]
      simp only [hphase, hsend, Option.some.injEq] at hstep
      rw [hsee]
      subst hstep
      refine ⟨counted_accepted hi.counted hne hsize rfl rfl, ?_, ?_⟩
      · have hflat : (accepted (h ++ [.accepted messages])).flatten =
            received (h ++ [.accepted messages]) := by
          rw [accepted_snoc_accepted, received_snoc_accepted, List.flatten_append,
            List.flatten_singleton, heq]
        cases final with
        | true => exact hflat
        | false => exact ⟨by simpa [hempty] using hpos, by simpa [hempty] using hflat⟩
      · refine posted_of_open hi.posted rfl rfl ?_ (received_snoc_accepted _)
          (hi.posted.checkpoints.snoc fun status hx => by cases hx)
        cases final <;> rfl
    | full => simp [hphase, hsend] at hstep
    | closed =>
      have hsee : see job p .flush q = [] := by simp [see, accepts, hphase, hsend]
      simp only [hphase, hsend, Option.some.injEq] at hstep
      rw [hsee, List.append_nil]
      subst hstep
      obtain ⟨status, hstatus, -⟩ := hi.posted.entry
      exact ⟨⟨hi.counted.records, hi.counted.batches, hi.counted.sized⟩, ⟨messages, heq⟩,
        ⟨status, hstatus, fun hdone => by cases hdone⟩, hi.posted.progress, hi.posted.checkpoints⟩
  | _ => simp [hphase] at hstep

theorem inv_save {saved : Bool} (hi : Inv cfg job start p h)
    (hstep : p.batcherSave job saved = some q) : Inv cfg job start q h := by
  unfold Pipeline.batcherSave at hstep
  cases hphase : p.tasks.batcher.phase with
  | saving =>
    have hcarries := hi.carries
    simp only [Carries, hphase] at hcarries
    simp only [hphase, Option.some.injEq] at hstep
    subst hstep
    obtain ⟨status, hstatus, -⟩ := hi.posted.entry
    have hwritten := progress_checkpointed saved hstatus
    exact ⟨⟨hi.counted.records, hi.counted.batches, hi.counted.sized⟩, hcarries,
      ⟨_, hwritten, fun _ => ⟨hi.counted.records, hi.counted.records, hi.counted.batches⟩⟩,
      hi.posted.progress, hi.posted.checkpoints⟩
  | _ => simp [hphase] at hstep

theorem inv_panic (hi : Inv cfg job start p h) (hstep : p.batcherPanic = some q) :
    Inv cfg job start q h := by
  have hq : q = p.batcherDone .panicked := by
    unfold Pipeline.batcherPanic at hstep
    cases hphase : p.tasks.batcher.phase <;> simp_all
  rw [hq]
  obtain ⟨status, hstatus, -⟩ := hi.posted.entry
  exact ⟨⟨hi.counted.records, hi.counted.batches, hi.counted.sized⟩, hi.carries.prefix,
    ⟨status, hstatus, fun hdone => by cases hdone⟩, hi.posted.progress, hi.posted.checkpoints⟩

theorem inv_step (hpos : 0 < cfg.batchSize) {l : Label} (hi : Inv cfg job start p h)
    (hstep : step cfg job p l = some q) : Inv cfg job start q (h ++ see job p l q) := by
  cases l with
  | recv => exact inv_recv hi hstep
  | checkpoint saved => exact inv_checkpoint hi hstep
  | flush => exact inv_flush hpos hi hstep
  | timeout elapsed =>
    rw [see, List.append_nil]
    exact inv_timeout hi hstep
  | save saved =>
    rw [see, List.append_nil]
    exact inv_save hi hstep
  | panic =>
    rw [see, List.append_nil]
    exact inv_panic hi hstep
  | surroundings o =>
    cases hstep
    rw [see, List.append_nil]
    exact ⟨hi.counted, hi.carries, hi.posted.entry, hi.posted.progress, hi.posted.checkpoints⟩

theorem inv_spawned (hpos : 0 < cfg.batchSize) (hp : Spawned cfg job p) :
    Inv cfg job p.shared.progress p [] := by
  obtain ⟨status, hstatus⟩ := Option.isSome_iff_exists.mp hp.entry
  refine ⟨?_, ?_, ⟨status, hstatus, fun hdone => ?_⟩, fun dt => ?_, fun pre post st heq => ?_⟩
  · rw [hp.batcher]
    exact ⟨rfl, rfl, fun batch hbatch => by cases hbatch⟩
  · rw [hp.batcher]
    exact ⟨hpos, rfl⟩
  · rw [hp.batcher] at hdone
    cases hdone
  · simp [received]
  · cases pre <;> cases heq

theorem conserves_of_inv (hi : Inv cfg job start p h) : Conserves cfg job start h p where
  sized := hi.counted.sized
  whole hdone := by
    have hcarries := hi.carries
    simp only [Carries, hdone] at hcarries
    exact hcarries
  entry hdone := by
    obtain ⟨status, hstatus, hfinal⟩ := hi.posted.entry
    exact ⟨status, hstatus, hfinal hdone⟩
  progress := hi.posted.progress
  checkpoints := hi.posted.checkpoints
  cut e hfailed := by
    have hcarries := hi.carries
    simp only [Carries, hfailed] at hcarries
    exact hcarries

theorem inv_run (hpos : 0 < cfg.batchSize) (hp : Spawned cfg job p) {labels : List Label}
    (hrun : (machine cfg job).run p labels = some q) :
    Inv cfg job p.shared.progress q ((machine cfg job).observed (see job) p labels) := by
  have hany : ∀ l ∈ labels, (fun _ => True) l := fun _ _ => trivial
  exact (machine cfg job).run_observed (see job) (P := Inv cfg job p.shared.progress)
    (fun _ _ _ _ _ hi hstep => inv_step hpos hi hstep) hany (inv_spawned hpos hp) hrun

/-- Batching conserves the stream, whatever the surroundings do and however the saves end. -/
theorem batcher_conserves (cfg : PipelineConfig) (job : Job) (p q : Pipeline) (labels : List Label)
    (hpos : 0 < cfg.batchSize) (hp : Spawned cfg job p)
    (hrun : (machine cfg job).run p labels = some q) :
    Conserves cfg job p.shared.progress ((machine cfg job).observed (see job) p labels) q :=
  conserves_of_inv (inv_run hpos hp hrun)

/-! ## Three messages in batches of two -/

theorem spawned_start (s : Shared) : Spawned cfg job (Pipeline.start cfg job s) where
  batcher := rfl
  entry := by
    show ((s.marker.startFileProcessing job.fileName s.now).progress job.fileName).isSome = true
    rw [StateMarker.progress_startFileProcessing, if_pos rfl]
    rfl

def twoByTwo : PipelineConfig where
  batchSize := 2
  queueSize := 3
  stateSaveInterval := 2
  exchangePrefix := "groovemap-musicbrainz"

def threeLabels : Job where
  dataType := .labels
  fileName := "label.jsonl"
  path := "/dumps/label.jsonl"
  opened := .ok []
  message := fun _ => none

def numbered (id : String) : DataMessage where
  id := id
  sha256 := ""
  dumpVersion := "20260101-000000"
  data := .null
  rawXml := none

/-- Three messages wait, and no more will come. -/
def threeArrived : Surroundings where
  now := 7
  disk := none
  log := []
  parser := .done (.returned 3)
  parseChannel := {
    capacity := 3, buffer := [numbered "1", numbered "2", numbered "3"]
    senderAlive := false, receiverAlive := true }
  batchChannel := .new 100
  publisher := .waiting
  main := .joinParser

/-- The first message is flushed alone by a timeout, and the checkpoint is not saved. -/
def timedRun : List Label := [
  .surroundings threeArrived, .recv, .timeout true, .flush, .recv, .checkpoint false, .recv, .flush,
  .recv, .save true]

def threeSpawned : Pipeline := Pipeline.start twoByTwo threeLabels {
  now := 0, disk := none, log := [], marker := StateMarker.new "20260101-000000" 0, progress := {} }

theorem timed_run_conserves : ∃ q, (machine twoByTwo threeLabels).run threeSpawned timedRun = some q ∧
    q.tasks.batcher.phase = .done (.returned ()) ∧
    accepted ((machine twoByTwo threeLabels).observed (see threeLabels) threeSpawned timedRun) =
      [[numbered "1"], [numbered "2", numbered "3"]] ∧
    Conserves twoByTwo threeLabels threeSpawned.shared.progress
      ((machine twoByTwo threeLabels).observed (see threeLabels) threeSpawned timedRun) q :=
  ⟨_, rfl, rfl, rfl, batcher_conserves twoByTwo threeLabels threeSpawned _ timedRun (by decide)
    (spawned_start _) rfl⟩

/-! ## The batcher of a file's pipeline -/

def surroundingsOf (p : Pipeline) : Surroundings where
  now := p.shared.now
  disk := p.shared.disk
  log := p.shared.log
  parser := p.tasks.parser
  parseChannel := p.tasks.parseChannel
  batchChannel := p.tasks.batchChannel
  publisher := p.tasks.publisher
  main := p.tasks.main

/-- The step left alone what the batcher owns. -/
def Aside (p q : Pipeline) : Prop :=
  q.tasks.batcher = p.tasks.batcher ∧ q.shared.marker = p.shared.marker ∧
    q.shared.progress = p.shared.progress

theorem Aside.surrounded (h : Aside p q) : p.surroundedBy (surroundingsOf q) = q := by
  obtain ⟨⟨now, disk, log, marker, progress⟩,
    ⟨parser, parseChannel, batcher, batchChannel, publisher, main⟩⟩ := q
  obtain ⟨hbatcher, hmarker, hprogress⟩ := h
  simp only at hbatcher hmarker hprogress
  subst hbatcher hmarker hprogress
  rfl

theorem aside_parserOpen {fault : Option Error} (h : p.parserOpen job fault = some q) : Aside p q := by
  unfold Pipeline.parserOpen at h
  split at h
  · split at h <;> cases h <;> exact ⟨rfl, rfl, rfl⟩
  · cases h

theorem aside_parserRead {fault : Option String} (h : p.parserRead job fault = some q) :
    Aside p q := by
  unfold Pipeline.parserRead at h
  split at h
  · split at h
    · cases h; exact ⟨rfl, rfl, rfl⟩
    · cases h; exact ⟨rfl, rfl, rfl⟩
    · cases h; exact ⟨rfl, rfl, rfl⟩
    · split at h <;> cases h <;> exact ⟨rfl, rfl, rfl⟩
  · cases h

theorem aside_parserSend (h : p.parserSend = some q) : Aside p q := by
  unfold Pipeline.parserSend at h
  split at h
  · split at h <;> cases h <;> exact ⟨rfl, rfl, rfl⟩
  · cases h

theorem aside_parserPanic (h : p.parserPanic = some q) : Aside p q := by
  unfold Pipeline.parserPanic at h
  split at h <;> cases h
  exact ⟨rfl, rfl, rfl⟩

theorem aside_publisherRecv {fault : Option String} (h : p.publisherRecv fault = some q) :
    Aside p q := by
  unfold Pipeline.publisherRecv at h
  split at h
  · split at h
    · split at h <;> cases h <;> exact ⟨rfl, rfl, rfl⟩
    · cases h
    · cases h; exact ⟨rfl, rfl, rfl⟩
  · cases h

theorem aside_publisherPublish {reply : Reply} (h : p.publisherPublish cfg job reply = some q) :
    Aside p q := by
  unfold Pipeline.publisherPublish at h
  split at h
  · dsimp only at h
    split at h <;> cases h <;> exact ⟨rfl, rfl, rfl⟩
  · cases h

theorem aside_publisherPanic (h : p.publisherPanic = some q) : Aside p q := by
  unfold Pipeline.publisherPanic at h
  split at h <;> cases h
  exact ⟨rfl, rfl, rfl⟩

theorem aside_join (h : p.join = some q) : Aside p q := by
  unfold Pipeline.join at h
  split at h
  · split at h <;> cases h <;> exact ⟨rfl, rfl, rfl⟩
  · split at h <;> cases h <;> exact ⟨rfl, rfl, rfl⟩
  · split at h <;> cases h <;> exact ⟨rfl, rfl, rfl⟩
  · cases h

theorem aside_sendFileComplete {reply : Reply} (h : p.sendFileComplete cfg job reply = some q) :
    Aside p q := by
  unfold Pipeline.sendFileComplete at h
  split at h
  · dsimp only at h
    split at h <;> cases h <;> exact ⟨rfl, rfl, rfl⟩
  · cases h

/-- Until the file is marked, a step of its pipeline is a step of the batcher in surroundings. -/
theorem step_of_pipeline {l : Pipeline.Label} (h : Pipeline.step cfg job p l = some q)
    (hmark : ∀ saved, l ≠ .markFile saved) : ∃ l', step cfg job p l' = some q := by
  have haside : Aside p q → ∃ l', step cfg job p l' = some q := fun hq =>
    ⟨.surroundings (surroundingsOf q), congrArg some hq.surrounded⟩
  cases l with
  | batcherRecv => exact ⟨.recv, h⟩
  | batcherTimeout elapsed => exact ⟨.timeout elapsed, h⟩
  | batcherCheckpoint saved => exact ⟨.checkpoint saved, h⟩
  | batcherFlush => exact ⟨.flush, h⟩
  | batcherSave saved => exact ⟨.save saved, h⟩
  | batcherPanic => exact ⟨.panic, h⟩
  | tick elapsed => cases h; exact haside ⟨rfl, rfl, rfl⟩
  | parserOpen fault => exact haside (aside_parserOpen h)
  | parserRead fault => exact haside (aside_parserRead h)
  | parserSend => exact haside (aside_parserSend h)
  | parserPanic => exact haside (aside_parserPanic h)
  | publisherRecv fault => exact haside (aside_publisherRecv h)
  | publisherPublish reply => exact haside (aside_publisherPublish h)
  | publisherPanic => exact haside (aside_publisherPanic h)
  | join => exact haside (aside_join h)
  | sendFileComplete reply => exact haside (aside_sendFileComplete h)
  | markFile saved => exact absurd rfl (hmark saved)

theorem run_of_pipeline {labels : List Pipeline.Label}
    (hrun : (Pipeline.machine cfg job).run p labels = some q)
    (hmark : ∀ l ∈ labels, ∀ saved, l ≠ .markFile saved) :
    ∃ labels', (machine cfg job).run p labels' = some q := by
  induction labels generalizing p with
  | nil => exact ⟨[], hrun⟩
  | cons l labels ih =>
    obtain ⟨mid, hstep, hrest⟩ := (Pipeline.machine cfg job).run_cons_some hrun
    obtain ⟨l', hl'⟩ := step_of_pipeline hstep (hmark l List.mem_cons_self)
    obtain ⟨labels', hlabels'⟩ := ih hrest fun l hl => hmark l (List.mem_cons_of_mem _ hl)
    exact ⟨l' :: labels', (machine cfg job).run_trans ((machine cfg job).run_single hl') hlabels'⟩

/-- In a file's pipeline too, from its start until the file is marked. -/
theorem conserves_pipeline (hpos : 0 < cfg.batchSize) {s : Shared} {labels : List Pipeline.Label}
    (hrun : (Pipeline.machine cfg job).run (Pipeline.start cfg job s) labels = some q)
    (hmark : ∀ l ∈ labels, ∀ saved, l ≠ .markFile saved) :
    ∃ labels', (machine cfg job).run (Pipeline.start cfg job s) labels' = some q ∧
      Conserves cfg job s.progress
        ((machine cfg job).observed (see job) (Pipeline.start cfg job s) labels') q := by
  obtain ⟨labels', hlabels'⟩ := run_of_pipeline hrun hmark
  exact ⟨labels', hlabels', conserves_of_inv (inv_run hpos (spawned_start s) hlabels')⟩

end Batching

end MusicbrainzIngestion
