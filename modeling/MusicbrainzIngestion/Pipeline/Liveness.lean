import MusicbrainzIngestion.Base.Work
import MusicbrainzIngestion.FileCompletion

/-! A file's pipeline comes to its end under every interleaving. What is left of it is
counted in steps: each line is worth what reading, sending, receiving, batching and
publishing it can take, and every step but the passing of time uses some of it up. And
some step is always open: a task waits only for a neighbour that can move. -/

namespace MusicbrainzIngestion
open Base

/-- The lines the parser will be given. -/
def Job.size (job : Job) : Nat :=
  match job.opened with
  | .ok lines => lines.length
  | .error _ => 0

/-! ## What is left -/

def Parser.left (job : Job) : Parser → Nat
  | .opening => 10 * job.size + 2
  | .reading rest _ => 10 * rest.length + 1
  | .sending _ rest _ => 10 * rest.length + 10
  | .done _ => 0

def Batcher.left (b : Batcher) : Nat :=
  match b.phase with
  | .receiving => 4 * b.batch.length + 2
  | .checkpointing => 4 * b.batch.length + 5
  | .flushing messages _ => messages.length + 4 * b.batch.length + 4
  | .saving => 4 * b.batch.length + 1
  | .done _ => 0

def Publisher.left : Publisher → Nat
  | .waiting => 1
  | .publishing rest => rest.length + 1
  | .done _ => 0

def Main.left : Main → Nat
  | .joinParser => 5
  | .joinBatcher _ _ => 4
  | .joinPublisher _ _ => 3
  | .announcing _ => 2
  | .marking _ _ => 1
  | .finished _ _ _ => 0

/-- The batches on their way to the publisher. -/
def queued (buffer : List (List DataMessage)) : Nat := (buffer.map fun batch => batch.length + 1).sum

namespace Pipeline

variable {cfg : PipelineConfig} {job : Job} {p q : Pipeline}

variable (job) in
def left (p : Pipeline) : Nat :=
  p.tasks.parser.left job + 8 * p.tasks.parseChannel.buffer.length + p.tasks.batcher.left +
    queued p.tasks.batchChannel.buffer + p.tasks.publisher.left + p.tasks.main.left

/-- Time passing is no work, nor is a timeout with no batch to flush. -/
def works (p : Pipeline) : Label → Bool
  | .tick _ => false
  | .batcherTimeout elapsed => elapsed && !p.tasks.batcher.batch.isEmpty
  | _ => true

theorem left_start (s : Shared) : left job (start cfg job s) = 10 * job.size + 10 := by
  simp [left, start, Tasks.spawn, Channel.new, Parser.left, Batcher.left, Publisher.left,
    Main.left, queued]

@[simp] theorem queued_nil : queued [] = 0 := rfl

@[simp] theorem queued_cons (batch : List DataMessage) (buffer : List (List DataMessage)) :
    queued (batch :: buffer) = batch.length + 1 + queued buffer := rfl

@[simp] theorem queued_append (buffer later : List (List DataMessage)) :
    queued (buffer ++ later) = queued buffer + queued later := by
  simp [queued]

variable (cfg) in
theorem left_sizeCheck (b : Batcher) : (sizeCheck cfg b).left ≤ 4 * b.batch.length + 4 := by
  unfold sizeCheck
  split
  · simp only [Batcher.left, List.length_nil]
    omega
  · simp only [Batcher.left]
    omega

variable (cfg) in
theorem left_afterRecv (b : Batcher) : (afterRecv cfg b).left ≤ 4 * b.batch.length + 5 := by
  unfold afterRecv
  split
  · exact Nat.le_refl _
  · exact Nat.le_succ_of_le (left_sizeCheck cfg b)

theorem left_afterClose (b : Batcher) : (afterClose b).left ≤ 4 * b.batch.length + 1 := by
  unfold afterClose
  split
  · exact Nat.le_refl _
  · next hne =>
    have hpos : 0 < b.batch.length := List.length_pos_iff.mpr hne
    simp only [Batcher.left, List.length_nil]
    omega

theorem left_publishRest (rest : List DataMessage) :
    (publishRest rest).left ≤ rest.length + 1 := by
  cases rest <;> simp [publishRest, Publisher.left]

/-! ## Every step of work lowers it

First what each way of changing the pipeline does to what is left, then the steps. -/

section Deltas

variable (job) (p)

theorem left_setParser (parser : Parser) :
    left job (p.setParser parser) + p.tasks.parser.left job = left job p + parser.left job := by
  simp only [left, Pipeline.setParser]
  omega

theorem left_parserDone (result : TaskResult Nat) :
    left job (p.parserDone result) + p.tasks.parser.left job = left job p := by
  simp only [left, parserDone, Parser.left, Channel.dropSender_buffer]
  omega

theorem left_setBatcher (b : Batcher) :
    left job (p.setBatcher b) + p.tasks.batcher.left = left job p + b.left := by
  simp only [left, Pipeline.setBatcher]
  omega

theorem left_batcherDone (result : TaskResult Unit) :
    left job (p.batcherDone result) + p.tasks.batcher.left = left job p := by
  have hdone : ({ p.tasks.batcher with phase := .done result } : Batcher).left = 0 := rfl
  simp only [left, batcherDone, hdone, Channel.dropReceiver_buffer, Channel.dropSender_buffer]
  omega

theorem left_setBatchBuffer (buffer : List (List DataMessage)) :
    left job (p.setBatchBuffer buffer) + queued p.tasks.batchChannel.buffer =
      left job p + queued buffer := by
  simp only [left, setBatchBuffer]
  omega

theorem left_setPublisher (publisher : Publisher) :
    left job (p.setPublisher publisher) + p.tasks.publisher.left =
      left job p + publisher.left := by
  simp only [left, setPublisher]
  omega

theorem left_publisherDone (result : TaskResult Unit) :
    left job (p.publisherDone result) + p.tasks.publisher.left = left job p := by
  simp only [left, publisherDone, Publisher.left, Channel.dropReceiver_buffer]
  omega

theorem left_setMain (main : Main) :
    left job (p.setMain main) + p.tasks.main.left = left job p + main.left := by
  simp only [left, setMain]
  omega

@[simp] theorem left_setShared (shared : Shared) : left job (p.setShared shared) = left job p := rfl

end Deltas

variable (job) in
theorem parser_left_pos (h : p.tasks.parser.isDone = false) : 0 < p.tasks.parser.left job := by
  cases hp : p.tasks.parser with
  | done result => simp [hp, Parser.isDone] at h
  | _ => simp [Parser.left]

theorem batcher_left_pos (h : p.tasks.batcher.isDone = false) : 0 < p.tasks.batcher.left := by
  unfold Batcher.left
  cases hp : p.tasks.batcher.phase with
  | done result => simp [hp, Batcher.isDone] at h
  | _ => simp

theorem publisher_left_pos (h : p.tasks.publisher.isDone = false) :
    0 < p.tasks.publisher.left := by
  cases hp : p.tasks.publisher with
  | done result => simp [hp, Publisher.isDone] at h
  | _ => simp [Publisher.left]

variable (job) in
theorem parserDone_left (h : p.tasks.parser.isDone = false) (result : TaskResult Nat) :
    left job (p.parserDone result) < left job p := by
  have hdone := left_parserDone job p result
  have hpos := parser_left_pos job h
  omega

variable (job) in
theorem batcherDone_left (h : p.tasks.batcher.isDone = false) (result : TaskResult Unit) :
    left job (p.batcherDone result) < left job p := by
  have hdone := left_batcherDone job p result
  have hpos := batcher_left_pos h
  omega

variable (job) in
theorem publisherDone_left (h : p.tasks.publisher.isDone = false) (result : TaskResult Unit) :
    left job (p.publisherDone result) < left job p := by
  have hdone := left_publisherDone job p result
  have hpos := publisher_left_pos h
  omega

theorem parserOpen_left {fault : Option Error} (h : p.parserOpen job fault = some q) :
    left job q < left job p := by
  unfold parserOpen at h
  split at h
  · next hp =>
    have hopen : p.tasks.parser.isDone = false := by simp [hp, Parser.isDone]
    split at h <;> cases h
    · exact parserDone_left job hopen _
    · exact parserDone_left job hopen _
    · next lines ho =>
      have hset := left_setParser job p (.reading lines 0)
      have hsize : job.size = lines.length := by simp [Job.size, ho]
      simp only [hp, Parser.left] at hset
      omega
  · cases h

theorem parserRead_left {fault : Option String} (h : p.parserRead job fault = some q) :
    left job q < left job p := by
  unfold parserRead at h
  split at h
  · next rest count hp =>
    have hopen : p.tasks.parser.isDone = false := by simp [hp, Parser.isDone]
    split at h
    · cases h
      exact parserDone_left job hopen _
    · cases h
      exact parserDone_left job hopen _
    · cases h
      exact parserDone_left job hopen _
    · next line rest =>
      split at h <;> cases h
      · have hset := left_setParser job p (.reading rest count)
        simp only [hp, Parser.left, List.length_cons] at hset
        omega
      · next msg hm =>
        have hset := left_setParser job p (.sending msg rest count)
        simp only [hp, Parser.left, List.length_cons] at hset
        omega
  · cases h

theorem parserSend_left (h : p.parserSend = some q) : left job q < left job p := by
  unfold parserSend at h
  split at h
  · next msg rest count hp =>
    split at h <;> cases h
    · next channel hc =>
      obtain ⟨-, rfl⟩ := Channel.send_sent hc
      simp only [left, hp, Parser.left, List.length_append, List.length_singleton]
      omega
    · exact parserDone_left job (by simp [hp, Parser.isDone]) _
  · cases h

theorem parserPanic_left (h : p.parserPanic = some q) : left job q < left job p := by
  unfold parserPanic at h
  split at h <;> cases h
  next hp =>
    refine parserDone_left job ?_ _
    cases hq : p.tasks.parser <;> first | rfl | exact absurd hq (hp _)

theorem batcherRecv_left (h : p.batcherRecv cfg job = some q) : left job q < left job p := by
  unfold batcherRecv at h
  split at h
  · next hp =>
    split at h <;> cases h
    · next msg channel hc =>
      obtain ⟨hbuf, hchan⟩ := Channel.recv_received hc
      have hrecv := left_afterRecv cfg (taken p.tasks.batcher msg)
      simp only [taken, List.length_append, List.length_singleton] at hrecv
      have hbefore : p.tasks.batcher.left = 4 * p.tasks.batcher.batch.length + 2 := by
        simp [Batcher.left, hp]
      rw [hchan]
      simp only [left, hbuf, hbefore, List.length_cons]
      change _ + (afterRecv cfg (taken p.tasks.batcher msg)).left + _ + _ + _ < _
      simp only [taken]
      omega
    · have hset := left_setBatcher job p (afterClose p.tasks.batcher)
      have hclose := left_afterClose p.tasks.batcher
      have hbefore : p.tasks.batcher.left = 4 * p.tasks.batcher.batch.length + 2 := by
        simp [Batcher.left, hp]
      change left job (p.setBatcher (afterClose p.tasks.batcher)) < _
      omega
  · cases h

theorem batcherTimeout_left {elapsed : Bool} (h : p.batcherTimeout elapsed = some q) :
    left job q ≤ left job p ∧ (works p (.batcherTimeout elapsed) = true →
      left job q < left job p) := by
  unfold batcherTimeout at h
  split at h
  · next hp =>
    cases h
    split
    · next hflush =>
      have hpos : 0 < p.tasks.batcher.batch.length := List.length_pos_iff.mpr hflush.1
      have hset := left_setBatcher job p { p.tasks.batcher with
        phase := .flushing p.tasks.batcher.batch false, batch := [] }
      simp only [Batcher.left, hp, List.length_nil] at hset
      omega
    · next hflush =>
      refine ⟨Nat.le_refl _, fun hw => absurd ?_ hflush⟩
      simp only [works, Bool.and_eq_true, Bool.not_eq_true', List.isEmpty_eq_false_iff] at hw
      exact ⟨hw.2, hw.1⟩
  · cases h

theorem batcherCheckpoint_left {saved : Bool} (h : p.batcherCheckpoint cfg job saved = some q) :
    left job q < left job p := by
  unfold batcherCheckpoint at h
  split at h
  · next hp =>
    cases h
    have hset := left_setBatcher job p (sizeCheck cfg p.tasks.batcher)
    have hcheck := left_sizeCheck cfg p.tasks.batcher
    have hbefore : p.tasks.batcher.left = 4 * p.tasks.batcher.batch.length + 5 := by
      simp [Batcher.left, hp]
    change left job ((p.setBatcher (sizeCheck cfg p.tasks.batcher)).setShared
      (p.checkpointed job saved)) < _
    rw [left_setShared]
    omega
  · cases h

theorem batcherFlush_left (h : p.batcherFlush = some q) : left job q < left job p := by
  unfold batcherFlush at h
  split at h
  · next messages final hp =>
    split at h <;> cases h
    · next channel hc =>
      obtain ⟨-, rfl⟩ := Channel.send_sent hc
      cases final <;>
      · simp only [left, Batcher.left, hp, queued_append, queued_cons, queued_nil, if_true,
          Bool.false_eq_true, if_false]
        omega
    · exact batcherDone_left job (by simp [Batcher.isDone, hp]) _
  · cases h

theorem batcherSave_left {saved : Bool} (h : p.batcherSave job saved = some q) :
    left job q < left job p := by
  unfold batcherSave at h
  split at h
  · next hp =>
    cases h
    have hopen : p.tasks.batcher.isDone = false := by simp [Batcher.isDone, hp]
    change left job ((p.setShared (p.checkpointed job saved)).batcherDone (.returned ())) < _
    exact Nat.lt_of_lt_of_eq (batcherDone_left job hopen _) (left_setShared job p _)
  · cases h

theorem batcherPanic_left (h : p.batcherPanic = some q) : left job q < left job p := by
  unfold batcherPanic at h
  split at h <;> cases h
  next hp =>
    refine batcherDone_left job ?_ _
    unfold Batcher.isDone
    split
    · next hq => exact absurd hq (hp _)
    · rfl

theorem publisherRecv_left {fault : Option String} (h : p.publisherRecv fault = some q) :
    left job q < left job p := by
  unfold publisherRecv at h
  split at h
  · next hp =>
    have hopen : p.tasks.publisher.isDone = false := by simp [hp, Publisher.isDone]
    split at h
    · next batch channel hc =>
      obtain ⟨hbuf, hchan⟩ := Channel.recv_received hc
      have hbuffer := left_setBatchBuffer job p channel.buffer
      simp only [hbuf, queued_cons] at hbuffer
      split at h <;> cases h
      · rw [hchan]
        have hdone := publisherDone_left job (p := p.setBatchBuffer channel.buffer) hopen
          (.failed ["Failed to publish batch to AMQP", ‹String›])
        exact Nat.lt_of_lt_of_le hdone (by omega)
      · have hset := left_setPublisher job (p.setBatchBuffer channel.buffer) (publishRest batch)
        have hrest := left_publishRest batch
        have hwaiting : (p.setBatchBuffer channel.buffer).tasks.publisher.left = 1 := by
          simp [setBatchBuffer, hp, Publisher.left]
        rw [hchan]
        change left job ((p.setBatchBuffer channel.buffer).setPublisher (publishRest batch)) < _
        omega
    · cases h
    · cases h
      exact publisherDone_left job hopen _
  · cases h

theorem publisherPublish_left {reply : Reply} (h : p.publisherPublish cfg job reply = some q) :
    left job q < left job p := by
  unfold publisherPublish at h
  split at h
  · next msg rest hp =>
    have hopen : p.tasks.publisher.isDone = false := by simp [hp, Publisher.isDone]
    dsimp only at h
    split at h <;> cases h
    · have hset := left_setPublisher job (p.setShared
        (p.shared.publish job.dataType (.data msg) reply)) (publishRest rest)
      have hrest := left_publishRest rest
      have hbefore : p.tasks.publisher.left = rest.length + 2 := by
        simp [hp, Publisher.left]
      rw [left_setShared] at hset
      change _ + p.tasks.publisher.left = _ at hset
      change left job ((p.setShared
        (p.shared.publish job.dataType (.data msg) reply)).setPublisher (publishRest rest)) < _
      omega
    · exact publisherDone_left job
        (p := p.setShared (p.shared.publish job.dataType (.data msg) reply)) hopen _
  · cases h

theorem publisherPanic_left (h : p.publisherPanic = some q) : left job q < left job p := by
  unfold publisherPanic at h
  split at h <;> cases h
  next hp =>
    refine publisherDone_left job ?_ _
    cases hq : p.tasks.publisher <;> first | rfl | exact absurd hq (hp _)

theorem setMain_left {main : Main} (h : main.left < p.tasks.main.left) :
    left job (p.setMain main) < left job p := by
  have hset := left_setMain job p main
  omega

theorem join_left (h : p.join = some q) : left job q < left job p := by
  unfold join at h
  split at h
  · next hp => split at h <;> cases h <;> exact setMain_left (by simp [hp, Main.left])
  · next hp => split at h <;> cases h <;> exact setMain_left (by simp [hp, Main.left])
  · next hp =>
    split at h <;> cases h
    · refine setMain_left ?_
      rw [hp]
      split <;> simp [Main.left]
    · exact setMain_left (by simp [hp, Main.left])
  · cases h

theorem sendFileComplete_left {reply : Reply} (h : p.sendFileComplete cfg job reply = some q) :
    left job q < left job p := by
  unfold sendFileComplete at h
  split at h
  · next hp =>
    dsimp only at h
    split at h <;> cases h <;>
      exact setMain_left (p := p.setShared _) (by simp [setShared, hp, Main.left])
  · cases h

theorem markFile_left {saved : Bool} (h : p.markFile job saved = some q) :
    left job q < left job p := by
  unfold markFile at h
  split at h
  · next hp =>
    cases h
    exact setMain_left (p := p.setShared _) (by simp [setShared, hp, Main.left])
  · cases h

theorem step_left {l : Label} (h : step cfg job p l = some q) :
    left job q ≤ left job p ∧ (works p l = true → left job q < left job p) := by
  cases l with
  | tick elapsed =>
    cases h
    exact ⟨Nat.le_refl _, fun hw => Bool.noConfusion hw⟩
  | batcherTimeout elapsed => exact batcherTimeout_left h
  | parserOpen fault => exact lowers (parserOpen_left h)
  | parserRead fault => exact lowers (parserRead_left h)
  | parserSend => exact lowers (parserSend_left h)
  | parserPanic => exact lowers (parserPanic_left h)
  | batcherRecv => exact lowers (batcherRecv_left h)
  | batcherCheckpoint saved => exact lowers (batcherCheckpoint_left h)
  | batcherFlush => exact lowers (batcherFlush_left h)
  | batcherSave saved => exact lowers (batcherSave_left h)
  | batcherPanic => exact lowers (batcherPanic_left h)
  | publisherRecv fault => exact lowers (publisherRecv_left h)
  | publisherPublish reply => exact lowers (publisherPublish_left h)
  | publisherPanic => exact lowers (publisherPanic_left h)
  | join => exact lowers (join_left h)
  | sendFileComplete reply => exact lowers (sendFileComplete_left h)
  | markFile saved => exact lowers (markFile_left h)
where
  lowers {a b : Nat} {w : Prop} (hlt : a < b) : a ≤ b ∧ (w → a < b) :=
    ⟨Nat.le_of_lt hlt, fun _ => hlt⟩

/-! ## Some task can always move -/

/-- What the surroundings answer when they are asked. -/
structure Answers where
  opened : Option Error
  read : Option String
  saved : Bool
  channel : Option String
  reply : Reply

/-- The moves the tasks may make on these answers. -/
def Answers.labels (a : Answers) : List Label :=
  [.parserOpen a.opened, .parserRead a.read, .parserSend, .batcherRecv,
    .batcherCheckpoint a.saved, .batcherFlush, .batcherSave a.saved, .publisherRecv a.channel,
    .publisherPublish a.reply, .join, .sendFileComplete a.reply, .markFile a.saved]

theorem works_of_offered {a : Answers} {l : Label} (h : l ∈ a.labels) : works p l = true := by
  simp only [Answers.labels, List.mem_cons, List.not_mem_nil, or_false] at h
  rcases h with rfl | rfl | rfl | rfl | rfl | rfl | rfl | rfl | rfl | rfl | rfl | rfl <;> rfl

/-- The channels have room for something, and the publisher holds a batch only to publish it. -/
structure Roomy (t : Tasks) : Prop where
  parse : 0 < t.parseChannel.capacity
  batches : 0 < t.batchChannel.capacity
  publishing : t.publisher ≠ .publishing []

theorem publishRest_ne (rest : List DataMessage) : publishRest rest ≠ .publishing [] := by
  intro h
  cases rest <;> cases h

theorem roomy_spawn (h : 0 < cfg.queueSize) : Roomy (Tasks.spawn cfg) where
  parse := h
  batches := by simp [Tasks.spawn, Channel.new]
  publishing := by simp [Tasks.spawn]

theorem roomy_move (h : Move cfg job p q) (hr : Roomy p.tasks) : Roomy q.tasks := by
  cases h with
  | publisherTakes | publisherConfirms =>
    exact { parse := hr.parse, batches := hr.batches, publishing := publishRest_ne _ }
  | publisherFinishes | publisherLoses | publisherFails =>
    exact { parse := hr.parse, batches := hr.batches, publishing := by rintro ⟨⟩ }
  | _ => exact ⟨hr.parse, hr.batches, hr.publishing⟩

variable {a : Answers}

variable (cfg job) in
/-- On these answers some task can move. -/
def CanMove (a : Answers) (p : Pipeline) : Prop := ∃ l ∈ a.labels, (step cfg job p l).isSome

theorem publisher_canMove (hw : p.tasks.Wired) (hr : Roomy p.tasks)
    (hopen : p.tasks.publisher.isDone = false)
    (hfed : p.tasks.batchChannel.buffer ≠ [] ∨ p.tasks.batcher.isDone = true) :
    CanMove cfg job a p := by
  cases hp : p.tasks.publisher with
  | waiting =>
    refine ⟨.publisherRecv a.channel, by simp [Answers.labels], ?_⟩
    simp only [step, publisherRecv, hp, Channel.recv]
    cases hbuf : p.tasks.batchChannel.buffer with
    | cons batch rest => cases a.channel <;> rfl
    | nil =>
      have hbatcher : p.tasks.batcher.isDone = true := by simpa [hbuf] using hfed
      have hsender : p.tasks.batchChannel.senderAlive = false := by
        rw [hw.batchSender, hbatcher]
        rfl
      simp [hsender]
  | publishing rest =>
    cases rest with
    | nil => exact absurd hp hr.publishing
    | cons msg rest =>
      refine ⟨.publisherPublish a.reply, by simp [Answers.labels], ?_⟩
      simp only [step, publisherPublish, hp]
      cases publishResult (exchangeName cfg.exchangePrefix job.dataType) a.reply <;> rfl
  | done result => simp [hp, Publisher.isDone] at hopen

/-- A full channel holds something. -/
theorem buffer_ne_nil_of_full {α : Type} {c : Channel α} (hcap : 0 < c.capacity)
    (hfull : ¬ c.buffer.length < c.capacity) : c.buffer ≠ [] := by
  intro hnil
  simp only [hnil, List.length_nil] at hfull
  exact hfull hcap

theorem batcher_canMove (hw : p.tasks.Wired) (hr : Roomy p.tasks)
    (hopen : p.tasks.batcher.isDone = false)
    (hfed : p.tasks.parseChannel.buffer ≠ [] ∨ p.tasks.parser.isDone = true) :
    CanMove cfg job a p := by
  cases hp : p.tasks.batcher.phase with
  | receiving =>
    refine ⟨.batcherRecv, by simp [Answers.labels], ?_⟩
    simp only [step, batcherRecv, hp, Channel.recv]
    cases hbuf : p.tasks.parseChannel.buffer with
    | cons msg rest => rfl
    | nil =>
      have hparser : p.tasks.parser.isDone = true := by simpa [hbuf] using hfed
      have hsender : p.tasks.parseChannel.senderAlive = false := by
        rw [hw.parseSender, hparser]
        rfl
      simp [hsender]
  | checkpointing =>
    exact ⟨.batcherCheckpoint a.saved, by simp [Answers.labels],
      by simp [step, batcherCheckpoint, hp]⟩
  | saving =>
    exact ⟨.batcherSave a.saved, by simp [Answers.labels], by simp [step, batcherSave, hp]⟩
  | flushing messages final =>
    -- a flush waits only for a publisher that has batches to take
    by_cases hroom : p.tasks.batchChannel.receiverAlive = true ∧
        ¬ p.tasks.batchChannel.buffer.length < p.tasks.batchChannel.capacity
    · obtain ⟨halive, hfull⟩ := hroom
      have hpublisher : p.tasks.publisher.isDone = false := by
        simpa [halive] using hw.batchReceiver
      exact publisher_canMove hw hr hpublisher (.inl (buffer_ne_nil_of_full hr.batches hfull))
    · refine ⟨.batcherFlush, by simp [Answers.labels], ?_⟩
      simp only [step, batcherFlush, hp, Channel.send]
      by_cases halive : p.tasks.batchChannel.receiverAlive = true
      · have hlt : p.tasks.batchChannel.buffer.length < p.tasks.batchChannel.capacity := by
          by_contra hfull
          exact hroom ⟨halive, hfull⟩
        simp [halive, hlt]
      · simp [halive]
  | done result => simp [Batcher.isDone, hp] at hopen

theorem parser_canMove (hw : p.tasks.Wired) (hr : Roomy p.tasks)
    (hopen : p.tasks.parser.isDone = false) : CanMove cfg job a p := by
  cases hp : p.tasks.parser with
  | opening =>
    refine ⟨.parserOpen a.opened, by simp [Answers.labels], ?_⟩
    simp only [step, parserOpen, hp]
    cases a.opened <;> cases job.opened <;> rfl
  | reading rest count =>
    refine ⟨.parserRead a.read, by simp [Answers.labels], ?_⟩
    simp only [step, parserRead, hp]
    cases a.read with
    | some e => rfl
    | none =>
      rcases rest with _ | ⟨line, rest⟩
      · rfl
      · cases line with
        | error e => rfl
        | ok line =>
          cases hm : job.message line <;> simp [hm]
  | sending msg rest count =>
    -- a send waits only for a batcher that has messages to take
    by_cases hroom : p.tasks.parseChannel.receiverAlive = true ∧
        ¬ p.tasks.parseChannel.buffer.length < p.tasks.parseChannel.capacity
    · obtain ⟨halive, hfull⟩ := hroom
      have hbatcher : p.tasks.batcher.isDone = false := by
        simpa [halive] using hw.parseReceiver
      exact batcher_canMove hw hr hbatcher (.inl (buffer_ne_nil_of_full hr.parse hfull))
    · refine ⟨.parserSend, by simp [Answers.labels], ?_⟩
      simp only [step, parserSend, hp, Channel.send]
      by_cases halive : p.tasks.parseChannel.receiverAlive = true
      · have hlt : p.tasks.parseChannel.buffer.length < p.tasks.parseChannel.capacity := by
          by_contra hfull
          exact hroom ⟨halive, hfull⟩
        simp [halive, hlt]
      · simp [halive]
  | done result => simp [hp, Parser.isDone] at hopen

theorem canMove (hw : p.tasks.Wired) (hj : Joined p.tasks) (hr : Roomy p.tasks)
    (hopen : p.tasks.main.isFinished = false) : CanMove cfg job a p := by
  have hjoin : p.join.isSome = true → CanMove cfg job a p := fun h =>
    ⟨.join, by simp [Answers.labels], h⟩
  unfold Joined at hj
  cases hm : p.tasks.main with
  | joinParser =>
    cases hp : p.tasks.parser with
    | done result =>
      refine hjoin ?_
      simp only [join, hm, hp]
      cases result <;> rfl
    | _ => exact parser_canMove hw hr (by simp [hp, Parser.isDone])
  | joinBatcher fileSuccess totalCount =>
    rw [hm] at hj
    cases hp : p.tasks.batcher.phase with
    | done result =>
      refine hjoin ?_
      simp only [join, hm, hp]
      cases result <;> rfl
    | _ => exact batcher_canMove hw hr (by simp [hp, Batcher.isDone]) (.inr hj.1)
  | joinPublisher fileSuccess totalCount =>
    rw [hm] at hj
    cases hp : p.tasks.publisher with
    | done result =>
      refine hjoin ?_
      simp only [join, hm, hp]
      cases result <;> rfl
    | _ => exact publisher_canMove hw hr (by simp [hp, Publisher.isDone]) (.inr hj.2.1)
  | announcing totalCount =>
    refine ⟨.sendFileComplete a.reply, by simp [Answers.labels], ?_⟩
    simp only [step, sendFileComplete, hm]
    cases publishResult (exchangeName cfg.exchangePrefix job.dataType) a.reply <;> rfl
  | marking fileSuccess totalCount =>
    exact ⟨.markFile a.saved, by simp [Answers.labels], by simp [step, markFile, hm]⟩
  | finished fileSuccess totalCount saved => simp [hm, Main.isFinished] at hopen

/-! ## Every run comes to its end -/

/-- What the tasks keep whatever they do. -/
structure Lively (t : Tasks) : Prop where
  wired : t.Wired
  joined : Joined t
  roomy : Roomy t

theorem lively_spawn (h : 0 < cfg.queueSize) : Lively (Tasks.spawn cfg) where
  wired := wired_spawn
  joined := trivial
  roomy := roomy_spawn h

theorem lively_move (h : Move cfg job p q) (hl : Lively p.tasks) : Lively q.tasks where
  wired := wired_move h hl.wired
  joined := joined_move h hl.joined
  roomy := roomy_move h hl.roomy

theorem countsDown :
    (machine cfg job).CountsDown (fun p => Lively p.tasks) (fun _ => True) works (left job) where
  keeps := fun _ _ _ _ hs h => lively_move (step_move h) hs
  works_lt := fun _ _ _ _ _ h hw => (step_left h).2 hw
  rests_le := fun _ _ _ _ _ h => (step_left h).1

theorem neverStuck : (machine cfg job).NeverStuck (fun p => Lively p.tasks)
    (fun p => p.tasks.main.isFinished = true) (fun _ => True) works (fun _ => True)
    fun (a : Answers) _ => a.labels := by
  intro q a _ hq hopen
  obtain ⟨l, hl, hsome⟩ := canMove hq.wired hq.joined hq.roomy (Bool.not_eq_true _ ▸ hopen)
  exact ⟨l, hl, trivial, works_of_offered hl, hsome⟩

/-- However the tasks interleave, fail and panic, and whatever the disk and the broker answer,
a file is worked on for at most `10 * job.size + 10` steps, and at every point of every run
some task can make its next move, until the orchestrator has finished with the file. -/
theorem processFile_finishes (cfg : PipelineConfig) (job : Job) (s : Shared)
    (hqueue : 0 < cfg.queueSize) (ls : List Label) (p : Pipeline)
    (hrun : (machine cfg job).run (start cfg job s) ls = some p) (answers : Nat → Answers) :
    ∃ ms q, (machine cfg job).run p ms = some q ∧ q.tasks.main.isFinished = true ∧
      (machine cfg job).Follows (fun a _ => a.labels) answers p ms ∧
      (machine cfg job).work works (start cfg job s) ls + ms.length ≤ 10 * job.size + 10 := by
  have hstart : Lively (start cfg job s).tasks := lively_spawn hqueue
  have hwork := countsDown.work_le (fun _ _ => trivial) hstart hrun
  rw [left_start] at hwork
  obtain ⟨ms, q, hms, hfinal, -, hlen, hfollows⟩ := countsDown.completes neverStuck
    (fun i => (trivial : (fun _ => True) (answers i)))
    (countsDown.run_keeps (fun _ _ => trivial) hstart hrun)
  exact ⟨ms, q, hms, hfinal, hfollows, by omega⟩

/-- A parser that panics after its first record does not keep the file from being finished. -/
theorem processFile_finishes_label : ∃ p ms q,
    (machine oneByOne labelJob).run (start oneByOne labelJob freshRun)
      [.parserOpen none, .parserRead none, .parserSend, .parserPanic] = some p ∧
    (machine oneByOne labelJob).run p ms = some q ∧ q.tasks.main.isFinished = true ∧
    ms.length ≤ 16 := by
  have hrun : ∃ p, (machine oneByOne labelJob).run (start oneByOne labelJob freshRun)
      [.parserOpen none, .parserRead none, .parserSend, .parserPanic] = some p ∧
      (machine oneByOne labelJob).work works (start oneByOne labelJob freshRun)
        [.parserOpen none, .parserRead none, .parserSend, .parserPanic] = 4 ∧
      labelJob.size = 1 := by
    have hjob : labelJob = { labelJob with opened := .ok [.ok labelLine] } := by
      rw [← labelJob_opened]
    rw [hjob]
    exact ⟨_, rfl, rfl, rfl⟩
  obtain ⟨p, hrun, hwork, hsize⟩ := hrun
  obtain ⟨ms, q, hms, hfinished, -, hle⟩ := processFile_finishes oneByOne labelJob freshRun
    (by decide) _ p hrun fun _ => ⟨none, none, true, none, .confirmation true none⟩
  exact ⟨p, ms, q, hrun, hms, hfinished, by omega⟩

end Pipeline

end MusicbrainzIngestion
