import MusicbrainzIngestion.Pipeline

/-! The moves of a file's pipeline: what one step can do, to which task, under which
guard. Every invariant of the pipeline is a case analysis over these. -/

namespace MusicbrainzIngestion
open Base

/-! ## How far each task is -/

def TaskResult.isReturned {α : Type} : TaskResult α → Bool
  | .returned _ => true
  | _ => false

namespace Parser

def isDone : Parser → Bool
  | .done _ => true
  | _ => false

/-- It has not failed. -/
def healthy : Parser → Bool
  | .done result => result.isReturned
  | _ => true

/-- What it has yet to send, and what it will return. -/
def remaining (job : Job) : Parser → List DataMessage × Except Error Nat
  | .opening => job.sequential
  | .reading rest count => JsonlParser.parseLines job.message job.path rest none count
  | .sending msg rest count =>
    let (sent, result) := JsonlParser.parseLines job.message job.path rest none (count + 1)
    (msg :: sent, result)
  | .done (.returned count) => ([], .ok count)
  | .done _ => ([], .error [])

theorem isDone_of_unhealthy {parser : Parser} (h : parser.healthy = false) :
    parser.isDone = true := by
  cases parser <;> first | rfl | cases h

end Parser

namespace Batcher

def isDone (b : Batcher) : Bool :=
  match b.phase with
  | .done _ => true
  | _ => false

def healthy (b : Batcher) : Bool :=
  match b.phase with
  | .done result => result.isReturned
  | _ => true

/-- It has seen the end of its input. -/
def closing (b : Batcher) : Bool :=
  match b.phase with
  | .flushing _ final => final
  | .saving => true
  | .done result => result.isReturned
  | _ => false

/-- The messages it has received and not handed on. -/
def held (b : Batcher) : List DataMessage :=
  match b.phase with
  | .flushing messages _ => messages ++ b.batch
  | _ => b.batch

theorem isDone_of_unhealthy {b : Batcher} (h : b.healthy = false) : b.isDone = true := by
  unfold healthy at h
  unfold isDone
  split at h <;> simp_all

end Batcher

namespace Publisher

def isDone : Publisher → Bool
  | .done _ => true
  | _ => false

def healthy : Publisher → Bool
  | .done result => result.isReturned
  | _ => true

def closing : Publisher → Bool
  | .done result => result.isReturned
  | _ => false

def rest : Publisher → List DataMessage
  | .publishing rest => rest
  | _ => []

theorem isDone_of_unhealthy {publisher : Publisher} (h : publisher.healthy = false) :
    publisher.isDone = true := by
  cases publisher <;> first | rfl | cases h

end Publisher

namespace Pipeline

variable {cfg : PipelineConfig} {job : Job} {p q : Pipeline}

/-! ## The moves

What a step can do, guards included; the invariants below are derived from this. -/

/-- The batcher with one more message, before its size is looked at. -/
def taken (b : Batcher) (msg : DataMessage) : Batcher :=
  { b with batch := b.batch ++ [msg], totalRecords := b.totalRecords + 1 }

def afterRecv (cfg : PipelineConfig) (b : Batcher) : Batcher :=
  if checkpointDue cfg b then { b with phase := .checkpointing, lastStateSave := b.totalRecords }
  else sizeCheck cfg b

/-- The batcher once its input is closed. -/
def afterClose (b : Batcher) : Batcher :=
  if b.batch = [] then { b with phase := .saving }
  else { b with phase := .flushing b.batch true, batch := [] }

/-- The marker updated with what the batcher has counted, and saved. -/
def checkpointed (job : Job) (p : Pipeline) (saved : Bool) : Shared :=
  (p.shared.updateFileProgress job.fileName p.tasks.batcher.totalRecords
    p.tasks.batcher.totalBatches).save saved

def setParseBuffer (p : Pipeline) (buffer : List DataMessage) : Pipeline :=
  { p with tasks := { p.tasks with parseChannel := { p.tasks.parseChannel with buffer := buffer } } }

def setBatchBuffer (p : Pipeline) (buffer : List (List DataMessage)) : Pipeline :=
  { p with tasks := { p.tasks with batchChannel := { p.tasks.batchChannel with buffer := buffer } } }

def setShared (p : Pipeline) (shared : Shared) : Pipeline := { p with shared := shared }

inductive Move (cfg : PipelineConfig) (job : Job) : Pipeline → Pipeline → Prop where
  | tick {p : Pipeline} (elapsed : Nat) :
    Move cfg job p (p.setShared { p.shared with now := p.shared.now + elapsed })
  | parserStarts {p : Pipeline} {lines} (hp : p.tasks.parser = .opening) (ho : job.opened = .ok lines) :
    Move cfg job p (p.setParser (.reading lines 0))
  | parserSkips {p : Pipeline} {line rest count} (hp : p.tasks.parser = .reading (.ok line :: rest) count)
    (hm : job.message line = none) : Move cfg job p (p.setParser (.reading rest count))
  | parserTakes {p : Pipeline} {line rest count msg} (hp : p.tasks.parser = .reading (.ok line :: rest) count)
    (hm : job.message line = some msg) : Move cfg job p (p.setParser (.sending msg rest count))
  | parserSends {p : Pipeline} {msg rest count} (hp : p.tasks.parser = .sending msg rest count)
    (hc : p.tasks.parseChannel.receiverAlive = true) :
    Move cfg job p ((p.setParseBuffer (p.tasks.parseChannel.buffer ++ [msg])).setParser
      (.reading rest (count + 1)))
  | parserFinishes {p : Pipeline} {count} (hp : p.tasks.parser = .reading [] count) :
    Move cfg job p (p.parserDone (.returned count))
  | parserStops {p : Pipeline} {msg rest count} (hp : p.tasks.parser = .sending msg rest count)
    (hc : p.tasks.parseChannel.receiverAlive = false) :
    Move cfg job p (p.parserDone (.returned count))
  | parserFails {p : Pipeline} {result} (hp : p.tasks.parser.isDone = false)
    (hr : result.isReturned = false) : Move cfg job p (p.parserDone result)
  | batcherReceives {p : Pipeline} {msg buffer} (hp : p.tasks.batcher.phase = .receiving)
    (hc : p.tasks.parseChannel.buffer = msg :: buffer) :
    Move cfg job p (((p.setParseBuffer buffer).setBatcher
      (afterRecv cfg (taken p.tasks.batcher msg))).setShared
        { p.shared with progress := p.shared.progress.increment job.dataType })
  | batcherCloses {p : Pipeline} (hp : p.tasks.batcher.phase = .receiving)
    (hc : p.tasks.parseChannel.buffer = []) (hs : p.tasks.parseChannel.senderAlive = false) :
    Move cfg job p (p.setBatcher (afterClose p.tasks.batcher))
  | batcherTimesOut {p : Pipeline} (hp : p.tasks.batcher.phase = .receiving) :
    Move cfg job p (p.setBatcher { p.tasks.batcher with
      phase := .flushing p.tasks.batcher.batch false, batch := [] })
  | stays {p : Pipeline} : Move cfg job p p
  | batcherCheckpoints {p : Pipeline} (hp : p.tasks.batcher.phase = .checkpointing) (saved : Bool) :
    Move cfg job p ((p.setBatcher (sizeCheck cfg p.tasks.batcher)).setShared
      (p.checkpointed job saved))
  | batcherFlushes {p : Pipeline} {messages final} (hp : p.tasks.batcher.phase = .flushing messages final)
    (hc : p.tasks.batchChannel.receiverAlive = true) :
    Move cfg job p ((p.setBatchBuffer (p.tasks.batchChannel.buffer ++ [messages])).setBatcher
      { p.tasks.batcher with
        phase := if final then .saving else .receiving
        totalBatches := p.tasks.batcher.totalBatches + 1 })
  | batcherSaves {p : Pipeline} (hp : p.tasks.batcher.phase = .saving) (saved : Bool) :
    Move cfg job p ((p.setShared (p.checkpointed job saved)).batcherDone (.returned ()))
  | batcherFails {p : Pipeline} {result} (hp : p.tasks.batcher.isDone = false)
    (hr : result.isReturned = false) : Move cfg job p (p.batcherDone result)
  | publisherTakes {p : Pipeline} {batch buffer} (hp : p.tasks.publisher = .waiting)
    (hc : p.tasks.batchChannel.buffer = batch :: buffer) :
    Move cfg job p ((p.setBatchBuffer buffer).setPublisher (publishRest batch))
  | publisherFinishes {p : Pipeline} (hp : p.tasks.publisher = .waiting)
    (hc : p.tasks.batchChannel.buffer = []) (hs : p.tasks.batchChannel.senderAlive = false) :
    Move cfg job p (p.publisherDone (.returned ()))
  | publisherConfirms {p : Pipeline} {msg rest reply} (hp : p.tasks.publisher = .publishing (msg :: rest))
    (hr : reply.delivered = true) :
    Move cfg job p ((p.setPublisher (publishRest rest)).setShared
      (p.shared.publish job.dataType (.data msg) reply))
  | publisherLoses {p : Pipeline} {msg rest reply result} (hp : p.tasks.publisher = .publishing (msg :: rest))
    (hr : result.isReturned = false) :
    Move cfg job p ((p.setShared (p.shared.publish job.dataType (.data msg) reply)).publisherDone
      result)
  | publisherFails {p : Pipeline} {buffer result} (hp : p.tasks.publisher.isDone = false)
    (hr : result.isReturned = false) :
    Move cfg job p ((p.setBatchBuffer buffer).publisherDone result)
  | joinsParser {p : Pipeline} {result} (hp : p.tasks.main = .joinParser) (hd : p.tasks.parser = .done result) :
    Move cfg job p (p.setMain (match result with
      | .returned count => .joinBatcher true count
      | _ => .joinBatcher false 0))
  | joinsBatcher {p : Pipeline} {fileSuccess totalCount result}
    (hp : p.tasks.main = .joinBatcher fileSuccess totalCount)
    (hd : p.tasks.batcher.phase = .done result) :
    Move cfg job p (p.setMain (.joinPublisher (fileSuccess && result.isReturned) totalCount))
  | joinsPublisher {p : Pipeline} {fileSuccess totalCount result}
    (hp : p.tasks.main = .joinPublisher fileSuccess totalCount)
    (hd : p.tasks.publisher = .done result) :
    Move cfg job p (p.setMain (if fileSuccess && result.isReturned then .announcing totalCount
      else .marking false totalCount))
  | announces {p : Pipeline} {totalCount} (hp : p.tasks.main = .announcing totalCount) (reply : Reply) :
    Move cfg job p ((p.setMain (.marking reply.delivered totalCount)).setShared
      (p.shared.publish job.dataType (p.fileComplete job totalCount) reply))
  | marks {p : Pipeline} {fileSuccess totalCount} (hp : p.tasks.main = .marking fileSuccess totalCount)
    (saved : Bool) :
    Move cfg job p ((p.setMain (.finished fileSuccess totalCount saved)).setShared
      ({ p.shared with marker := if fileSuccess then
          p.shared.marker.completeFileProcessing job.fileName totalCount p.shared.now
        else p.shared.marker }.save saved))

theorem parserOpen_move {fault : Option Error} (h : p.parserOpen job fault = some q) :
    Move cfg job p q := by
  unfold parserOpen at h
  split at h
  · next hp =>
    split at h <;> cases h
    · exact .parserFails (by simp [hp, Parser.isDone]) rfl
    · exact .parserFails (by simp [hp, Parser.isDone]) rfl
    · next ho => exact .parserStarts hp ho
  · cases h

theorem parserRead_move {fault : Option String} (h : p.parserRead job fault = some q) :
    Move cfg job p q := by
  unfold parserRead at h
  split at h
  · next rest count hp =>
    split at h
    · cases h
      exact .parserFails (by simp [hp, Parser.isDone]) rfl
    · cases h
      exact .parserFinishes hp
    · cases h
      exact .parserFails (by simp [hp, Parser.isDone]) rfl
    · split at h <;> cases h
      · next hm => exact .parserSkips hp hm
      · next hm => exact .parserTakes hp hm
  · cases h

theorem parserSend_move (h : p.parserSend = some q) : Move cfg job p q := by
  unfold parserSend at h
  split at h
  · next msg rest count hp =>
    split at h <;> cases h
    · next channel hc =>
      obtain ⟨halive, rfl⟩ := Channel.send_sent hc
      exact .parserSends hp halive
    · next hc => exact .parserStops hp (Channel.send_closed hc)
  · cases h

theorem parserPanic_move (h : p.parserPanic = some q) : Move cfg job p q := by
  unfold parserPanic at h
  split at h <;> cases h
  next hp =>
    refine .parserFails ?_ rfl
    cases hq : p.tasks.parser <;> first | rfl | exact absurd hq (hp _)

theorem batcherRecv_move (h : p.batcherRecv cfg job = some q) : Move cfg job p q := by
  unfold batcherRecv at h
  split at h
  · next hp =>
    split at h <;> cases h
    · next msg channel hc =>
      obtain ⟨hbuf, hchan⟩ := Channel.recv_received hc
      have hmove : Move cfg job p _ := .batcherReceives hp hbuf
      rw [hchan]
      exact hmove
    · next hc =>
      obtain ⟨hbuf, hs⟩ := Channel.recv_closed hc
      exact .batcherCloses hp hbuf hs
  · cases h

theorem batcherTimeout_move {elapsed : Bool} (h : p.batcherTimeout elapsed = some q) :
    Move cfg job p q := by
  unfold batcherTimeout at h
  split at h
  · next hp =>
    cases h
    split
    · exact .batcherTimesOut hp
    · exact .stays
  · cases h

theorem batcherCheckpoint_move {saved : Bool} (h : p.batcherCheckpoint cfg job saved = some q) :
    Move cfg job p q := by
  unfold batcherCheckpoint at h
  split at h
  · next hp =>
    cases h
    exact .batcherCheckpoints hp saved
  · cases h

theorem batcherFlush_move (h : p.batcherFlush = some q) : Move cfg job p q := by
  unfold batcherFlush at h
  split at h
  · next messages final hp =>
    split at h <;> cases h
    · next channel hc =>
      obtain ⟨halive, rfl⟩ := Channel.send_sent hc
      exact .batcherFlushes hp halive
    · exact .batcherFails (by simp [Batcher.isDone, hp]) rfl
  · cases h

theorem batcherSave_move {saved : Bool} (h : p.batcherSave job saved = some q) :
    Move cfg job p q := by
  unfold batcherSave at h
  split at h
  · next hp =>
    cases h
    exact .batcherSaves hp saved
  · cases h

theorem batcherPanic_move (h : p.batcherPanic = some q) : Move cfg job p q := by
  unfold batcherPanic at h
  split at h <;> cases h
  next hp =>
    refine .batcherFails ?_ rfl
    unfold Batcher.isDone
    split
    · next hq => exact absurd hq (hp _)
    · rfl

theorem publisherRecv_move {fault : Option String} (h : p.publisherRecv fault = some q) :
    Move cfg job p q := by
  unfold publisherRecv at h
  split at h
  · next hp =>
    split at h
    · next batch channel hc =>
      obtain ⟨hbuf, hchan⟩ := Channel.recv_received hc
      split at h <;> cases h
      · next e =>
        have hfails : Move cfg job p ((p.setBatchBuffer channel.buffer).publisherDone
            (.failed ["Failed to publish batch to AMQP", e])) :=
          .publisherFails (by simp [hp, Publisher.isDone]) rfl
        rw [hchan]
        exact hfails
      · have hmove : Move cfg job p _ := .publisherTakes hp hbuf
        rw [hchan]
        exact hmove
    · cases h
    · next hc =>
      cases h
      obtain ⟨hbuf, hs⟩ := Channel.recv_closed hc
      exact .publisherFinishes hp hbuf hs
  · cases h

theorem publisherPublish_move {reply : Reply} (h : p.publisherPublish cfg job reply = some q) :
    Move cfg job p q := by
  unfold publisherPublish at h
  split at h
  · next msg rest hp =>
    dsimp only at h
    split at h <;> cases h
    · next hr => exact .publisherConfirms hp ((publishResult_ok _ _).mp hr)
    · exact .publisherLoses hp rfl
  · cases h

theorem publisherPanic_move (h : p.publisherPanic = some q) : Move cfg job p q := by
  unfold publisherPanic at h
  split at h <;> cases h
  next hp =>
    have hdone : p.tasks.publisher.isDone = false := by
      cases hq : p.tasks.publisher <;> first | rfl | exact absurd hq (hp _)
    have hfails : Move cfg job p
        ((p.setBatchBuffer p.tasks.batchChannel.buffer).publisherDone .panicked) :=
      .publisherFails hdone rfl
    exact hfails

theorem join_move (h : p.join = some q) : Move cfg job p q := by
  unfold join at h
  split at h
  · next hp =>
    split at h <;> cases h
    · next hd => exact .joinsParser hp hd
    · next result hne hd =>
      have hmove : Move cfg job p _ := .joinsParser hp hd
      cases result <;> first | exact hmove | exact absurd rfl (hne _)
  · next fileSuccess totalCount hp =>
    split at h <;> cases h
    · next hd =>
      have hmove : Move cfg job p _ := .joinsBatcher hp hd
      simpa [TaskResult.isReturned] using hmove
    · next result hne hd =>
      have hmove : Move cfg job p _ := .joinsBatcher hp hd
      cases result <;> first | exact absurd rfl hne | simpa [TaskResult.isReturned] using hmove
  · next fileSuccess totalCount hp =>
    split at h <;> cases h
    · next hd =>
      have hmove : Move cfg job p _ := .joinsPublisher hp hd
      simpa [TaskResult.isReturned] using hmove
    · next result hne hd =>
      have hmove : Move cfg job p _ := .joinsPublisher hp hd
      cases result <;> first | exact absurd rfl hne | simpa [TaskResult.isReturned] using hmove
  · cases h

theorem sendFileComplete_move {reply : Reply} (h : p.sendFileComplete cfg job reply = some q) :
    Move cfg job p q := by
  unfold sendFileComplete at h
  split at h
  · next totalCount hp =>
    dsimp only at h
    have hmove : Move cfg job p _ := .announces hp reply
    split at h <;> cases h
    · next hr =>
      rw [(publishResult_ok _ _).mp hr] at hmove
      exact hmove
    · next hr =>
      rw [publishResult_error hr] at hmove
      exact hmove
  · cases h

theorem markFile_move {saved : Bool} (h : p.markFile job saved = some q) : Move cfg job p q := by
  unfold markFile at h
  split at h
  · next fileSuccess totalCount hp =>
    cases h
    exact .marks hp saved
  · cases h

theorem step_move {l : Label} (h : step cfg job p l = some q) : Move cfg job p q := by
  cases l with
  | tick elapsed => cases h; exact .tick elapsed
  | parserOpen fault => exact parserOpen_move h
  | parserRead fault => exact parserRead_move h
  | parserSend => exact parserSend_move h
  | parserPanic => exact parserPanic_move h
  | batcherRecv => exact batcherRecv_move h
  | batcherTimeout elapsed => exact batcherTimeout_move h
  | batcherCheckpoint saved => exact batcherCheckpoint_move h
  | batcherFlush => exact batcherFlush_move h
  | batcherSave saved => exact batcherSave_move h
  | batcherPanic => exact batcherPanic_move h
  | publisherRecv fault => exact publisherRecv_move h
  | publisherPublish reply => exact publisherPublish_move h
  | publisherPanic => exact publisherPanic_move h
  | join => exact join_move h
  | sendFileComplete reply => exact sendFileComplete_move h
  | markFile saved => exact markFile_move h

end Pipeline

end MusicbrainzIngestion
