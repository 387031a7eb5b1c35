import MusicbrainzIngestion.Base.Channel
import MusicbrainzIngestion.Base.Machine
import MusicbrainzIngestion.JsonlParser
import MusicbrainzIngestion.MessageQueue
import MusicbrainzIngestion.StateMarker

/-! One file's pipeline: the parser, the batcher and the publisher, each a task of
its own, two bounded channels between them, and the orchestrator that awaits them
in turn. A label names the task that moves and what its surroundings answer, so a
run is one interleaving with one choice of timings, failures and panics. -/

namespace MusicbrainzIngestion
open Base

structure PipelineConfig where
  batchSize : Nat
  queueSize : Nat
  stateSaveInterval : Nat
  exchangePrefix : String

/-- One file to process: what opening it gives, and what each of its lines sends. -/
structure Job where
  dataType : DataType
  fileName : String
  path : String
  opened : Except Error (List (Except String String))
  message : String → Option DataMessage

/-- The parser run to its end with the receiver kept open. -/
def Job.sequential (job : Job) : List DataMessage × Except Error Nat :=
  match job.opened with
  | .ok lines => JsonlParser.parseLines job.message job.path lines none 0
  | .error e => ([], .error e)

/-- The messages of the whole file, in file order. -/
def Job.records (job : Job) : List DataMessage := job.sequential.1

/-- The job of a dump file. -/
def Job.ofFile (env : Externals) (path fileName : String) (dt : DataType)
    (map : Option JsonlParser.DiscogsMap) (dumpVersion : String) : Job where
  dataType := dt
  fileName := fileName
  path := path
  opened := match JsonlParser.openJsonlReader env path with
    | .error e => .error (("Failed to open JSONL file: \"" ++ path ++ "\"") :: e)
    | .ok stream => .ok stream.lines
  message := JsonlParser.lineMessage env dt map dumpVersion

theorem Job.sequential_ofFile (env : Externals) (path fileName : String) (dt : DataType)
    (map : Option JsonlParser.DiscogsMap) (dumpVersion : String) :
    (Job.ofFile env path fileName dt map dumpVersion).sequential =
      JsonlParser.parseMbJsonlFile env path dt none map dumpVersion := by
  unfold Job.sequential Job.ofFile JsonlParser.parseMbJsonlFile
  cases JsonlParser.openJsonlReader env path <;> rfl

/-- What outlives a file: the clock, the marker on disk, the publishes made so far, and the
in-memory marker and tally of the run. -/
structure Shared where
  now : DateTime
  disk : Option StateMarker
  log : List Attempt
  marker : StateMarker
  progress : ExtractionProgress

namespace Shared

/-- A save: it stamps the marker, and either replaces the file or leaves it as it was. -/
def save (s : Shared) (saved : Bool) : Shared :=
  let marker := s.marker.stamped s.now
  { s with marker := marker, disk := if saved then some marker else s.disk }

def publish (s : Shared) (exchange : DataType) (message : Message) (reply : Reply) : Shared :=
  { s with log := s.log ++ [{ exchange, message, reply, time := s.now }] }

def updateFileProgress (s : Shared) (fileName : String) (records batches : Nat) : Shared :=
  { s with marker := s.marker.updateFileProgress fileName records records batches s.now }

end Shared

/-- How a task ended, as its join handle reports it. -/
inductive TaskResult (α : Type) where
  | returned (a : α)
  | failed (e : Error)
  | panicked

inductive Parser where
  | opening
  | reading (rest : List (Except String String)) (count : Nat)
  | sending (msg : DataMessage) (rest : List (Except String String)) (count : Nat)
  | done (result : TaskResult Nat)

inductive BatcherPhase where
  | receiving
  | checkpointing
  | flushing (messages : List DataMessage) (final : Bool)
  | saving
  | done (result : TaskResult Unit)

structure Batcher where
  phase : BatcherPhase
  batch : List DataMessage
  totalRecords : Nat
  totalBatches : Nat
  lastStateSave : Nat

inductive Publisher where
  | waiting
  | publishing (rest : List DataMessage)
  | done (result : TaskResult Unit)

/-- The orchestrator: it awaits the three handles in order, then announces and marks. -/
inductive Main where
  | joinParser
  | joinBatcher (fileSuccess : Bool) (totalCount : Nat)
  | joinPublisher (fileSuccess : Bool) (totalCount : Nat)
  | announcing (totalCount : Nat)
  | marking (fileSuccess : Bool) (totalCount : Nat)
  | finished (fileSuccess : Bool) (totalCount : Nat) (saved : Bool)

structure Tasks where
  parser : Parser
  parseChannel : Channel DataMessage
  batcher : Batcher
  batchChannel : Channel (List DataMessage)
  publisher : Publisher
  main : Main

def Tasks.spawn (cfg : PipelineConfig) : Tasks where
  parser := .opening
  parseChannel := .new cfg.queueSize
  batcher := {
    phase := .receiving, batch := [], totalRecords := 0, totalBatches := 0, lastStateSave := 0 }
  batchChannel := .new 100
  publisher := .waiting
  main := .joinParser

structure Pipeline where
  shared : Shared
  tasks : Tasks

namespace Pipeline

inductive Label where
  | tick (elapsed : Nat)
  | parserOpen (fault : Option Error)
  | parserRead (fault : Option String)
  | parserSend
  | parserPanic
  | batcherRecv
  | batcherTimeout (elapsed : Bool)
  | batcherCheckpoint (saved : Bool)
  | batcherFlush
  | batcherSave (saved : Bool)
  | batcherPanic
  | publisherRecv (fault : Option String)
  | publisherPublish (reply : Reply)
  | publisherPanic
  | join
  | sendFileComplete (reply : Reply)
  | markFile (saved : Bool)

variable (cfg : PipelineConfig) (job : Job)

/-! ## The parser -/

/-- Returning drops the parser's end of the channel. -/
def parserDone (p : Pipeline) (result : TaskResult Nat) : Pipeline :=
  { p with tasks := { p.tasks with
      parser := .done result, parseChannel := p.tasks.parseChannel.dropSender } }

def setParser (p : Pipeline) (parser : Parser) : Pipeline :=
  { p with tasks := { p.tasks with parser := parser } }

def parserOpen (p : Pipeline) (fault : Option Error) : Option Pipeline :=
  match p.tasks.parser with
  | .opening =>
    match fault, job.opened with
    | some e, _ => some (p.parserDone (.failed e))
    | none, .error e => some (p.parserDone (.failed e))
    | none, .ok lines => some (p.setParser (.reading lines 0))
  | _ => none

def parserRead (p : Pipeline) (fault : Option String) : Option Pipeline :=
  match p.tasks.parser with
  | .reading rest count =>
    match fault, rest with
    | some e, _ => some (p.parserDone (.failed (JsonlParser.readError job.path e)))
    | none, [] => some (p.parserDone (.returned count))
    | none, .error e :: _ => some (p.parserDone (.failed (JsonlParser.readError job.path e)))
    | none, .ok line :: rest =>
      match job.message line with
      | none => some (p.setParser (.reading rest count))
      | some msg => some (p.setParser (.sending msg rest count))
  | _ => none

/-- A blocking send: it waits while the channel is full, and stops the parse without an
error when the receiver is gone. -/
def parserSend (p : Pipeline) : Option Pipeline :=
  match p.tasks.parser with
  | .sending msg rest count =>
    match p.tasks.parseChannel.send msg with
    | .sent channel =>
      some { p with tasks := { p.tasks with
        parser := .reading rest (count + 1), parseChannel := channel } }
    | .full => none
    | .closed => some (p.parserDone (.returned count))
  | _ => none

def parserPanic (p : Pipeline) : Option Pipeline :=
  match p.tasks.parser with
  | .done _ => none
  | _ => some (p.parserDone .panicked)

/-! ## The batcher -/

def setBatcher (p : Pipeline) (batcher : Batcher) : Pipeline :=
  { p with tasks := { p.tasks with batcher := batcher } }

/-- Returning drops the batcher's end of both channels. -/
def batcherDone (p : Pipeline) (result : TaskResult Unit) : Pipeline :=
  { p with tasks := { p.tasks with
      batcher := { p.tasks.batcher with phase := .done result }
      parseChannel := p.tasks.parseChannel.dropReceiver
      batchChannel := p.tasks.batchChannel.dropSender } }

/-- Hand a batch that reached its size to the flush. -/
def sizeCheck (b : Batcher) : Batcher :=
  if cfg.batchSize ≤ b.batch.length then { b with phase := .flushing b.batch false, batch := [] }
  else { b with phase := .receiving }

def checkpointDue (b : Batcher) : Bool :=
  decide (b.totalRecords % cfg.stateSaveInterval = 0 ∧ b.totalRecords ≠ b.lastStateSave)

def batcherRecv (p : Pipeline) : Option Pipeline :=
  match p.tasks.batcher.phase with
  | .receiving =>
    match p.tasks.parseChannel.recv with
    | .received msg channel =>
      let b := { p.tasks.batcher with
        batch := p.tasks.batcher.batch ++ [msg]
        totalRecords := p.tasks.batcher.totalRecords + 1 }
      let b := if checkpointDue cfg b then
          { b with phase := .checkpointing, lastStateSave := b.totalRecords }
        else sizeCheck cfg b
      some {
        shared := { p.shared with progress := p.shared.progress.increment job.dataType }
        tasks := { p.tasks with batcher := b, parseChannel := channel } }
    | .empty => none
    | .closed =>
      let b := p.tasks.batcher
      some (p.setBatcher (if b.batch = [] then { b with phase := .saving }
        else { b with phase := .flushing b.batch true, batch := [] }))
  | _ => none

/-- The receive timed out. It may also do so while a message is buffered: the runtime lets
a task that has used its budget see the channel as pending. -/
def batcherTimeout (p : Pipeline) (elapsed : Bool) : Option Pipeline :=
  match p.tasks.batcher.phase with
  | .receiving =>
    let b := p.tasks.batcher
    some (if b.batch ≠ [] ∧ elapsed then
        p.setBatcher { b with phase := .flushing b.batch false, batch := [] }
      else p)
  | _ => none

/-- A checkpoint: a save that fails is only logged. -/
def batcherCheckpoint (p : Pipeline) (saved : Bool) : Option Pipeline :=
  match p.tasks.batcher.phase with
  | .checkpointing =>
    let b := p.tasks.batcher
    some {
      shared := (p.shared.updateFileProgress job.fileName b.totalRecords b.totalBatches).save saved
      tasks := { p.tasks with batcher := sizeCheck cfg b } }
  | _ => none

def batcherFlush (p : Pipeline) : Option Pipeline :=
  match p.tasks.batcher.phase with
  | .flushing messages final =>
    match p.tasks.batchChannel.send messages with
    | .sent channel =>
      some { p with tasks := { p.tasks with
        batcher := { p.tasks.batcher with
          phase := if final then .saving else .receiving
          totalBatches := p.tasks.batcher.totalBatches + 1 }
        batchChannel := channel } }
    | .full => none
    | .closed => some (p.batcherDone (.failed ["channel closed"]))
  | _ => none

def batcherSave (p : Pipeline) (saved : Bool) : Option Pipeline :=
  match p.tasks.batcher.phase with
  | .saving =>
    let b := p.tasks.batcher
    let shared :=
      (p.shared.updateFileProgress job.fileName b.totalRecords b.totalBatches).save saved
    some ({ p with shared := shared }.batcherDone (.returned ()))
  | _ => none

def batcherPanic (p : Pipeline) : Option Pipeline :=
  match p.tasks.batcher.phase with
  | .done _ => none
  | _ => some (p.batcherDone .panicked)

/-! ## The publisher -/

def setPublisher (p : Pipeline) (publisher : Publisher) : Pipeline :=
  { p with tasks := { p.tasks with publisher := publisher } }

def publisherDone (p : Pipeline) (result : TaskResult Unit) : Pipeline :=
  { p with tasks := { p.tasks with
      publisher := .done result, batchChannel := p.tasks.batchChannel.dropReceiver } }

/-- The publisher after `rest` is left of its batch. -/
def publishRest : List DataMessage → Publisher
  | [] => .waiting
  | rest => .publishing rest

/-- Receive a batch and get a channel to publish it on. -/
def publisherRecv (p : Pipeline) (fault : Option String) : Option Pipeline :=
  match p.tasks.publisher with
  | .waiting =>
    match p.tasks.batchChannel.recv with
    | .received batch channel =>
      let q := { p with tasks := { p.tasks with batchChannel := channel } }
      match fault with
      | some e => some (q.publisherDone (.failed ["Failed to publish batch to AMQP", e]))
      | none => some (q.setPublisher (publishRest batch))
    | .empty => none
    | .closed => some (p.publisherDone (.returned ()))
  | _ => none

def publisherPublish (p : Pipeline) (reply : Reply) : Option Pipeline :=
  match p.tasks.publisher with
  | .publishing (msg :: rest) =>
    let q := { p with shared := p.shared.publish job.dataType (.data msg) reply }
    match publishResult (exchangeName cfg.exchangePrefix job.dataType) reply with
    | .ok () => some (q.setPublisher (publishRest rest))
    | .error e => some (q.publisherDone (.failed ("Failed to publish batch to AMQP" :: e)))
  | _ => none

def publisherPanic (p : Pipeline) : Option Pipeline :=
  match p.tasks.publisher with
  | .done _ => none
  | _ => some (p.publisherDone .panicked)

/-! ## The orchestrator -/

def setMain (p : Pipeline) (main : Main) : Pipeline :=
  { p with tasks := { p.tasks with main := main } }

/-- Await the next handle. -/
def join (p : Pipeline) : Option Pipeline :=
  match p.tasks.main with
  | .joinParser =>
    match p.tasks.parser with
    | .done (.returned count) => some (p.setMain (.joinBatcher true count))
    | .done _ => some (p.setMain (.joinBatcher false 0))
    | _ => none
  | .joinBatcher fileSuccess totalCount =>
    match p.tasks.batcher.phase with
    | .done (.returned ()) => some (p.setMain (.joinPublisher fileSuccess totalCount))
    | .done _ => some (p.setMain (.joinPublisher false totalCount))
    | _ => none
  | .joinPublisher fileSuccess totalCount =>
    match p.tasks.publisher with
    | .done (.returned ()) =>
      some (p.setMain (if fileSuccess then .announcing totalCount else .marking false totalCount))
    | .done _ => some (p.setMain (.marking false totalCount))
    | _ => none
  | _ => none

def fileComplete (p : Pipeline) (totalCount : Nat) : Message :=
  .fileComplete {
    dataType := job.dataType.asStr
    timestamp := p.shared.now
    totalProcessed := totalCount
    file := job.fileName }

/-- Sent before the file is marked; a failed send leaves it pending. -/
def sendFileComplete (p : Pipeline) (reply : Reply) : Option Pipeline :=
  match p.tasks.main with
  | .announcing totalCount =>
    let q := { p with
      shared := p.shared.publish job.dataType (p.fileComplete job totalCount) reply }
    match publishResult (exchangeName cfg.exchangePrefix job.dataType) reply with
    | .ok () => some (q.setMain (.marking true totalCount))
    | .error _ => some (q.setMain (.marking false totalCount))
  | _ => none

def markFile (p : Pipeline) (saved : Bool) : Option Pipeline :=
  match p.tasks.main with
  | .marking fileSuccess totalCount =>
    let marker := if fileSuccess then
        p.shared.marker.completeFileProcessing job.fileName totalCount p.shared.now
      else p.shared.marker
    some ({ p with shared := { p.shared with marker := marker }.save saved }.setMain
      (.finished fileSuccess totalCount saved))
  | _ => none

/-- The pipeline of a file as the orchestrator spawns it, the file just marked as started. -/
def start (s : Shared) : Pipeline where
  shared :=
    { s with marker := s.marker.startFileProcessing job.fileName s.now }.save true
  tasks := Tasks.spawn cfg

def step (p : Pipeline) : Label → Option Pipeline
  | .tick elapsed => some { p with shared := { p.shared with now := p.shared.now + elapsed } }
  | .parserOpen fault => p.parserOpen job fault
  | .parserRead fault => p.parserRead job fault
  | .parserSend => p.parserSend
  | .parserPanic => p.parserPanic
  | .batcherRecv => p.batcherRecv cfg job
  | .batcherTimeout elapsed => p.batcherTimeout elapsed
  | .batcherCheckpoint saved => p.batcherCheckpoint cfg job saved
  | .batcherFlush => p.batcherFlush
  | .batcherSave saved => p.batcherSave job saved
  | .batcherPanic => p.batcherPanic
  | .publisherRecv fault => p.publisherRecv fault
  | .publisherPublish reply => p.publisherPublish cfg job reply
  | .publisherPanic => p.publisherPanic
  | .join => p.join
  | .sendFileComplete reply => p.sendFileComplete cfg job reply
  | .markFile saved => p.markFile job saved

def machine : Machine Pipeline Label where
  init p := ∃ s, p = start cfg job s
  step := step cfg job

end Pipeline

end MusicbrainzIngestion
