import MusicbrainzIngestion.Base.Notify
import MusicbrainzIngestion.Service

/-! The process around the runs: the task that waits for a signal, the task that turns it into
a flag, the handlers of trigger requests and the loop that starts one run after another. Each
label is one piece of one task that no other task can come between. -/

namespace MusicbrainzIngestion
open Base

/-! ## The state -/

structure TriggerResponse where
  statusCode : Nat
  body : Json.Value

def alreadyRunning : TriggerResponse :=
  ⟨409, .object [("status", .string "already_running")]⟩

def triggerStarted (force : Bool) : TriggerResponse :=
  ⟨202, .object [("force_reprocess", .bool force), ("status", .string "started")]⟩

/-- What a client or an operator can see: an answered trigger request, the start of a run. -/
inductive Event where
  | answered (force : Bool) (response : TriggerResponse)
  | started (force : Bool)

namespace RunLoop

/-- The shutdown flag monitor. Its waiter is created when the task is first polled. -/
inductive Monitor where
  | unspawned
  | spawned
  | waiting (shutdown : Notified)
  | done

/-- What a run was started by. -/
inductive Arm where
  | initial
  | periodic
  | triggered

/-- `wait_for_trigger` looks at the mailbox, or sleeps until it does so again. -/
inductive TriggerWait where
  | polling
  | sleeping

inductive Loop where
  | starting
  | calling (arm : Arm) (force : Bool)
  | running (arm : Arm)
  | resetting
  | top
  | settling
  | entering
  | waiting (shutdown : Notified) (trigger : TriggerWait)
  | left (result : Except Error Unit)

/-- A handler that holds the mailbox: it has yet to read the status, or may write. -/
inductive Handler where
  | locked (force : Bool)
  | allowed (force : Bool)

inductive Label where
  | service (l : Service.Label)
  | signal
  | pollMonitor
  | storeFlag
  | spawnMonitor
  | startRun
  | returned
  | resetStatus
  | loadFlag
  | settle
  | enterSelect
  | timer
  | pollTrigger
  | wakeTrigger
  | shutdownArm
  | lock (body : Option Bool)
  | readStatus
  | accept
  | dropRequest

end RunLoop

/-- The flag is the service's; `history` is the newest event first. -/
structure RunLoop where
  service : Service
  notify : Notify
  signalled : Bool
  monitor : RunLoop.Monitor
  loop : RunLoop.Loop
  mailbox : Option Bool
  handler : Option RunLoop.Handler
  history : List Event

def initialRunOutcome (success shutdownRequested : Bool) (sourceLabel : String) :
    Except Error Unit :=
  if shutdownRequested then .ok ()
  else if !success then .error ["Initial " ++ sourceLabel ++ " processing failed"]
  else .ok ()

namespace RunLoop

variable (cfg : ServiceConfig) (forceReprocess : Bool)

def goto (s : RunLoop) (loop : Loop) : RunLoop := { s with loop := loop }

def setStatus (s : RunLoop) (status : ExtractionStatus) : RunLoop :=
  { s with service := { s.service with status := status } }

/-! ## The signal -/

/-- The handler of the first signal, after which no other one is waited for. -/
def signal (s : RunLoop) : Option RunLoop :=
  if s.signalled then none
  else some { s with notify := s.notify.notifyWaiters, signalled := true }

def pollMonitor (s : RunLoop) : Option RunLoop :=
  match s.monitor with
  | .spawned => some { s with monitor := .waiting s.notify.notified }
  | _ => none

def storeFlag (s : RunLoop) : Option RunLoop :=
  match s.monitor with
  | .waiting shutdown =>
    if shutdown.ready s.notify then
      some { s with service := { s.service with shutdown := true }, monitor := .done }
    else none
  | _ => none

/-! ## The loop -/

def spawnMonitor (s : RunLoop) : Option RunLoop :=
  match s.loop with
  | .starting => some { s with monitor := .spawned, loop := .calling .initial forceReprocess }
  | _ => none

def startRun (s : RunLoop) : Option RunLoop :=
  match s.loop with
  | .calling arm force =>
    match s.service.begin force with
    | some service => some { s with
        service := service, loop := .running arm, history := .started force :: s.history }
    | none => none
  | _ => none

/-- What a run does by itself, and what happens to the disk. -/
def ofRun : Service.Label → Bool
  | .begin _ | .requestShutdown | .crash => false
  | _ => true

def runService (s : RunLoop) (l : Service.Label) : Option RunLoop :=
  if ofRun l then
    match s.service.step cfg l with
    | some service => some { s with service := service }
    | none => none
  else none

/-- Only the first run's failure ends the loop. -/
def returned (s : RunLoop) : Option RunLoop :=
  match s.loop, s.service.phase, s.service.outcome with
  | .running .initial, .idle, some (.error e) => some (s.goto (.left (.error e)))
  | .running .initial, .idle, some (.ok success) =>
    match initialRunOutcome success s.service.shutdown "MusicBrainz" with
    | .error e => some (s.goto (.left (.error e)))
    | .ok () => some (s.goto .top)
  | .running _, .idle, some (.error _) => some (s.goto .resetting)
  | .running _, .idle, some (.ok _) => some (s.goto .top)
  | _, _, _ => none

def resetStatusAfterFailedCheck (s : RunLoop) : Option RunLoop :=
  match s.loop with
  | .resetting => some ((s.setStatus .failed).goto .top)
  | _ => none

def loadFlag (s : RunLoop) : Option RunLoop :=
  match s.loop with
  | .top => some (s.goto (if s.service.shutdown then .left (.ok ()) else .settling))
  | _ => none

def settle (s : RunLoop) : Option RunLoop :=
  match s.loop with
  | .settling =>
    some ((if s.service.status = .completed then s.setStatus .waiting else s).goto .entering)
  | _ => none

/-- The futures of all three arms are created before any of them is polled. -/
def enterSelect (s : RunLoop) : Option RunLoop :=
  match s.loop with
  | .entering => some (s.goto (.waiting s.notify.notified .polling))
  | _ => none

/-- Whichever arm is taken, the futures of the other two are dropped. -/
def timer (s : RunLoop) : Option RunLoop :=
  match s.loop with
  | .waiting _ _ => some (s.goto (.calling .periodic false))
  | _ => none

/-- With the mailbox to itself, `wait_for_trigger` takes what is there and is done at once. -/
def pollTrigger (s : RunLoop) : Option RunLoop :=
  match s.loop, s.handler with
  | .waiting shutdown .polling, none =>
    match s.mailbox with
    | some force => some ({ s with mailbox := none }.goto (.calling .triggered force))
    | none => some (s.goto (.waiting shutdown .sleeping))
  | _, _ => none

def wakeTrigger (s : RunLoop) : Option RunLoop :=
  match s.loop with
  | .waiting shutdown .sleeping => some (s.goto (.waiting shutdown .polling))
  | _ => none

def shutdownArm (s : RunLoop) : Option RunLoop :=
  match s.loop with
  | .waiting shutdown _ => if shutdown.ready s.notify then some (s.goto (.left (.ok ()))) else none
  | _ => none

/-! ## Trigger requests -/

/-- One handler at a time holds the mailbox. No body is a body without the field. -/
def lock (s : RunLoop) (body : Option Bool) : Option RunLoop :=
  match s.handler with
  | none => some { s with handler := some (.locked (body.getD false)) }
  | some _ => none

def readStatus (s : RunLoop) : Option RunLoop :=
  match s.handler with
  | some (.locked force) =>
    if s.service.status = .running then
      some { s with handler := none, history := .answered force alreadyRunning :: s.history }
    else some { s with handler := some (.allowed force) }
  | _ => none

/-- The status may have changed since it was read. -/
def accept (s : RunLoop) : Option RunLoop :=
  match s.handler with
  | some (.allowed force) =>
    some { s with
      mailbox := some force
      handler := none
      history := .answered force (triggerStarted force) :: s.history }
  | _ => none

/-- The client is gone before its request was accepted. -/
def dropRequest (s : RunLoop) : Option RunLoop :=
  match s.handler with
  | some _ => some { s with handler := none }
  | none => none

/-! ## The machine -/

def step (s : RunLoop) : Label → Option RunLoop
  | .service l => s.runService cfg l
  | .signal => s.signal
  | .pollMonitor => s.pollMonitor
  | .storeFlag => s.storeFlag
  | .spawnMonitor => s.spawnMonitor forceReprocess
  | .startRun => s.startRun
  | .returned => s.returned
  | .resetStatus => s.resetStatusAfterFailedCheck
  | .loadFlag => s.loadFlag
  | .settle => s.settle
  | .enterSelect => s.enterSelect
  | .timer => s.timer
  | .pollTrigger => s.pollTrigger
  | .wakeTrigger => s.wakeTrigger
  | .shutdownArm => s.shutdownArm
  | .lock body => s.lock body
  | .readStatus => s.readStatus
  | .accept => s.accept
  | .dropRequest => s.dropRequest

def initial (service : Service) : RunLoop where
  service := service
  notify := ⟨0⟩
  signalled := false
  monitor := .unspawned
  loop := .starting
  mailbox := none
  handler := none
  history := []

/-- A process that has just started, over whatever is on disk. -/
def machine : Machine RunLoop Label where
  init s := ∃ service : Service, service.phase = .idle ∧ service.status = .idle ∧
    service.shutdown = false ∧ s = initial service
  step := step cfg forceReprocess

end RunLoop

end MusicbrainzIngestion
