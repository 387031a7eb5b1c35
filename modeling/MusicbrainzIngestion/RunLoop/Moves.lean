import MusicbrainzIngestion.RunLoop

/-! What a step of the run loop can do: one constructor for each way each piece of a task can
go, with what it found. Invariants are proved over these. -/

namespace MusicbrainzIngestion
open Base

namespace RunLoop

inductive Move (cfg : ServiceConfig) (forceReprocess : Bool) (s : RunLoop) :
    Label → RunLoop → Prop where
  | service {l : Service.Label} {service : Service} (hl : ofRun l = true)
    (hs : s.service.step cfg l = some service) :
    Move cfg forceReprocess s (.service l) { s with service := service }
  | signals (hs : s.signalled = false) :
    Move cfg forceReprocess s .signal
      { s with notify := s.notify.notifyWaiters, signalled := true }
  | monitorWaits (hm : s.monitor = .spawned) :
    Move cfg forceReprocess s .pollMonitor { s with monitor := .waiting s.notify.notified }
  | monitorStores {shutdown : Notified} (hm : s.monitor = .waiting shutdown)
    (hr : shutdown.ready s.notify = true) :
    Move cfg forceReprocess s .storeFlag
      { s with service := { s.service with shutdown := true }, monitor := .done }
  | spawns (hl : s.loop = .starting) :
    Move cfg forceReprocess s .spawnMonitor
      { s with monitor := .spawned, loop := .calling .initial forceReprocess }
  | starts {arm : Arm} {force : Bool} {service : Service} (hl : s.loop = .calling arm force)
    (hs : s.service.begin force = some service) :
    Move cfg forceReprocess s .startRun
      { s with service := service, loop := .running arm, history := .started force :: s.history }
  | initialFails {e : Error} (hl : s.loop = .running .initial) (hp : s.service.phase = .idle)
    (ho : s.service.outcome = some (.error e) ∨ ∃ success, s.service.outcome = some (.ok success) ∧
      initialRunOutcome success s.service.shutdown "MusicBrainz" = .error e) :
    Move cfg forceReprocess s .returned (s.goto (.left (.error e)))
  | initialEnds {success : Bool} (hl : s.loop = .running .initial) (hp : s.service.phase = .idle)
    (ho : s.service.outcome = some (.ok success))
    (hi : initialRunOutcome success s.service.shutdown "MusicBrainz" = .ok ()) :
    Move cfg forceReprocess s .returned (s.goto .top)
  | laterFails {arm : Arm} {e : Error} (hl : s.loop = .running arm) (ha : arm ≠ .initial)
    (hp : s.service.phase = .idle) (ho : s.service.outcome = some (.error e)) :
    Move cfg forceReprocess s .returned (s.goto .resetting)
  | laterEnds {arm : Arm} {success : Bool} (hl : s.loop = .running arm) (ha : arm ≠ .initial)
    (hp : s.service.phase = .idle) (ho : s.service.outcome = some (.ok success)) :
    Move cfg forceReprocess s .returned (s.goto .top)
  | resets (hl : s.loop = .resetting) :
    Move cfg forceReprocess s .resetStatus ((s.setStatus .failed).goto .top)
  | leaves (hl : s.loop = .top) (hf : s.service.shutdown = true) :
    Move cfg forceReprocess s .loadFlag (s.goto (.left (.ok ())))
  | goesOn (hl : s.loop = .top) (hf : s.service.shutdown = false) :
    Move cfg forceReprocess s .loadFlag (s.goto .settling)
  | settles (hl : s.loop = .settling) (hs : s.service.status = .completed) :
    Move cfg forceReprocess s .settle ((s.setStatus .waiting).goto .entering)
  | staysFailed (hl : s.loop = .settling) (hs : s.service.status ≠ .completed) :
    Move cfg forceReprocess s .settle (s.goto .entering)
  | enters (hl : s.loop = .entering) :
    Move cfg forceReprocess s .enterSelect (s.goto (.waiting s.notify.notified .polling))
  | timerFires {shutdown : Notified} {trigger : TriggerWait} (hl : s.loop = .waiting shutdown trigger) :
    Move cfg forceReprocess s .timer (s.goto (.calling .periodic false))
  | takes {shutdown : Notified} {force : Bool} (hl : s.loop = .waiting shutdown .polling)
    (hh : s.handler = none) (hm : s.mailbox = some force) :
    Move cfg forceReprocess s .pollTrigger
      ({ s with mailbox := none }.goto (.calling .triggered force))
  | sleeps {shutdown : Notified} (hl : s.loop = .waiting shutdown .polling) (hh : s.handler = none)
    (hm : s.mailbox = none) :
    Move cfg forceReprocess s .pollTrigger (s.goto (.waiting shutdown .sleeping))
  | wakes {shutdown : Notified} (hl : s.loop = .waiting shutdown .sleeping) :
    Move cfg forceReprocess s .wakeTrigger (s.goto (.waiting shutdown .polling))
  | stops {shutdown : Notified} {trigger : TriggerWait} (hl : s.loop = .waiting shutdown trigger)
    (hr : shutdown.ready s.notify = true) :
    Move cfg forceReprocess s .shutdownArm (s.goto (.left (.ok ())))
  | locks {body : Option Bool} (hh : s.handler = none) :
    Move cfg forceReprocess s (.lock body) { s with handler := some (.locked (body.getD false)) }
  | refuses {force : Bool} (hh : s.handler = some (.locked force))
    (hs : s.service.status = .running) :
    Move cfg forceReprocess s .readStatus
      { s with handler := none, history := .answered force alreadyRunning :: s.history }
  | allows {force : Bool} (hh : s.handler = some (.locked force))
    (hs : s.service.status ≠ .running) :
    Move cfg forceReprocess s .readStatus { s with handler := some (.allowed force) }
  | accepts {force : Bool} (hh : s.handler = some (.allowed force)) :
    Move cfg forceReprocess s .accept
      { s with
        mailbox := some force
        handler := none
        history := .answered force (triggerStarted force) :: s.history }
  | drops {handler : Handler} (hh : s.handler = some handler) :
    Move cfg forceReprocess s .dropRequest { s with handler := none }

variable {cfg : ServiceConfig} {forceReprocess : Bool} {s t : RunLoop}

theorem returned_move (h : s.returned = some t) : Move cfg forceReprocess s .returned t := by
  unfold returned at h
  split at h
  · next hl hp ho =>
    cases h
    exact .initialFails hl hp (Or.inl ho)
  · next success hl hp ho =>
    split at h <;> cases h
    · next hi => exact .initialFails hl hp (Or.inr ⟨success, ho, hi⟩)
    · next hi => exact .initialEnds hl hp ho hi
  · next ha hl hp ho =>
    cases h
    exact .laterFails hl ha hp ho
  · next ha hl hp ho =>
    cases h
    exact .laterEnds hl ha hp ho
  · cases h

theorem loadFlag_move (h : s.loadFlag = some t) : Move cfg forceReprocess s .loadFlag t := by
  unfold loadFlag at h
  split at h
  · next hl =>
    split at h <;> cases h
    · next hf => exact .leaves hl hf
    · next hf => exact .goesOn hl (Bool.eq_false_iff.mpr hf)
  · cases h

theorem pollTrigger_move (h : s.pollTrigger = some t) :
    Move cfg forceReprocess s .pollTrigger t := by
  unfold pollTrigger at h
  split at h
  · next hl hh =>
    split at h <;> cases h
    · next hm => exact .takes hl hh hm
    · next hm => exact .sleeps hl hh hm
  · cases h

theorem step_move {label : Label} (h : step cfg forceReprocess s label = some t) :
    Move cfg forceReprocess s label t := by
  cases label with
  | returned => exact returned_move h
  | loadFlag => exact loadFlag_move h
  | pollTrigger => exact pollTrigger_move h
  | service l =>
    simp only [step, runService] at h
    split at h
    · next hl =>
      split at h <;> cases h
      next hs => exact .service hl hs
    · cases h
  | signal =>
    simp only [step, signal] at h
    split at h <;> cases h
    next hs => exact .signals (Bool.eq_false_iff.mpr hs)
  | pollMonitor =>
    simp only [step, pollMonitor] at h
    split at h <;> cases h
    next hm => exact .monitorWaits hm
  | storeFlag =>
    simp only [step, storeFlag] at h
    split at h
    · next hm =>
      split at h <;> cases h
      next hr => exact .monitorStores hm hr
    · cases h
  | spawnMonitor =>
    simp only [step, spawnMonitor] at h
    split at h <;> cases h
    next hl => exact .spawns hl
  | startRun =>
    simp only [step, startRun] at h
    split at h
    · next hl =>
      split at h <;> cases h
      next hs => exact .starts hl hs
    · cases h
  | resetStatus =>
    simp only [step, resetStatusAfterFailedCheck] at h
    split at h <;> cases h
    next hl => exact .resets hl
  | settle =>
    simp only [step, settle] at h
    split at h
    · next hl =>
      split at h <;> cases h
      · next hs => exact .settles hl hs
      · next hs => exact .staysFailed hl hs
    · cases h
  | enterSelect =>
    simp only [step, enterSelect] at h
    split at h <;> cases h
    next hl => exact .enters hl
  | timer =>
    simp only [step, timer] at h
    split at h <;> cases h
    next hl => exact .timerFires hl
  | wakeTrigger =>
    simp only [step, wakeTrigger] at h
    split at h <;> cases h
    next hl => exact .wakes hl
  | shutdownArm =>
    simp only [step, shutdownArm] at h
    split at h
    · next hl =>
      split at h <;> cases h
      next hr => exact .stops hl hr
    · cases h
  | lock body =>
    simp only [step, lock] at h
    split at h <;> cases h
    next hh => exact .locks hh
  | readStatus =>
    simp only [step, readStatus] at h
    split at h
    · next hh =>
      split at h <;> cases h
      · next hs => exact .refuses hh hs
      · next hs => exact .allows hh hs
    · cases h
  | accept =>
    simp only [step, accept] at h
    split at h <;> cases h
    next hh => exact .accepts hh
  | dropRequest =>
    simp only [step, dropRequest] at h
    split at h <;> cases h
    next hh => exact .drops hh

end RunLoop

end MusicbrainzIngestion
