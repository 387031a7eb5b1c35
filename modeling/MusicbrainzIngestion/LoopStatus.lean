import MusicbrainzIngestion.ShutdownSignal

/-! The status an observer reads while the loop waits. A run that returns early leaves the status
as it found it; the loop repairs it before it waits, and a run that ends by itself has set
it. One assertion for each place of the loop carries this from run to run. -/

namespace MusicbrainzIngestion
open Base

namespace Service

/-- What the status says of a run that has just returned; an error says nothing, and neither does
a run that gave way to the shutdown. -/
def Ended (s : Service) : Prop :=
  s.outcome = some (.ok true) ∧ s.status = .completed ∨
  s.outcome = some (.ok false) ∧ (s.status = .failed ∨ s.shutdown = true) ∨
  ∃ e, s.outcome = some (.error e)

/-- The status tells success from failure, and `success` is what it says of success. -/
def Tells (s : Service) (success : ExtractionStatus) : Prop :=
  s.outcome = some (.ok true) ∧ s.status = success ∨
  s.outcome ≠ some (.ok true) ∧ s.status = .failed

variable {cfg : ServiceConfig} {s t : Service} {l : Label}

theorem ended_error (s : Service) (e : Error) : (s.finish (.error e)).Ended :=
  Or.inr (Or.inr ⟨e, rfl⟩)

/-- A save that fails ends the run with an error. -/
theorem ended_saveThen {saved : Bool} {phase : Phase} (s : Service) (hphase : phase ≠ .idle)
    (h : (s.saveThen saved phase).phase = .idle) : (s.saveThen saved phase).Ended := by
  unfold saveThen at h ⊢
  cases saved with
  | true => exact absurd h hphase
  | false => exact ended_error _ _

theorem ended_move (hmove : Move cfg s l t) (hrun : RunLoop.ofRun l = true)
    (hbusy : s.phase ≠ .idle) (hidle : t.phase = .idle) : t.Ended := by
  cases hmove with
  | ticks | markerLost | fileRemoved => exact absurd hidle hbusy
  | shutdownRequested | crashes | begins => cases hrun
  | stops hp hs => exact Or.inr (Or.inl ⟨rfl, Or.inr hs⟩)
  | downloadFails | discoverFails | connectFails | declareFails | mapFails | fileFails =>
    exact ended_error _ _
  | findsNone | skips => exact Or.inl ⟨rfl, rfl⟩
  | starts hp hm => exact ended_saveThen _ (by simp) hidle
  | resumeFails hp hm => exact ended_error _ _
  | startsFile hp hs hc => exact ended_saveThen _ (by simp) hidle
  | finalises hp => exact ended_saveThen _ (by simp) hidle
  | reports hp =>
    cases hsuccess : s.run.success with
    | true => exact Or.inl ⟨by simp [finish], by simp [finish]⟩
    | false => exact Or.inr (Or.inl ⟨by simp [finish], Or.inl (by simp [finish])⟩)
  | resumes hp hm ht =>
    subst ht
    cases hidle
  | pipelineMoves hp hm =>
    rw [(settleLineage_outside _ _ _ _ _).1] at hidle
    cases hidle
  | _ => cases hidle

/-- Between two runs the service is as the last one left it. -/
theorem idle_move (hmove : Move cfg s l t) (hrun : RunLoop.ofRun l = true)
    (hidle : s.phase = .idle) :
    t.phase = .idle ∧ t.status = s.status ∧ t.outcome = s.outcome ∧ t.shutdown = s.shutdown := by
  cases hmove with
  | ticks | markerLost | fileRemoved => exact ⟨hidle, rfl, rfl, rfl⟩
  | shutdownRequested | crashes | begins => cases hrun
  | stops hp => rcases hp with hp | hp <;> cases hidle.symm.trans hp
  | enters hp | goesOn hp | downloadFails hp | downloads hp | discoverFails hp | findsNone hp
  | discovers hp | skips hp | reprocesses hp | continues hp | connectFails hp | connects hp
  | declareFails hp | declares hp | declaresLast hp | starts hp | resumeFails hp | resumes hp
  | phaseOver hp | mapFails hp | maps hp | loopEnds hp | loopEndsFailed hp | interrupted hp
  | skipsFile hp | startsFile hp | pipelineMoves hp | fileEnds hp | fileFails hp | announces hp
  | announced hp | announcingFails hp | finalises hp | reports hp =>
    cases hidle.symm.trans hp

end Service

namespace RunLoop

/-- What holds of the last run at each place of the loop. -/
def Told (s : RunLoop) : Prop :=
  match s.loop with
  | .running _ => s.service.phase = .idle → s.service.Ended
  | .resetting => s.service.phase = .idle ∧ ∃ e, s.service.outcome = some (.error e)
  | .top => s.service.phase = .idle ∧ (s.service.Tells .completed ∨ s.service.shutdown = true)
  | .settling => s.service.phase = .idle ∧ s.service.Tells .completed
  | .entering | .waiting _ _ => s.service.phase = .idle ∧ s.service.Tells .waiting
  | _ => True

variable {cfg : ServiceConfig} {forceReprocess : Bool} {s t : RunLoop} {label : Label}

theorem Told.congr (h : s.Told) (hloop : t.loop = s.loop)
    (hphase : t.service.phase = s.service.phase) (hstatus : t.service.status = s.service.status)
    (houtcome : t.service.outcome = s.service.outcome)
    (hshutdown : t.service.shutdown = s.service.shutdown) : t.Told := by
  unfold Told Service.Ended Service.Tells at h ⊢
  rw [hloop, hphase, hstatus, houtcome, hshutdown]
  exact h

/-- Only a run of the loop has the service at work. -/
theorem Told.of_busy (h : s.Told) (hbusy : s.service.phase ≠ .idle) (hloop : t.loop = s.loop)
    (hended : t.service.phase = .idle → t.service.Ended) : t.Told := by
  unfold Told at h ⊢
  rw [hloop]
  cases hs : s.loop <;> rw [hs] at h <;>
    first | exact hended | exact absurd h.1 hbusy | trivial

theorem told_service {l : Service.Label} {service : Service} (hl : ofRun l = true)
    (hs : s.service.step cfg l = some service) (h : s.Told) :
    Told { s with service := service } := by
  have hmove := Service.step_move hs
  by_cases hidle : s.service.phase = .idle
  · obtain ⟨hphase, hstatus, houtcome, hshutdown⟩ := Service.idle_move hmove hl hidle
    exact h.congr rfl (hphase.trans hidle.symm) hstatus houtcome hshutdown
  · exact h.of_busy hidle rfl (Service.ended_move hmove hl hidle)

theorem told_storeFlag (monitor : Monitor) (h : s.Told) :
    Told { s with service := { s.service with shutdown := true }, monitor := monitor } := by
  unfold Told at h ⊢
  dsimp only
  cases hs : s.loop with
  | running arm =>
    rw [hs] at h
    intro hidle
    rcases h hidle with htrue | ⟨hfalse, -⟩ | herror
    · exact Or.inl htrue
    · exact Or.inr (Or.inl ⟨hfalse, Or.inr rfl⟩)
    · exact Or.inr (Or.inr herror)
  | top =>
    rw [hs] at h
    exact ⟨h.1, Or.inr rfl⟩
  | resetting | settling | entering | waiting =>
    rw [hs] at h
    exact h
  | starting | calling | left => trivial

/-- A run that returned a verdict set the status, or gave way to the shutdown. -/
theorem told_returned {arm : Arm} {success : Bool} (hl : s.loop = .running arm)
    (hp : s.service.phase = .idle) (ho : s.service.outcome = some (.ok success)) (h : s.Told) :
    (s.goto .top).Told := by
  unfold Told at h
  rw [hl] at h
  refine ⟨hp, ?_⟩
  rcases h hp with ⟨htrue, hstatus⟩ | ⟨hfalse, hstatus | hshutdown⟩ | ⟨e, herror⟩
  · exact Or.inl (Or.inl ⟨htrue, hstatus⟩)
  · refine Or.inl (Or.inr ⟨?_, hstatus⟩)
    show s.service.outcome ≠ _
    rw [hfalse]
    simp
  · exact Or.inr hshutdown
  · cases ho.symm.trans herror

theorem told_move (hmove : Move cfg forceReprocess s label t) (h : s.Told) : t.Told := by
  cases hmove with
  | service hl hs => exact told_service hl hs h
  | monitorStores hm hr => exact told_storeFlag _ h
  | signals | monitorWaits | locks | refuses | allows | accepts | drops =>
    exact h.congr rfl rfl rfl rfl rfl
  | spawns | initialFails | leaves | timerFires | takes | stops => trivial
  | @starts arm force service hl hs =>
    intro hidle
    unfold Service.begin at hs
    split at hs <;> cases hs
    cases hidle
  | initialEnds hl hp ho hi => exact told_returned hl hp ho h
  | laterEnds hl ha hp ho => exact told_returned hl hp ho h
  | laterFails hl ha hp ho => exact ⟨hp, _, ho⟩
  | resets hl =>
    unfold Told at h
    rw [hl] at h
    obtain ⟨hp, e, he⟩ := h
    refine ⟨hp, Or.inl (Or.inr ⟨?_, rfl⟩)⟩
    show s.service.outcome ≠ _
    rw [he]
    simp
  | goesOn hl hf =>
    unfold Told at h
    rw [hl] at h
    refine ⟨h.1, h.2.resolve_right ?_⟩
    rw [hf]
    exact Bool.false_ne_true
  | settles hl hs =>
    unfold Told at h
    rw [hl] at h
    refine ⟨h.1, ?_⟩
    rcases h.2 with ⟨htrue, -⟩ | ⟨-, hfailed⟩
    · exact Or.inl ⟨htrue, rfl⟩
    · cases hs.symm.trans hfailed
  | staysFailed hl hs =>
    unfold Told at h
    rw [hl] at h
    exact ⟨h.1, Or.inr (h.2.resolve_left fun hc => hs hc.2)⟩
  | enters hl | sleeps hl | wakes hl =>
    unfold Told at h
    rw [hl] at h
    exact h

theorem told_of_reachable (h : (machine cfg forceReprocess).Reachable s) : s.Told := by
  refine Machine.ReachableBy.invariant (P := Told) ?_ ?_ h
  · rintro _ ⟨service, -, -, -, rfl⟩
    trivial
  · exact fun _ _ _ _ htold hstep => told_move (step_move hstep) htold

/-- A request is refused only while the status is that of a run. -/
theorem running_of_refused {force : Bool} (hmove : Move cfg forceReprocess s label t)
    (h : t.history = .answered force alreadyRunning :: s.history) : s.service.status = .running := by
  cases hmove with
  | refuses hh hs => exact hs
  | starts => cases h
  | accepts =>
    have hresponse := congrArg TriggerResponse.statusCode
      (Event.answered.inj (List.cons.inj h).1).2
    cases hresponse
  | _ => exact absurd h.symm (List.cons_ne_self _ _)

end RunLoop

/-- Whenever the loop is in its `select!`, whatever the runs before it came to, the status is one
of waiting and failed, it is waiting exactly when the last run returned `Ok(true)`, and no
request is answered with a conflict. -/
theorem parked_status (cfg : ServiceConfig) (forceReprocess : Bool) (s : RunLoop)
    (hs : (RunLoop.machine cfg forceReprocess).Reachable s) (shutdown : Notified)
    (trigger : RunLoop.TriggerWait) (hparked : s.loop = .waiting shutdown trigger) :
    (s.service.status = .waiting ∨ s.service.status = .failed) ∧
    (s.service.status = .waiting ↔ s.service.outcome = some (.ok true)) ∧
    ∀ label t force, (RunLoop.machine cfg forceReprocess).step s label = some t →
      t.history ≠ .answered force alreadyRunning :: s.history := by
  have htold := RunLoop.told_of_reachable hs
  unfold RunLoop.Told at htold
  rw [hparked] at htold
  refine ⟨?_, ?_, ?_⟩
  · exact htold.2.imp And.right And.right
  · rcases htold.2 with ⟨houtcome, hstatus⟩ | ⟨houtcome, hstatus⟩
    · exact iff_of_true hstatus houtcome
    · exact iff_of_false (by rw [hstatus]; decide) houtcome
  · intro label t force hstep hanswer
    have hrunning := RunLoop.running_of_refused (RunLoop.step_move hstep) hanswer
    rcases htold.2 with ⟨-, hstatus⟩ | ⟨-, hstatus⟩ <;> cases hrunning.symm.trans hstatus

theorem RunLoop.waiting_of_parked {s : RunLoop} (h : s.loop.parked s.notify = true) :
    ∃ shutdown trigger, s.loop = .waiting shutdown trigger := by
  unfold Loop.parked at h
  split at h
  · next hloop => exact ⟨_, _, hloop⟩
  · cases h

/-- The loop waits after a run that found nothing to do: that run returned `Ok(true)`, and a
request is let in. -/
theorem parked_status_processed : ∃ s, processedLoop (firstRun ++ [.settle, .enterSelect]) = some s ∧
    s.service.status = .waiting ∧ s.service.outcome = some (.ok true) ∧
    ∀ label t force, (RunLoop.machine demoService false).step s label = some t →
      t.history ≠ .answered force alreadyRunning :: s.history := by
  have hwaits : (processedLoop (firstRun ++ [.settle, .enterSelect])).any (fun s =>
      s.loop.parked s.notify && decide (s.service.status = .waiting)) = true := by
    decide +kernel
  obtain ⟨s, hrun, hs⟩ := (Option.any_eq_true _ _).mp hwaits
  obtain ⟨hparked, hstatus⟩ := Bool.and_eq_true_iff.mp hs
  obtain ⟨shutdown, trigger, hloop⟩ := RunLoop.waiting_of_parked hparked
  have hreachable : (RunLoop.machine demoService false).Reachable s :=
    ⟨_, _, ⟨processedService, rfl, rfl, rfl, rfl⟩, fun _ _ => trivial, hrun⟩
  obtain ⟨-, hiff, hanswer⟩ := parked_status demoService false s hreachable shutdown trigger hloop
  exact ⟨s, hrun, of_decide_eq_true hstatus, hiff.mp (of_decide_eq_true hstatus), hanswer⟩

end MusicbrainzIngestion
