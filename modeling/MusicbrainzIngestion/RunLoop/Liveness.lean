import MusicbrainzIngestion.LoopStatus
import MusicbrainzIngestion.ShutdownSignal
import MusicbrainzIngestion.Service.Liveness

/-! The process ends. Once the shutdown flag is stored the run at work finishes its file, at most
one other run is started, which gives way at once, and the loop leaves; a loop that waits is
woken, unless the signal was missed. -/

namespace MusicbrainzIngestion
open Base

namespace Service

theorem saveThen_shutdown (s : Service) (saved : Bool) (phase : Phase) :
    (s.saveThen saved phase).shutdown = s.shutdown := by
  unfold saveThen
  split <;> rfl

theorem loadMarker_shutdown (cfg : ServiceConfig) (s : Service) (readable : Bool) :
    (s.loadMarker cfg readable).shutdown = s.shutdown := by
  obtain ⟨marker, loaded, lineage, heq⟩ := loadMarker_eq cfg s readable
  rw [heq]
  rfl

/-- Only a request of a shutdown, or the start of a process, writes the flag. -/
theorem shutdown_move {cfg : ServiceConfig} {s t : Service} {l : Label} (hmove : Move cfg s l t)
    (hl : RunLoop.ofRun l = true) : t.shutdown = s.shutdown := by
  cases hmove with
  | shutdownRequested | crashes | begins => cases hl
  | starts | resumeFails | finalises | startsFile => exact saveThen_shutdown _ _ _
  | skips | reprocesses | continues => exact loadMarker_shutdown _ _ _
  | resumes hp hm ht =>
    subst ht
    rfl
  | pipelineMoves =>
    unfold settleLineage
    split <;> rfl
  | _ => rfl

end Service

namespace RunLoop

variable {cfg : ServiceConfig} {forceReprocess : Bool} {s t : RunLoop} {l : Label}

/-! ## In every state -/

/-- What the loop can count on in every reachable state. -/
structure Sound (s : RunLoop) : Prop where
  unsignalled : s.signalled = false → s.notify.calls = 0 ∧ s.service.shutdown = false
  monitored : ∀ waiter, s.monitor = .waiting waiter → waiter.Of s.notify
  atRest : (∀ arm, s.loop ≠ .running arm) → s.service.phase = .idle
  going : s.service.Going
  declared : s.service.Declared

theorem begin_kept {service : Service} {force : Bool} (h : s.service.begin force = some service) :
    service.shutdown = s.service.shutdown ∧ service.phase = .entry ∧ s.service.phase = .idle := by
  unfold Service.begin at h
  split at h <;> cases h
  next hp => exact ⟨rfl, rfl, hp⟩

theorem sound_move (hqueue : 0 < cfg.pipeline.queueSize) (hmove : Move cfg forceReprocess s l t)
    (h : s.Sound) : t.Sound := by
  have hidle : ∀ {loop : Loop}, s.loop = loop → (∀ arm, loop ≠ .running arm) →
      s.service.phase = .idle := fun hl hn => h.atRest fun arm => hl ▸ hn arm
  cases hmove with
  | service hl hs =>
    have hservice := Service.step_move hs
    refine ⟨fun hsignalled => ?_, h.monitored, fun hloop => ?_,
      Service.going_move hqueue hservice h.going, Service.declared_move hservice h.declared⟩
    · obtain ⟨hcalls, hshutdown⟩ := h.unsignalled hsignalled
      exact ⟨hcalls, (Service.shutdown_move hservice hl).trans hshutdown⟩
    · exact (Service.idle_move hservice hl (h.atRest hloop)).1
  | signals hs =>
    refine ⟨(fun hsignalled => by cases hsignalled), fun waiter hm => ?_, h.atRest, h.going, h.declared⟩
    exact (h.monitored waiter hm).notifyWaiters
  | monitorWaits hm =>
    refine ⟨h.unsignalled, fun waiter heq => ?_, h.atRest, h.going, h.declared⟩
    cases heq
    exact Notified.of_notified _
  | @monitorStores waiter hm hr =>
    refine ⟨fun hsignalled => ?_, (fun waiter heq => by cases heq), h.atRest, h.going, h.declared⟩
    -- A waiter is ready only after a notification.
    have hof := h.monitored waiter hm
    obtain ⟨hcalls, -⟩ := h.unsignalled hsignalled
    rw [Notified.Of, hcalls, Nat.le_zero] at hof
    rw [Notified.ready, hof, hcalls] at hr
    cases hr
  | spawns hl =>
    exact ⟨h.unsignalled, (fun waiter heq => by cases heq),
      (fun _ => hidle hl fun arm heq => by cases heq), h.going, h.declared⟩
  | @starts arm force service hl hs =>
    obtain ⟨hshutdown, hphase, -⟩ := begin_kept hs
    refine ⟨fun hsignalled => ?_, h.monitored, fun hloop => absurd rfl (hloop arm), ?_, ?_⟩
    · exact ⟨(h.unsignalled hsignalled).1, hshutdown.trans (h.unsignalled hsignalled).2⟩
    · simp only [Service.Going, hphase]
    · simp only [Service.Declared, hphase]
  | initialFails hl hp | initialEnds hl hp | laterFails hl ha hp | laterEnds hl ha hp =>
    exact ⟨h.unsignalled, h.monitored, fun _ => hp, h.going, h.declared⟩
  | resets hl | leaves hl | goesOn hl | settles hl | staysFailed hl | enters hl | timerFires hl
  | takes hl | sleeps hl | wakes hl | stops hl =>
    exact ⟨h.unsignalled, h.monitored, (fun _ => hidle hl fun arm heq => by cases heq), h.going,
      h.declared⟩
  | locks | refuses | allows | accepts | drops =>
    exact ⟨h.unsignalled, h.monitored, h.atRest, h.going, h.declared⟩

theorem sound_of_reachable (hqueue : 0 < cfg.pipeline.queueSize)
    (h : (machine cfg forceReprocess).Reachable s) : s.Sound := by
  refine Machine.ReachableBy.invariant (P := Sound) ?_ ?_ h
  · rintro _ ⟨service, hphase, -, hshutdown, rfl⟩
    refine ⟨fun _ => ⟨rfl, hshutdown⟩, (fun waiter heq => by cases heq), fun _ => hphase, ?_, ?_⟩
    · simp only [initial, Service.Going, hphase]
    · simp only [initial, Service.Declared, hphase]
  · intro s l t _ hsound hstep
    exact sound_move hqueue (step_move hstep) hsound

/-! ## With the flag stored -/

/-- The shutdown was heard and its flag is stored; an error the loop leaves with is one that a run
returned. -/
structure Ending (s : RunLoop) : Prop where
  sound : s.Sound
  flagged : s.service.shutdown = true
  hears : s.Hears
  told : s.Told
  exits : ∀ e, s.loop = .left (.error e) → s.service.outcome = some (.error e)

theorem Ending.signalled (h : s.Ending) : s.signalled = true := by
  by_contra hsignalled
  have hunset := (h.sound.unsignalled (Bool.eq_false_iff.mpr hsignalled)).2
  rw [h.flagged] at hunset
  cases hunset

theorem flagged_move (hmove : Move cfg forceReprocess s l t) (h : s.service.shutdown = true) :
    t.service.shutdown = true := by
  cases hmove with
  | service hl hs => exact (Service.shutdown_move (Service.step_move hs) hl).trans h
  | starts hl hs => exact (begin_kept hs).1.trans h
  | monitorStores => rfl
  | _ => exact h

/-- The loop does not fail a run for giving way to the shutdown. -/
theorem exits_move (hmove : Move cfg forceReprocess s l t) (h : s.Ending) (e : Error)
    (hleft : t.loop = .left (.error e)) : t.service.outcome = some (.error e) := by
  cases hmove with
  | service hl hs =>
    have hidle : s.service.phase = .idle := by
      refine h.sound.atRest fun arm harm => ?_
      rw [harm] at hleft
      cases hleft
    obtain ⟨-, -, houtcome, -⟩ := Service.idle_move (Service.step_move hs) hl hidle
    exact houtcome.trans (h.exits e hleft)
  | initialFails hl hp ho =>
    cases hleft
    rcases ho with ho | ⟨success, -, hresult⟩
    · exact ho
    · rw [initialRunOutcome, if_pos h.flagged] at hresult
      cases hresult
  | signals | monitorWaits | monitorStores | locks | refuses | allows | accepts | drops =>
    exact h.exits e hleft
  | _ => cases hleft

/-- Nothing that comes after the flag keeps the loop from hearing. -/
theorem heard_of_ending (hmove : Move cfg forceReprocess s l t) (h : s.Ending) :
    s.heard l = true := by
  cases hmove with
  | signals hs => cases hs.symm.trans h.signalled
  | leaves | goesOn => simp [heard, h.flagged]
  | _ => rfl

theorem ending_move (hqueue : 0 < cfg.pipeline.queueSize) (hmove : Move cfg forceReprocess s l t)
    (h : s.Ending) : t.Ending where
  sound := sound_move hqueue hmove h.sound
  flagged := flagged_move hmove h.flagged
  hears := hears_move hmove (heard_of_ending hmove h) h.hears
  told := told_move hmove h.told
  exits := exits_move hmove h

/-! ## What is left -/

def Loop.remaining (cfg : ServiceConfig) (limit : Nat) (service : Service) : Loop → Nat
  | .left _ => 0
  | .top => 1
  | .resetting => 2
  | .running _ => Service.left cfg limit service + 3
  | .calling _ _ => 24
  | .waiting _ _ => 25
  | .entering => 26
  | .settling => 27
  | .starting => 28

def left (cfg : ServiceConfig) (limit : Nat) (s : RunLoop) : Nat :=
  s.loop.remaining cfg limit s.service

/-- What the loop and its run do themselves. -/
def works (s : RunLoop) : Label → Bool
  | .service l => s.service.works l
  | .spawnMonitor | .startRun | .returned | .resetStatus | .loadFlag | .settle | .enterSelect
  | .shutdownArm => true
  | _ => false

def Within (cfg : ServiceConfig) (limit : Nat) : Label → Prop
  | .service l => Service.Within cfg limit l
  | _ => True

theorem left_move {limit : Nat} (hmove : Move cfg forceReprocess s l t) (hok : Within cfg limit l)
    (h : s.Ending) :
    t.left cfg limit ≤ s.left cfg limit ∧
      (s.works l = true → t.left cfg limit < s.left cfg limit) := by
  cases hmove with
  | @service l service hl hs =>
    have hservice := Service.left_move (Service.step_move hs) hok
    by_cases hrunning : ∃ arm, s.loop = .running arm
    · obtain ⟨arm, harm⟩ := hrunning
      simp only [left, harm, Loop.remaining, works]
      exact ⟨Nat.add_le_add_right hservice.1 3, fun hw => Nat.add_lt_add_right (hservice.2 hw) 3⟩
    · have hidle : s.service.phase = .idle :=
        h.sound.atRest fun arm harm => hrunning ⟨arm, harm⟩
      have hsame : s.loop.remaining cfg limit service = s.loop.remaining cfg limit s.service := by
        cases hloop : s.loop with
        | running arm => exact absurd ⟨arm, hloop⟩ hrunning
        | _ => rfl
      refine ⟨hsame.le, fun hw => ?_⟩
      -- Between two runs nothing of a run is left to do.
      have hlt := hservice.2 hw
      rw [show s.service.left cfg limit = 0 by rw [Service.left, hidle]; rfl] at hlt
      exact absurd hlt (Nat.not_lt_zero _)
  | starts hl hs =>
    obtain ⟨hshutdown, hphase, -⟩ := begin_kept hs
    simp only [left, hl, Loop.remaining, Service.left, hphase, Service.leftIn, Service.toProcess,
      hshutdown.trans h.flagged, if_true]
    omega
  | goesOn hl hf => cases hf.symm.trans h.flagged
  | signals | monitorWaits | locks | refuses | allows | accepts | drops =>
    exact ⟨Nat.le_refl _, fun hw => by cases hw⟩
  | monitorStores =>
    have hsame : ({ s.service with shutdown := true } : Service) = s.service := by
      rw [← h.flagged]
    simp only [left, hsame]
    exact ⟨Nat.le_refl _, fun hw => by cases hw⟩
  | spawns hl | initialFails hl | initialEnds hl | laterFails hl | laterEnds hl | resets hl
  | leaves hl | settles hl | staysFailed hl | enters hl | stops hl =>
    simp only [left, goto, setStatus, hl, Loop.remaining]
    omega
  | timerFires hl | takes hl | sleeps hl | wakes hl =>
    refine ⟨?_, fun hw => by cases hw⟩
    simp only [left, goto, hl, Loop.remaining]
    omega

def Label.isStart : Label → Bool
  | .startRun => true
  | _ => false

/-- The runs that may still be started. -/
def Loop.starts : Loop → Nat
  | .left _ | .top | .resetting | .running _ => 0
  | .calling _ _ | .waiting _ _ | .entering | .settling | .starting => 1

theorem starts_move (hmove : Move cfg forceReprocess s l t) (h : s.Ending) :
    t.loop.starts ≤ s.loop.starts ∧ (l.isStart = true → t.loop.starts < s.loop.starts) := by
  cases hmove with
  | goesOn hl hf => cases hf.symm.trans h.flagged
  | starts hl hs =>
    simp only [hl, Loop.starts]
    omega
  | service | signals | monitorWaits | monitorStores | locks | refuses | allows | accepts | drops =>
    exact ⟨Nat.le_refl _, fun hw => by cases hw⟩
  | spawns hl | initialFails hl | initialEnds hl | laterFails hl | laterEnds hl | resets hl
  | leaves hl | settles hl | staysFailed hl | enters hl | stops hl | timerFires hl | takes hl
  | sleeps hl | wakes hl =>
    refine ⟨?_, fun hw => by cases hw⟩
    simp only [goto, hl, Loop.starts]
    omega

section Counting

variable (hqueue : 0 < cfg.pipeline.queueSize)
include hqueue

theorem countsDown (limit : Nat) :
    (machine cfg forceReprocess).CountsDown Ending (Within cfg limit) works (left cfg limit) where
  keeps := fun _ _ _ _ h hstep => ending_move hqueue (step_move hstep) h
  works_lt := fun _ _ _ hok h hstep hw => (left_move (step_move hstep) hok h).2 hw
  rests_le := fun _ _ _ hok h hstep => (left_move (step_move hstep) hok h).1

theorem countsStarts (limit : Nat) :
    (machine cfg forceReprocess).CountsDown Ending (Within cfg limit) (fun _ l => l.isStart)
      (fun s => s.loop.starts) where
  keeps := fun _ _ _ _ h hstep => ending_move hqueue (step_move hstep) h
  works_lt := fun _ _ _ _ h hstep hw => (starts_move (step_move hstep) h).2 hw
  rests_le := fun _ _ _ _ h hstep => (starts_move (step_move hstep) h).1

end Counting

/-! ## The loop can go on -/

/-- What the run may execute on these answers, and what the loop may. -/
def labels (cfg : ServiceConfig) (a : Service.Answers) (s : RunLoop) : List Label :=
  [.spawnMonitor, .startRun, .returned, .resetStatus, .loadFlag, .settle, .enterSelect,
    .shutdownArm] ++ (a.labels cfg s.service).map .service

theorem ofRun_of_works {limit : Nat} {l : Service.Label} {service : Service}
    (hok : Service.Within cfg limit l) (hw : service.works l = true) : ofRun l = true := by
  cases l with
  | begin | crash => exact hok.elim
  | requestShutdown => cases hw
  | _ => rfl

theorem returned_isSome {arm : Arm} (hl : s.loop = .running arm) (hidle : s.service.phase = .idle)
    (hended : s.service.Ended) : s.returned.isSome = true := by
  obtain ⟨outcome, houtcome⟩ : ∃ outcome, s.service.outcome = some outcome := by
    rcases hended with ⟨ho, -⟩ | ⟨ho, -⟩ | ⟨e, ho⟩
    · exact ⟨_, ho⟩
    · exact ⟨_, ho⟩
    · exact ⟨_, ho⟩
  unfold returned
  rw [hl, hidle, houtcome]
  cases arm <;> cases outcome <;> dsimp only <;> first | rfl | split <;> rfl

theorem neverStuck (limit : Nat) : (machine cfg forceReprocess).NeverStuck Ending
    (fun s => ∃ result, s.loop = .left result) (Within cfg limit) works
    (Service.Answers.Limited cfg limit) (labels cfg) := by
  intro s a ha h hopen
  have hopens : ∀ l ∈ [Label.spawnMonitor, .startRun, .returned, .resetStatus, .loadFlag, .settle,
      .enterSelect, .shutdownArm], Within cfg limit l → s.works l = true →
      (step cfg forceReprocess s l).isSome = true → ∃ l ∈ labels cfg a s, Within cfg limit l ∧
        s.works l = true ∧ ((machine cfg forceReprocess).step s l).isSome :=
    fun l hl hok hw hsome => ⟨l, List.mem_append_left _ hl, hok, hw, hsome⟩
  cases hloop : s.loop with
  | left result => exact absurd ⟨result, hloop⟩ hopen
  | starting =>
    refine hopens .spawnMonitor (by simp) trivial rfl ?_
    simp only [step, spawnMonitor, hloop, Option.isSome_some]
  | calling arm force =>
    refine hopens .startRun (by simp) trivial rfl ?_
    have hidle : s.service.phase = .idle :=
      h.sound.atRest fun arm heq => by cases hloop.symm.trans heq
    simp only [step, startRun, hloop, Service.begin, hidle, Option.isSome_some]
  | running arm =>
    by_cases hidle : s.service.phase = .idle
    · refine hopens .returned (by simp) trivial rfl ?_
      have htold := h.told
      unfold Told at htold
      rw [hloop] at htold
      exact returned_isSome hloop hidle (htold hidle)
    · obtain ⟨l, hl, hok, hw, hsome⟩ := Service.canMove ha h.sound.going hidle
      refine ⟨.service l, List.mem_append_right _ (List.mem_map_of_mem hl), hok, hw, ?_⟩
      obtain ⟨service, hservice⟩ := Option.isSome_iff_exists.mp hsome
      simp only [machine, step, runService, ofRun_of_works hok hw, if_true, hservice,
        Option.isSome_some]
  | resetting =>
    refine hopens .resetStatus (by simp) trivial rfl ?_
    simp only [step, resetStatusAfterFailedCheck, hloop, Option.isSome_some]
  | top =>
    refine hopens .loadFlag (by simp) trivial rfl ?_
    simp only [step, loadFlag, hloop, Option.isSome_some]
  | settling =>
    refine hopens .settle (by simp) trivial rfl ?_
    simp only [step, settle, hloop, Option.isSome_some]
  | entering =>
    refine hopens .enterSelect (by simp) trivial rfl ?_
    simp only [step, enterSelect, hloop, Option.isSome_some]
  | waiting waiter trigger =>
    refine hopens .shutdownArm (by simp) trivial rfl ?_
    have hhears := h.hears
    unfold Hears at hhears
    rw [hloop] at hhears
    simp only [step, shutdownArm, hloop, hhears.2 h.signalled, if_true, Option.isSome_some]

theorem left_of_ending (limit : Nat) (h : s.Ending) :
    s.left cfg limit ≤ Service.leftInFile cfg s.service + 28 := by
  have hservice : s.service.left cfg limit ≤ Service.leftInFile cfg s.service + 20 :=
    Service.left_of_shutdown limit h.flagged h.sound.declared
  unfold left
  cases s.loop <;> simp only [Loop.remaining] <;> omega

end RunLoop

open RunLoop

/-- Once the flag is stored in a run that heard the signal, whatever still comes, the loop starts
at most one other run and executes no more than what is left of the file in work and
twenty-eight statements; and from every point, whatever the surroundings answer, it can be
carried to where it leaves, with an error only if its first run returned that error. -/
theorem shutdown_ends_process (cfg : ServiceConfig) (hqueue : 0 < cfg.pipeline.queueSize)
    (forceReprocess : Bool) (limit : Nat) (s₀ s t : RunLoop) (labels ls : List RunLoop.Label)
    (h₀ : (machine cfg forceReprocess).init s₀)
    (hreached : (machine cfg forceReprocess).run s₀ labels = some s)
    (hheard : (machine cfg forceReprocess).Along (fun s label => s.heard label = true) s₀ labels)
    (hflag : s.service.shutdown = true) (hopen : ∀ result, s.loop ≠ .left result)
    (hls : ∀ l ∈ ls, Within cfg limit l) (hrun : (machine cfg forceReprocess).run s ls = some t)
    (answers : Nat → Service.Answers) (hanswers : ∀ i, (answers i).Limited cfg limit) :
    ∃ ms u result, (machine cfg forceReprocess).run t ms = some u ∧
      (machine cfg forceReprocess).Follows (RunLoop.labels cfg) answers t ms ∧
      u.loop = .left result ∧
      (∀ e, result = .error e → u.service.outcome = some (.error e)) ∧
      (machine cfg forceReprocess).work works s ls + ms.length ≤
        Service.leftInFile cfg s.service + 28 ∧
      (ls ++ ms).countP Label.isStart ≤ 1 := by
  have hreachable : (machine cfg forceReprocess).Reachable s :=
    ⟨s₀, labels, h₀, fun _ _ => trivial, hreached⟩
  have hs : s.Ending := {
    sound := sound_of_reachable hqueue hreachable
    flagged := hflag
    hears := by
      obtain ⟨service, -, -, -, rfl⟩ := h₀
      exact Machine.run_preserves _ (P := Hears)
        (fun _ _ _ hl hi hstep => hears_move (step_move hstep) hl hi) hheard trivial hreached
    told := told_of_reachable hreachable
    exits := fun e hleft => absurd hleft (hopen _) }
  have hcounts : (machine cfg forceReprocess).CountsDown Ending (Within cfg limit) works
      (left cfg limit) := countsDown hqueue limit
  have hwork := hcounts.work_le hls hs hrun
  obtain ⟨ms, u, hms, ⟨result, hleft⟩, hwithin, hlength, hfollows⟩ :=
    hcounts.completes (neverStuck limit) hanswers (hcounts.run_keeps hls hs hrun)
  have hboth := (machine cfg forceReprocess).run_trans hrun hms
  have hall : ∀ l ∈ ls ++ ms, Within cfg limit l := List.forall_mem_append.mpr ⟨hls, hwithin⟩
  have hu : u.Ending := hcounts.run_keeps hall hs hboth
  have hstarts := (countsStarts hqueue limit).work_le hall hs hboth
  rw [(machine cfg forceReprocess).work_of_labels Label.isStart hboth] at hstarts
  have hbound : s.left cfg limit ≤ Service.leftInFile cfg s.service + 28 := left_of_ending limit hs
  refine ⟨ms, u, result, hms, hfollows, hleft, ?_, by omega, ?_⟩
  · rintro e rfl
    exact hu.exits e hleft
  · have hone : s.loop.starts ≤ 1 := by cases s.loop <;> simp only [Loop.starts] <;> omega
    omega

/-- The signal comes while the loop waits, and the timer fires before its arm is taken. -/
theorem shutdown_ends_process_waiting : ∃ s t ms u,
    processedLoop (firstRun ++ [.settle, .enterSelect, .signal, .storeFlag]) = some s ∧
      (machine demoService false).run s [.timer, .startRun] = some t ∧
      (machine demoService false).run t ms = some u ∧ (∃ result, u.loop = .left result) ∧
      ms.length ≤ 28 ∧ ms.countP RunLoop.Label.isStart = 0 := by
  have hwaits : (processedLoop (firstRun ++ [.settle, .enterSelect, .signal, .storeFlag])).any
      (fun s => s.service.shutdown && (s.loop.starts == 1) &&
        (Service.leftInFile demoService s.service == 0) &&
        ((machine demoService false).run s [.timer, .startRun]).isSome) = true := by
    decide +kernel
  have hheard : (machine demoService false).checks RunLoop.heard (RunLoop.initial processedService)
      (firstRun ++ [.settle, .enterSelect, .signal, .storeFlag]) = true := by decide +kernel
  obtain ⟨s, hs, hall⟩ := (Option.any_eq_true _ _).mp hwaits
  simp only [Bool.and_eq_true, beq_iff_eq] at hall
  obtain ⟨⟨⟨hflag, hstarts⟩, hfile⟩, hsome⟩ := hall
  obtain ⟨t, ht⟩ := Option.isSome_iff_exists.mp hsome
  have hopen : ∀ result, s.loop ≠ .left result := by
    intro result hleft
    rw [hleft] at hstarts
    cases hstarts
  obtain ⟨ms, u, result, hms, -, hleft, -, hlength, hcount⟩ :=
    shutdown_ends_process demoService (by decide) false 0 _ s t _ [.timer, .startRun]
      ⟨processedService, rfl, rfl, rfl, rfl⟩ hs ((machine demoService false).along_of_checks hheard)
      hflag hopen (by simp [RunLoop.Within]) ht (fun _ => Service.emptyAnswers)
      fun _ => Service.emptyAnswers_limited
  rw [List.countP_append] at hcount
  have hone : [RunLoop.Label.timer, .startRun].countP RunLoop.Label.isStart = 1 := rfl
  exact ⟨s, t, ms, u, hs, ht, hms, ⟨result, hleft⟩, by omega, by omega⟩

end MusicbrainzIngestion
