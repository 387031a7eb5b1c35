import MusicbrainzIngestion.RunLoop.Moves
import MusicbrainzIngestion.VersionCompletion

/-! The shutdown signal and the loop. The loop waits with a flag it has read before it creates its
own waiter, and the flag is stored by another task some time after the signal, so a signal
may fall between the two and be heard by neither. -/

namespace MusicbrainzIngestion
open Base

namespace RunLoop

/-- The monitor will not store the flag any more. -/
def Monitor.over (notify : Notify) : Monitor → Bool
  | .waiting shutdown => !shutdown.ready notify
  | _ => true

/-- In the `select!`, with a shutdown arm that was not woken. -/
def Loop.parked (notify : Notify) : Loop → Bool
  | .waiting shutdown _ => !shutdown.ready notify
  | _ => false

/-- The signal was delivered and nothing is left of it. -/
def lost (s : RunLoop) : Bool :=
  s.signalled && s.monitor.over s.notify && s.loop.parked s.notify

theorem lost_of {s : RunLoop} (hsignalled : s.signalled = true)
    (hover : s.monitor.over s.notify = true) (hparked : s.loop.parked s.notify = true) :
    s.lost = true := by
  unfold lost
  rw [hsignalled, hover, hparked]
  rfl

/-- The flag was read as not set, and the waiter is not there yet. -/
def Loop.deaf : Loop → Bool
  | .settling | .entering => true
  | _ => false

/-- The signal does not come while the loop is deaf, and the loop does not read the flag between
the signal and its store. -/
def heard (s : RunLoop) : Label → Bool
  | .signal => !s.loop.deaf
  | .loadFlag => !s.signalled || s.service.shutdown
  | _ => true

/-- After the signal the loop is not deaf, and its waiter is awake. -/
def Hears (s : RunLoop) : Prop :=
  match s.loop with
  | .settling | .entering => s.signalled = false
  | .waiting shutdown _ => shutdown.Of s.notify ∧ (s.signalled = true → shutdown.ready s.notify = true)
  | _ => True

variable {cfg : ServiceConfig} {forceReprocess : Bool} {s t : RunLoop}

theorem Hears.congr (h : Hears s) (hloop : t.loop = s.loop) (hnotify : t.notify = s.notify)
    (hsignalled : t.signalled = s.signalled) : Hears t := by
  unfold Hears at h ⊢
  rw [hloop, hnotify, hsignalled]
  exact h

theorem hears_signals (hdeaf : s.loop.deaf = false) (h : Hears s) :
    Hears { s with notify := s.notify.notifyWaiters, signalled := true } := by
  unfold Hears at h ⊢
  dsimp only
  split
  · next hloop =>
    rw [hloop] at hdeaf
    cases hdeaf
  · next hloop =>
    rw [hloop] at hdeaf
    cases hdeaf
  · next hloop =>
    rw [hloop] at h
    exact ⟨h.1.notifyWaiters, fun _ => h.1.ready_notifyWaiters⟩
  · trivial

theorem hears_move {label : Label} (hmove : Move cfg forceReprocess s label t)
    (hheard : s.heard label = true) (h : Hears s) : Hears t := by
  cases hmove with
  | signals hs => exact hears_signals (by simpa [heard] using hheard) h
  | goesOn hl hf =>
    have hunsignalled : s.signalled = false := by simpa [heard, hf] using hheard
    exact hunsignalled
  | settles hl hs =>
    unfold Hears at h
    rw [hl] at h
    exact h
  | staysFailed hl hs =>
    unfold Hears at h
    rw [hl] at h
    exact h
  | enters hl =>
    unfold Hears at h
    rw [hl] at h
    refine ⟨Notified.of_notified _, fun hsignalled => ?_⟩
    cases h.symm.trans hsignalled
  | sleeps hl hh hm =>
    unfold Hears at h
    rw [hl] at h
    exact h
  | wakes hl =>
    unfold Hears at h
    rw [hl] at h
    exact h
  | spawns | starts | initialFails | initialEnds | laterFails | laterEnds | resets | leaves
  | timerFires | takes | stops => trivial
  | service | monitorWaits | monitorStores | locks | refuses | allows | accepts | drops =>
    exact h.congr rfl rfl rfl

theorem Hears.not_lost (h : Hears s) : s.lost = false := by
  unfold Hears at h
  unfold lost
  cases hsignalled : s.signalled with
  | false => rfl
  | true =>
    suffices hparked : s.loop.parked s.notify = false by rw [hparked, Bool.and_false]
    unfold Loop.parked
    split
    · next hloop =>
      rw [hloop] at h
      rw [h.2 hsignalled]
      rfl
    · rfl

/-! ## A missed signal -/

variable (cfg forceReprocess) in
/-- The loop goes on to wait for a signal that has been. -/
theorem lost_of_entering (hsignalled : s.signalled = true) (hloop : s.loop = .entering) :
    ∃ labels u, (machine cfg forceReprocess).run s labels = some u ∧ u.lost = true := by
  have henter : (machine cfg forceReprocess).step s .enterSelect =
      some (s.goto (.waiting s.notify.notified .polling)) := by
    change s.enterSelect = _
    unfold enterSelect
    rw [hloop]
  have hparked : (Loop.waiting s.notify.notified .polling).parked s.notify = true := by
    unfold Loop.parked
    dsimp only
    rw [Notified.ready_notified]
    rfl
  cases hover : s.monitor.over s.notify with
  | true =>
    exact ⟨[.enterSelect], _, Machine.run_single _ henter, lost_of hsignalled hover hparked⟩
  | false =>
    -- the monitor was woken: it stores a flag that the loop has already read
    unfold Monitor.over at hover
    split at hover
    · next shutdown hmonitor =>
      have hready : shutdown.ready s.notify = true := by simpa using hover
      have hstore : (machine cfg forceReprocess).step
          (s.goto (.waiting s.notify.notified .polling)) .storeFlag =
            some { s.goto (.waiting s.notify.notified .polling) with
              service := { s.service with shutdown := true }, monitor := .done } := by
        change storeFlag _ = _
        unfold storeFlag goto
        dsimp only
        rw [hmonitor]
        dsimp only
        rw [hready, if_pos rfl]
      refine ⟨[.enterSelect] ++ [.storeFlag], _,
        Machine.run_snoc _ (Machine.run_single _ henter) hstore, ?_⟩
      exact lost_of hsignalled rfl hparked
    · cases hover

theorem lost_of_deaf (hsignalled : s.signalled = true) (hdeaf : s.loop.deaf = true) :
    ∃ labels u, (machine cfg forceReprocess).run s labels = some u ∧ u.lost = true := by
  unfold Loop.deaf at hdeaf
  split at hdeaf
  · next hloop =>
    have hsettle : ∃ t, (machine cfg forceReprocess).step s .settle = some t ∧
        t.signalled = true ∧ t.loop = .entering := by
      change ∃ t, s.settle = some t ∧ _
      unfold settle
      rw [hloop]
      refine ⟨_, rfl, ?_, rfl⟩
      unfold goto
      split <;> exact hsignalled
    obtain ⟨t, hstep, hsignalled', hentering⟩ := hsettle
    obtain ⟨labels, u, hrun, hlost⟩ := lost_of_entering cfg forceReprocess hsignalled' hentering
    exact ⟨[.settle] ++ labels, u, Machine.run_trans _ (Machine.run_single _ hstep) hrun, hlost⟩
  · next hloop => exact lost_of_entering cfg forceReprocess hsignalled hloop
  · cases hdeaf

/-- The signal, or the load of the flag, at the wrong moment. -/
theorem deaf_of_missed {label : Label} (hmove : Move cfg forceReprocess s label t)
    (hmissed : s.heard label = false) : t.signalled = true ∧ t.loop.deaf = true := by
  cases hmove with
  | signals hs => exact ⟨rfl, by simpa [heard] using hmissed⟩
  | leaves hl hf => simp [heard, hf] at hmissed
  | goesOn hl hf =>
    have hsignalled : s.signalled = true := by simpa [heard, hf] using hmissed
    exact ⟨hsignalled, rfl⟩
  | _ => cases hmissed

/-- Nothing but the timer or a trigger takes the loop out of its wait. -/
theorem lost_move {label : Label} (hmove : Move cfg forceReprocess s label t)
    (h : s.lost = true) : t.lost = true ∨ ∃ arm force, t.loop = .calling arm force := by
  obtain ⟨hboth, hparked⟩ := Bool.and_eq_true_iff.mp h
  obtain ⟨hsignalled, hover⟩ := Bool.and_eq_true_iff.mp hboth
  cases hmove with
  | signals hs => cases hs.symm.trans hsignalled
  | timerFires | takes | spawns => exact Or.inr ⟨_, _, rfl⟩
  | sleeps hl hh hm =>
    rw [hl] at hparked
    exact Or.inl (lost_of hsignalled hover hparked)
  | wakes hl =>
    rw [hl] at hparked
    exact Or.inl (lost_of hsignalled hover hparked)
  | stops hl hr =>
    rw [hl] at hparked
    simp [Loop.parked, hr] at hparked
  | monitorWaits hm => exact Or.inl (lost_of hsignalled (by simp [Monitor.over]) hparked)
  | monitorStores hm hr => exact Or.inl (lost_of hsignalled rfl hparked)
  | service | locks | refuses | allows | accepts | drops => exact Or.inl h
  | starts hl | initialFails hl | initialEnds hl | laterFails hl | laterEnds hl | resets hl
  | leaves hl | goesOn hl | settles hl | staysFailed hl | enters hl =>
    rw [hl] at hparked
    cases hparked

end RunLoop

/-- In a run in which the signal does not come while the loop is deaf, and the loop does not read
the flag between the signal and its store, the signal is never lost. A step that breaks this
leaves a state from which it can be. -/
theorem signal_heard_unless_missed (cfg : ServiceConfig) (forceReprocess : Bool) (s₀ s : RunLoop)
    (labels : List RunLoop.Label) (h₀ : (RunLoop.machine cfg forceReprocess).init s₀)
    (hrun : (RunLoop.machine cfg forceReprocess).run s₀ labels = some s) :
    ((RunLoop.machine cfg forceReprocess).Along (fun s label => s.heard label = true) s₀ labels →
      s.lost = false) ∧
    ∀ label t, (RunLoop.machine cfg forceReprocess).step s label = some t → s.heard label = false →
      ∃ more u, (RunLoop.machine cfg forceReprocess).run t more = some u ∧ u.lost = true := by
  refine ⟨fun hheard => ?_, fun label t hstep hmissed => ?_⟩
  · obtain ⟨service, -, -, -, rfl⟩ := h₀
    exact (Machine.run_preserves _ (P := RunLoop.Hears)
      (fun _ _ _ hl hi hstep => RunLoop.hears_move (RunLoop.step_move hstep) hl hi) hheard trivial hrun).not_lost
  · obtain ⟨hsignalled, hdeaf⟩ := RunLoop.deaf_of_missed (RunLoop.step_move hstep) hmissed
    exact RunLoop.lost_of_deaf hsignalled hdeaf

/-! ## A version that is already processed -/

section Processed

def processedMarker : StateMarker :=
  ((StateMarker.new demoDump.version 0).completeProcessing 0).completeExtraction

def processedService : Service :=
  let service := Service.initial demoService demoFiles 0
  { service with shared := { service.shared with disk := some processedMarker } }

/-- The first run finds nothing to do, and the loop reads the flag. -/
def firstRun : List RunLoop.Label :=
  [.spawnMonitor, .startRun, .pollMonitor] ++
    [Service.Label.checkShutdown, .download (fun _ => none) none, .checkShutdown,
      .discover (.ok DataType.musicbrainz), .decide true].map .service ++
    [.returned, .loadFlag]

def processedLoop (labels : List RunLoop.Label) : Option RunLoop :=
  (RunLoop.machine demoService false).run (RunLoop.initial processedService) labels

/-- The signal comes between the load of the flag and the creation of the waiter. -/
theorem signal_lost_before_wait : ∃ s,
    (RunLoop.machine demoService false).init (RunLoop.initial processedService) ∧
    processedLoop (firstRun ++ [.signal, .settle, .enterSelect, .storeFlag, .pollTrigger]) = some s ∧
    s.lost = true ∧ s.service.shutdown = true ∧ s.mailbox = none := by
  have hlost : (processedLoop
      (firstRun ++ [.signal, .settle, .enterSelect, .storeFlag, .pollTrigger])).any (fun s =>
        s.lost && s.service.shutdown && s.mailbox.isNone) = true := by decide +kernel
  obtain ⟨s, hrun, hs⟩ := (Option.any_eq_true _ _).mp hlost
  simp only [Bool.and_eq_true, Option.isNone_iff_eq_none] at hs
  exact ⟨s, ⟨processedService, rfl, rfl, rfl, rfl⟩, hrun, hs.1.1, hs.1.2, hs.2⟩

/-- One step later the waiter is there, and the signal wakes it. -/
theorem signal_heard_unless_missed_waiting :
    (∃ s, processedLoop (firstRun ++ [.settle, .enterSelect, .signal, .pollTrigger]) = some s ∧
      s.signalled = true ∧ s.lost = false) ∧
    ∃ s t more u, processedLoop firstRun = some s ∧ s.signal = some t ∧
      (RunLoop.machine demoService false).run t more = some u ∧ u.lost = true := by
  have hinit : (RunLoop.machine demoService false).init (RunLoop.initial processedService) :=
    ⟨processedService, rfl, rfl, rfl, rfl⟩
  constructor
  · have hheard : (RunLoop.machine demoService false).checks RunLoop.heard
        (RunLoop.initial processedService)
        (firstRun ++ [.settle, .enterSelect, .signal, .pollTrigger]) = true := by decide +kernel
    have hsignalled : (processedLoop
        (firstRun ++ [.settle, .enterSelect, .signal, .pollTrigger])).any (·.signalled) = true := by
      decide +kernel
    obtain ⟨s, hrun, hs⟩ := (Option.any_eq_true _ _).mp hsignalled
    exact ⟨s, hrun, hs, (signal_heard_unless_missed demoService false _ s _ hinit hrun).1
      (Machine.along_of_checks _ hheard)⟩
  · have hdeaf : (processedLoop firstRun).any (fun s => !s.heard .signal && s.signal.isSome) = true := by
      decide +kernel
    obtain ⟨s, hrun, hs⟩ := (Option.any_eq_true _ _).mp hdeaf
    simp only [Bool.and_eq_true, Bool.not_eq_true', Option.isSome_iff_exists] at hs
    obtain ⟨hmissed, t, hstep⟩ := hs
    obtain ⟨more, u, hmore, hlost⟩ :=
      (signal_heard_unless_missed demoService false _ s _ hinit hrun).2 .signal t hstep hmissed
    exact ⟨s, t, more, u, hrun, hstep, hmore, hlost⟩

end Processed

end MusicbrainzIngestion
