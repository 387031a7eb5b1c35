import MusicbrainzIngestion.Service.LoopRun

/-! What every run brings to its loop, whatever happened in the runs before it: no failure yet,
and a marker whose publishing phase shows what was published. -/

namespace MusicbrainzIngestion
open Base

variable {cfg : ServiceConfig} {s t : Service} {m m₀ : StateMarker} {h : List FileEvent}

/-! ## The publishing phase -/

theorem StateMarker.publishing_new (version : String) (now : DateTime) :
    (new version now).Publishing := ⟨Or.inl rfl, fun _ _ _ hp => nomatch hp⟩

theorem StateMarker.Publishing.congr {m' : StateMarker} (hp : m.Publishing)
    (hphase : m'.publishingPhase = m.publishingPhase) (hprogress : ∀ f, m'.progress f = m.progress f) :
    m'.Publishing := by
  refine ⟨by rw [hphase]; exact hp.status, fun hs f status hf => ?_⟩
  rw [hphase] at hs
  rw [hprogress] at hf
  exact hp.shown hs f status hf

/-- What the events leave of a marker shows what was published. -/
theorem Image.shows (hi : Image cfg.dump m₀ h m) (hp : m₀.Publishing) : m.Publishing := by
  obtain ⟨hstatus, hiff⟩ := hi.publishing hp
  refine ⟨hstatus, fun hs f status hf => ?_⟩
  obtain ⟨hpending, hzero⟩ := hiff.mp hs
  by_cases hmine : ∃ dt ∈ History.started h, f = cfg.dump.fileName dt
  · obtain ⟨dt, hdt, rfl⟩ := hmine
    have hentry := hi.entries dt hdt
    rw [hf] at hentry
    exact (congrArg FileProcessingStatus.messagesPublished (Option.some.inj hentry)).trans (hzero dt hdt)
  · rw [hi.others f fun dt hdt heq => hmine ⟨dt, hdt, heq⟩] at hf
    exact hp.shown hpending f status hf

theorem Pipeline.disk_of_move {cfg : PipelineConfig} {job : Job} {p q : Pipeline}
    (hmove : Move cfg job p q) :
    q.shared.disk = p.shared.disk ∨ q.shared.disk = some q.shared.marker := by
  cases hmove with
  | batcherCheckpoints hp saved | batcherSaves hp saved | marks hp saved =>
    cases saved with
    | false => exact Or.inl rfl
    | true => exact Or.inr rfl
  | _ => exact Or.inl rfl

namespace Service

/-- The marker in memory, from its choice to the end of the run. -/
def ShownPhase (cfg : ServiceConfig) (s : Service) : Prop :=
  match s.phase with
  | .connecting | .declaring _ | .starting | .mapping | .looping _ | .announcing _ _ _
  | .finalising => s.shared.marker.Publishing
  | .processing dt _ _ tasks => ∃ m₀ h, m₀.Publishing ∧
    Pipeline.Told cfg m₀ dt h s.shared tasks ∧ Pipeline.Judged tasks
  | _ => True

/-- Until the loop nothing has failed. -/
def Unspoiled (s : Service) : Prop :=
  match s.phase with
  | .entry | .downloading | .downloaded | .discovering | .deciding | .connecting | .declaring _
  | .starting | .mapping => s.run.success = true
  | _ => True

structure ShownInv (cfg : ServiceConfig) (s : Service) : Prop where
  inv : Inv cfg s
  disk : ∀ m, s.shared.disk = some m → m.summary.overallStatus = .completed ∨ m.Publishing
  phase : ShownPhase cfg s
  unspoiled : Unspoiled s

theorem shown_saveThen {saved : Bool} {phase : Phase}
    (hd : ∀ m, s.shared.disk = some m → m.summary.overallStatus = .completed ∨ m.Publishing)
    (hm : s.shared.marker.summary.overallStatus = .completed ∨ s.shared.marker.Publishing) :
    ∀ m, (s.saveThen saved phase).shared.disk = some m →
      m.summary.overallStatus = .completed ∨ m.Publishing := by
  intro m hsaved
  cases saved with
  | false => exact hd m hsaved
  | true =>
    cases hsaved
    exact hm.imp id fun hp => hp.congr rfl fun _ => rfl

theorem shown_loadMarker (cfg : ServiceConfig)
    (hd : ∀ m, s.shared.disk = some m → m.summary.overallStatus = .completed ∨ m.Publishing)
    (readable : Bool) :
    (s.loadMarker cfg readable).shared.disk = s.shared.disk ∧
      (s.loadMarker cfg readable).run.success = s.run.success ∧
      ((s.loadMarker cfg readable).shared.marker.summary.overallStatus = .completed ∨
        (s.loadMarker cfg readable).shared.marker.Publishing) := by
  have hnew := StateMarker.publishing_new cfg.dump.version s.shared.now
  unfold loadMarker
  split
  · exact ⟨rfl, rfl, Or.inr hnew⟩
  · split
    · next m hm => exact ⟨rfl, rfl, hd m hm⟩
    · exact ⟨rfl, rfl, Or.inr hnew⟩

theorem unspoiled_move {label : Label} (hmove : Move cfg s label t) (h : Unspoiled s) :
    Unspoiled t := by
  unfold Unspoiled at h
  cases hmove with
  | ticks | shutdownRequested | fileRemoved | markerLost => exact h
  | begins => exact rfl
  | enters hp | goesOn hp | downloads hp | discovers hp | connects hp | declares hp
  | declaresLast hp | phaseOver hp =>
    rw [hp] at h
    exact h
  | @starts saved hp =>
    rw [hp] at h
    cases saved with
    | false => trivial
    | true => exact h
  | resumes hp hm ht =>
    rw [hp] at h
    subst ht
    exact h
  | @reprocesses readable hp | @continues readable hp =>
    rw [hp] at h
    have hkept : (s.loadMarker cfg readable).run.success = s.run.success := by
      unfold loadMarker
      split
      · rfl
      · split <;> rfl
    exact hkept.trans h
  | @startsFile saved hp => cases saved <;> trivial
  | pipelineMoves hp hm =>
    unfold Unspoiled
    rw [(settleLineage_outside _ _ _ _ _).1]
    trivial
  | @finalises saved hp => cases saved <;> trivial
  | _ => trivial

/-- One step of a file's pipeline, from the file's own start. -/
theorem shown_pipeline {dt : DataType} {rest : List DataType} {source : Source} {tasks : Tasks}
    {l : Pipeline.Label} {p : Pipeline} (hi : ShownInv cfg s)
    (hp : s.phase = .processing dt rest source tasks)
    (hm : Pipeline.step cfg.pipeline (cfg.job dt source) ⟨s.shared, tasks⟩ l = some p) :
    (∀ m, p.shared.disk = some m → m.summary.overallStatus = .completed ∨ m.Publishing) ∧
      ∃ m₀ h, m₀.Publishing ∧ Pipeline.Told cfg m₀ dt h p.shared p.tasks ∧
        Pipeline.Judged p.tasks := by
  have hphase := hi.phase
  have hinv := hi.inv.phase
  rw [ShownPhase, hp] at hphase
  rw [PhaseOk, hp] at hinv
  obtain ⟨m₀, h, hm₀, htold, hjudged⟩ := hphase
  obtain ⟨s₁, l', hfile⟩ := hinv
  have hsound := hfile.pipeline.sound
  have hmove := Pipeline.step_move hm
  have hstep : Pipeline.FileStep (cfg.job dt source) dt ⟨s.shared, tasks⟩ p (tasks.events dt l p.tasks) :=
    Pipeline.fileStep hm hjudged
  have hnext := htold.step hstep rfl hsound.joined hjudged
    fun n hn => (hsound.announced n hn).2
  refine ⟨fun m hdisk => ?_, m₀, _, hm₀, hnext, Pipeline.judged_move hmove hsound.joined hjudged⟩
  rcases Pipeline.disk_of_move hmove with hsame | hsaved
  · rw [hsame] at hdisk
    exact hi.disk m hdisk
  · rw [hsaved] at hdisk
    cases hdisk
    exact Or.inr (hnext.image.shows hm₀)

theorem shownPhase_of_marker (h : ShownPhase cfg s) (hphase : t.phase = s.phase)
    (hm : t.shared.marker = s.shared.marker) : ShownPhase cfg t := by
  unfold ShownPhase at h ⊢
  rw [hphase, hm]
  cases hp : s.phase with
  | processing =>
    rw [hp] at h
    obtain ⟨m₀, h, hm₀, htold, hjudged⟩ := h
    exact ⟨m₀, h, hm₀, ⟨by rw [hm]; exact htold.image, htold.last, htold.faulted, htold.counted,
      htold.returned, htold.completion⟩, hjudged⟩
  | _ =>
    rw [hp] at h
    exact h

theorem shown_move {label : Label} (hmove : Move cfg s label t) (hi : ShownInv cfg s) :
    (∀ m, t.shared.disk = some m → m.summary.overallStatus = .completed ∨ m.Publishing) ∧
      ShownPhase cfg t := by
  have hd := hi.disk
  have hphase := hi.phase
  unfold ShownPhase at hphase
  cases hmove with
  | ticks | shutdownRequested | fileRemoved => exact ⟨hd, shownPhase_of_marker hi.phase rfl rfl⟩
  | markerLost =>
    refine ⟨fun m hm => ?_, shownPhase_of_marker hi.phase rfl rfl⟩
    cases hm
  | @skips readable hp =>
    obtain ⟨hdisk, -, -⟩ := shown_loadMarker cfg hd readable
    exact ⟨fun m hm => hd m (hdisk ▸ hm), trivial⟩
  | @reprocesses readable hp hdecision => exact absurd hdecision (hi.inv.loadMarker hp readable).2.2.1
  | @continues readable hp hdecision =>
    obtain ⟨hdisk, -, hshown⟩ := shown_loadMarker cfg hd readable
    have hopen := ((hi.inv.loadMarker hp readable).2.2.2 hdecision).unfinished
    exact ⟨fun m hm => hd m (hdisk ▸ hm), hshown.resolve_left hopen⟩
  | @starts saved hp =>
    rw [hp] at hphase
    have hstarted : s.processingStarted.resolveStart.shared.marker.Publishing :=
      hphase.congr rfl fun _ => rfl
    refine ⟨shown_saveThen hd (Or.inr hstarted), ?_⟩
    cases saved with
    | false => trivial
    | true => exact hstarted.congr rfl fun _ => rfl
  | resumeFails => exact ⟨hd, trivial⟩
  | resumes hp hm ht =>
    rw [hp] at hphase
    subst ht
    have hresumed : s.processingResumed.resolveStart.shared.marker.Publishing :=
      hphase.congr rfl fun _ => rfl
    exact ⟨shown_saveThen (s := s.processingResumed.resolveStart) hd (Or.inr hresumed), hresumed.congr rfl fun _ => rfl⟩
  | @startsFile saved dt rest hp hs hc =>
    rw [hp] at hphase
    have himage : Image cfg.dump s.shared.marker ([] ++ [.started dt])
        (s.shared.marker.startFileProcessing (cfg.dump.fileName dt) s.shared.now) :=
      (Image.refl _).start (fun _ he => nomatch he) _
    refine ⟨shown_saveThen hd (Or.inr (himage.shows hphase)), ?_⟩
    cases saved with
    | false => trivial
    | true =>
      exact ⟨s.shared.marker, _, hphase, Pipeline.told_start (.refl _) (fun _ he => nomatch he)
        { bytes := s.files (cfg.dump.path dt), map := s.run.artistDiscogsMap }, trivial⟩
  | @pipelineMoves l dt rest source tasks p hp hm =>
    obtain ⟨hsettled, -, hshared⟩ := settleLineage_outside
      { s with shared := p.shared, phase := .processing dt rest source p.tasks } dt source tasks.main
      p.tasks.main
    unfold ShownPhase
    rw [hsettled, hshared]
    exact shown_pipeline hi hp hm
  | fileEnds hp =>
    rw [hp] at hphase
    obtain ⟨m₀, h, hm₀, htold, -⟩ := hphase
    exact ⟨hd, htold.image.shows hm₀⟩
  | @finalises saved hp =>
    rw [hp] at hphase
    refine ⟨shown_saveThen hd ?_, by cases saved <;> trivial⟩
    cases hs : s.run.success with
    | false => exact Or.inr hphase
    | true => exact Or.inl rfl
  | maps hp | loopEnds hp | loopEndsFailed hp | interrupted hp | skipsFile hp | announces hp
  | announced hp | announcingFails hp | connects hp | declares hp | declaresLast hp | phaseOver hp =>
    rw [hp] at hphase
    exact ⟨hd, hphase⟩
  | _ => exact ⟨hd, trivial⟩

theorem shown_reachable (h : (machine cfg).Reachable s) : ShownInv cfg s := by
  refine Machine.ReachableBy.invariant (P := ShownInv cfg) ?_ ?_ h
  · rintro _ ⟨files, now, rfl⟩
    exact ⟨inv_initial files now, (fun _ hm => nomatch hm), trivial, trivial⟩
  · intro s l t _ hi hstep
    obtain ⟨hdisk, hphase⟩ := shown_move (step_move hstep) hi
    exact ⟨inv_step hstep hi.inv, hdisk, hphase, unspoiled_move (step_move hstep) hi.unspoiled⟩

/-- What a run has when it reaches its loop. -/
theorem loopEntry_of_maps (h : (machine cfg).Reachable s) {fault : Option Error}
    (hstep : step cfg s (.buildMap fault) = some t) {files : List DataType}
    (hloop : t.phase = .looping files) (hrunning : t.shutdown = false) :
    LoopEntry t ∧ t.shared.marker.Publishing ∧
      t.shared.marker.summary.overallStatus ≠ .completed ∧
      t.shared.marker.downloadPhase.status = .pending := by
  have hi := shown_reachable h
  have hshown := hi.phase
  have hunspoiled := hi.unspoiled
  have hinv := hi.inv.phase
  cases step_move hstep with
  | mapFails => cases hloop
  | maps hp =>
    rw [ShownPhase, hp] at hshown
    rw [Unspoiled, hp] at hunspoiled
    rw [PhaseOk, hp] at hinv
    exact ⟨⟨rfl, hinv.1.counted.nodup, hunspoiled, hrunning⟩, hshown, hinv.1.unfinished,
      hinv.1.lineage.download⟩

end Service

end MusicbrainzIngestion
