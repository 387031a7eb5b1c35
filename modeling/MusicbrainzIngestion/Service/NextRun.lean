import MusicbrainzIngestion.Service.LoopRun

/-! The run after a run that ended, over the same dump files: it reads the marker that is on disk,
and attempts the files that the marker does not show as completed. -/

namespace MusicbrainzIngestion
open Base

section Next

variable (cfg : ServiceConfig) (m : StateMarker) (files : List DataType)

/-- The run read the marker and is in its loop. -/
def LoopOver (s : Service) (h : List FileEvent) : Prop :=
  ∃ s₀, LoopEntry s₀ ∧ s₀.run.dumpFiles.Perm files ∧
    (∀ f, s₀.shared.marker.fileCompleted f = m.fileCompleted f) ∧ LoopInv cfg s₀ s h

/-- The run has failed, or had nothing to do, or is over. -/
def NextOver (s : Service) (h : List FileEvent) : Prop :=
  (∃ e, s.outcome = some (.error e)) ∨
    (h = [] ∧ (m.summary.overallStatus = .completed ∨ files = [])) ∨ LoopOver cfg m files s h

/-- It has not read the marker yet. -/
structure Unread (s : Service) (h : List FileEvent) : Prop where
  quiet : h = []
  disk : s.shared.disk = some m
  force : s.run.force = false
  success : s.run.success = true

/-- It has read the marker and not started a file. -/
structure Prepared (s : Service) (h : List FileEvent) : Prop where
  quiet : h = []
  files : s.run.dumpFiles.Perm files
  completed : ∀ f, s.shared.marker.fileCompleted f = m.fileCompleted f
  success : s.run.success = true

def NextPhase (s : Service) (h : List FileEvent) : Prop :=
  match s.phase with
  | .entry | .downloading | .downloaded | .discovering => Unread m s h
  | .deciding => Unread m s h ∧ s.run.dumpFiles.Perm files
  | .connecting | .declaring _ | .starting | .mapping => Prepared m files s h
  | .idle => NextOver cfg m files s h
  | _ => LoopOver cfg m files s h

structure NextInv (s : Service) (h : List FileEvent) : Prop where
  running : s.shutdown = false
  phase : NextPhase cfg m files s h

end Next

variable {cfg : ServiceConfig} {m : StateMarker} {files : List DataType} {s t : Service}
  {h : List FileEvent} {label : Service.Label}

/-- What a calm step of the next run is, with the dump files found again. -/
structure Service.Label.Same (files : List DataType) (label : Service.Label) : Prop where
  calm : label.calm = true
  found : ∀ found, label = .discover (.ok found) → found.Perm files

/-- Before its loop a run does nothing to a file. -/
theorem Service.events_eq_nil (hl : ∀ rest, s.phase ≠ .looping rest)
    (hp : ∀ dt rest source tasks, s.phase ≠ .processing dt rest source tasks)
    (ha : ∀ message rest errors, s.phase ≠ .announcing message rest errors) (l : Label) (t : Service) :
    s.events l t = [] := by
  unfold events
  split
  · next hphase _ => exact absurd hphase (hl _)
  · next hphase _ => exact absurd hphase (hp _ _ _ _)
  · next hphase _ => exact absurd hphase (hp _ _ _ _)
  · next hphase => exact absurd hphase (ha _ _ _)
  · rfl

theorem nextInv_of_loop (hloop : LoopOver cfg m files s h) : NextInv cfg m files s h := by
  have hsame := hloop
  obtain ⟨s₀, -, -, -, hinv⟩ := hsame
  have hphase := hinv.phase
  refine ⟨hinv.running, ?_⟩
  unfold NextPhase
  unfold LoopPhase at hphase
  cases hp : s.phase with
  | looping | processing | announcing | finalising | reporting => exact hloop
  | idle => exact Or.inr (Or.inr hloop)
  | _ =>
    rw [hp] at hphase
    exact hphase.elim

theorem LoopOver.step (hloop : LoopOver cfg m files s h) (hcalm : label.calm = true)
    (hmove : Service.Move cfg s label t) : NextInv cfg m files t (h ++ s.events label t) := by
  obtain ⟨s₀, he, hperm, hsame, hinv⟩ := hloop
  exact nextInv_of_loop ⟨s₀, he, hperm, hsame, hinv.step he hcalm hmove⟩

namespace Service

/-- The marker that the next run finds is the one on disk. -/
theorem loadMarker_of_disk (cfg : ServiceConfig) (hdisk : s.shared.disk = some m) (hforce : s.run.force = false) :
    (s.loadMarker cfg true).shared.marker = m ∧
      (s.loadMarker cfg true).run.dumpFiles = s.run.dumpFiles ∧
      (s.loadMarker cfg true).run.success = s.run.success ∧
      (s.loadMarker cfg true).shutdown = s.shutdown := by
  unfold loadMarker
  rw [hforce, hdisk]
  exact ⟨rfl, rfl, rfl, rfl⟩

end Service

theorem StateMarker.shouldProcess_ne_reprocess (hd : m.downloadPhase.status = .pending) :
    m.shouldProcess ≠ .reprocess := by
  unfold shouldProcess
  rw [hd, if_neg (by simp)]
  split
  · simp
  · split
    · simp
    · split <;> simp

open Service in
/-- Each step of the next run keeps what is known of it. -/
theorem NextInv.step (hd : m.downloadPhase.status = .pending) (hn : files.Nodup)
    (hlabel : label.Same files) (hi : NextInv cfg m files s h) (hmove : Move cfg s label t) :
    NextInv cfg m files t (h ++ s.events label t) := by
  have hcalm := hlabel.calm
  have hrunning := hi.running
  have hphase := hi.phase
  unfold NextPhase at hphase
  by_cases hloop : LoopOver cfg m files s h
  · exact hloop.step hcalm hmove
  have hquiet : s.events label t = [] := by
    refine Service.events_eq_nil (fun rest hp => ?_) (fun dt rest source tasks hp => ?_)
      (fun message rest errors hp => ?_) label t
    all_goals
      rw [hp] at hphase
      exact hloop hphase
  rw [hquiet, List.append_nil]
  cases hmove with
  | shutdownRequested | crashes | markerLost | begins => cases hcalm
  | ticks | fileRemoved =>
    refine ⟨hrunning, ?_⟩
    unfold NextPhase
    cases hp : s.phase with
    | looping | processing | announcing | finalising | reporting =>
      rw [hp] at hphase
      exact absurd hphase hloop
    | idle =>
      rw [hp] at hphase
      obtain herror | hnothing | hover := hphase
      · exact Or.inl herror
      · exact Or.inr (Or.inl hnothing)
      · exact absurd hover hloop
    | deciding =>
      rw [hp] at hphase
      exact ⟨⟨hphase.1.quiet, hphase.1.disk, hphase.1.force, hphase.1.success⟩, hphase.2⟩
    | entry | downloading | downloaded | discovering =>
      rw [hp] at hphase
      exact ⟨hphase.quiet, hphase.disk, hphase.force, hphase.success⟩
    | _ =>
      rw [hp] at hphase
      exact ⟨hphase.quiet, hphase.files, hphase.completed, hphase.success⟩
  | stops hp hs => exact Bool.noConfusion (hrunning.symm.trans hs)
  | enters hp | goesOn hp | downloads hp =>
    rw [hp] at hphase
    exact ⟨hrunning, hphase.quiet, hphase.disk, hphase.force, hphase.success⟩
  | discovers hp =>
    rw [hp] at hphase
    exact ⟨hrunning, ⟨hphase.quiet, hphase.disk, hphase.force, hphase.success⟩,
      hlabel.found _ rfl⟩
  | findsNone hp =>
    rw [hp] at hphase
    exact ⟨hrunning, Or.inr (Or.inl ⟨hphase.quiet, Or.inr (List.nil_perm.mp (hlabel.found _ rfl))⟩)⟩
  | downloadFails | discoverFails | connectFails | declareFails | mapFails =>
    exact ⟨hrunning, Or.inl ⟨_, rfl⟩⟩
  | @skips readable hp hskip =>
    rw [hp] at hphase
    have hreadable : readable = true := hcalm
    subst hreadable
    obtain ⟨hm, -, -, hshutdown⟩ := loadMarker_of_disk cfg hphase.1.disk hphase.1.force
    rw [hm] at hskip
    exact ⟨hshutdown.trans hrunning, Or.inr (Or.inl ⟨hphase.1.quiet,
      Or.inl (StateMarker.overall_of_skip hskip)⟩)⟩
  | @reprocesses readable hp hagain =>
    rw [hp] at hphase
    have hreadable : readable = true := hcalm
    subst hreadable
    obtain ⟨hm, -, -, -⟩ := loadMarker_of_disk cfg hphase.1.disk hphase.1.force
    rw [hm] at hagain
    exact absurd hagain (StateMarker.shouldProcess_ne_reprocess hd)
  | @continues readable hp =>
    rw [hp] at hphase
    have hreadable : readable = true := hcalm
    subst hreadable
    obtain ⟨hm, hfiles, hsuccess, hshutdown⟩ :=
      loadMarker_of_disk cfg hphase.1.disk hphase.1.force
    refine ⟨hshutdown.trans hrunning, hphase.1.quiet, ?_, fun f => ?_, hsuccess.trans hphase.1.success⟩
    · have hsame := hphase.2
      rwa [← hfiles] at hsame
    · rw [← hm]
      rfl
  | connects hp | declares hp | declaresLast hp | phaseOver hp =>
    rw [hp] at hphase
    exact ⟨hrunning, hphase.quiet, hphase.files, hphase.completed, hphase.success⟩
  | @starts saved hp =>
    rw [hp] at hphase
    have hsaved : saved = true := hcalm
    subst hsaved
    exact ⟨hrunning, hphase.quiet, hphase.files, hphase.completed, hphase.success⟩
  | resumeFails hp => cases hcalm
  | resumes hp hm ht =>
    rw [hp] at hphase
    subst ht
    exact ⟨hrunning, hphase.quiet, hphase.files, hphase.completed, hphase.success⟩
  | @maps map hp =>
    rw [hp] at hphase
    have hentry : LoopEntry ({ s with run := { s.run with artistDiscogsMap := map } }.goto
        (.looping s.run.dumpFiles)) :=
      ⟨rfl, hphase.files.nodup_iff.mpr hn, hphase.success, hrunning⟩
    rw [hphase.quiet]
    exact nextInv_of_loop ⟨_, hentry, hphase.files, hphase.completed, loopInv_entry hentry⟩
  | loopEnds hp | loopEndsFailed hp | interrupted hp | skipsFile hp | startsFile hp
  | pipelineMoves hp | fileEnds hp | fileFails hp | announces hp | announced hp
  | announcingFails hp | finalises hp | reports hp =>
    rw [hp] at hphase
    exact absurd hphase hloop

end MusicbrainzIngestion
