import MusicbrainzIngestion.Service.Invariant

/-! Facts that travel with a marker. What is known of the marker a run goes on with holds through
the run, as long as it only speaks of which files are completed, of what they were processed from
and of the files now on disk. A user who knows it of the marker on disk too knows it of the one a
run loads and saves again. A step may break it in two ways, which the rule leaves to its user: a
download changes the files, and a fresh marker knows nothing. -/

namespace MusicbrainzIngestion
open Base

namespace Service

section Carried

variable (cfg : ServiceConfig)

/-- The bytes now at the file's path, if there are any, are the source's. -/
def Fits (files : Files) (dt : DataType) (source : Source) : Prop :=
  ∀ bytes, files (cfg.dump.path dt) = some bytes → source.bytes = some bytes

/-- A fact of the files, a lineage and a marker that reads only what is completed. -/
structure Carriable (M : Files → Lineage → StateMarker → Prop) : Prop where
  agrees : ∀ {files l l' m m'}, M files l m → (∀ f, m'.completedRecords f = m.completedRecords f) →
    l'.processed = l.processed → M files l' m'
  removed : ∀ {files files' l m}, M files l m →
    (∀ path bytes, files' path = some bytes → files path = some bytes) → M files' l m
  mark : ∀ {files l m m' dt source n}, M files l m → Fits cfg files dt source →
    (∀ f, m'.completedRecords f =
      if f = cfg.dump.fileName dt then some n else m.completedRecords f) →
    M files (Lineage.mark l dt source) m'

/-- The step keeps the fact where a download or a fresh marker could break it. `D` says that the
marker on disk has the fact; where it need not, the one a run loads has to have it. -/
def Carries (D : Prop) (M : Files → Lineage → StateMarker → Prop) (s : Service) : Label → Prop
  | .download fetched _ => D → ∀ m, s.shared.disk = some m → M s.files s.diskLineage m →
    M (fetchMissing cfg s.files fetched) s.diskLineage m
  | .decide readable => (s.run.force = true ∨ readable = false ∨ s.shared.disk = none →
      M s.files (.fresh s.shared.log.length) (.new cfg.dump.version s.shared.now)) ∧
    (s.run.force = false → readable = true → ∀ m, s.shared.disk = some m →
      D ∨ M s.files s.diskLineage m)
  | _ => True

def CarriedPhase (M : Files → Lineage → StateMarker → Prop) (s : Service) : Prop :=
  match s.phase with
  | .connecting | .declaring _ | .starting | .mapping | .looping _ | .announcing _ _ _
  | .finalising => M s.files s.run.lineage s.shared.marker
  | .processing dt rest source tasks => ∃ s₁ l, InFile cfg s dt rest source tasks s₁ l ∧
    M s.files l s₁.marker ∧ Fits cfg s.files dt source
  | _ => True

structure Carried (D : Prop) (M : Files → Lineage → StateMarker → Prop) (s : Service) : Prop where
  disk : D → ∀ m, s.shared.disk = some m → M s.files s.diskLineage m
  phase : CarriedPhase cfg M s

end Carried

variable {cfg : ServiceConfig} {D : Prop} {M : Files → Lineage → StateMarker → Prop} {s t : Service}

theorem Fits.removed {files files' : Files} {dt : DataType} {source : Source}
    (h : Fits cfg files dt source)
    (hr : ∀ path bytes, files' path = some bytes → files path = some bytes) :
    Fits cfg files' dt source :=
  fun bytes hb => h bytes (hr _ bytes hb)

/-- What happens around the program takes files away and markers, and adds none. -/
theorem Carried.later (hM : Carriable cfg M) (h : Carried cfg D M s)
    (hl : Shared.Later s.shared t.shared) (hrun : t.run = s.run)
    (hdisk : t.diskLineage = s.diskLineage) (hphase : t.phase = s.phase)
    (hfiles : ∀ path bytes, t.files path = some bytes → s.files path = some bytes) :
    Carried cfg D M t where
  disk hD m hm := by
    rw [hdisk]
    exact hM.removed (h.disk hD m (hl.disk m hm)) hfiles
  phase := by
    have hp := h.phase
    unfold CarriedPhase at hp ⊢
    rw [hphase]
    cases hs : s.phase with
    | connecting | declaring | starting | mapping | looping | announcing | finalising =>
      rw [hs] at hp
      rw [hrun, hl.marker]
      exact hM.removed hp hfiles
    | processing dt rest source tasks =>
      rw [hs] at hp
      obtain ⟨s₁, l, hf, hm, hfits⟩ := hp
      exact ⟨s₁, l, ⟨hrun ▸ hf.before, hf.pending, hf.pipeline.later hl, hrun ▸ hf.lineage,
        hdisk ▸ hf.disk⟩, hM.removed hm hfiles, hfits.removed hfiles⟩
    | _ => trivial

/-- A save of a marker that has the fact. -/
theorem Carried.saveThen (hM : Carriable cfg M) {phase : Phase} {saved : Bool}
    (hd : D → ∀ m, s.shared.disk = some m → M s.files s.diskLineage m)
    (hm : M s.files s.run.lineage s.shared.marker)
    (hp : saved = true → CarriedPhase cfg M { s with
      shared := s.shared.save true, diskLineage := s.run.lineage, phase := phase }) :
    Carried cfg D M (s.saveThen saved phase) := by
  cases saved with
  | false => exact ⟨hd, trivial⟩
  | true =>
    refine ⟨fun _ m hdisk => ?_, hp rfl⟩
    cases hdisk
    exact hM.agrees hm (fun _ => rfl) rfl

/-- The markers of a file in work have the fact, in memory and on disk. -/
theorem inFile_carried (hM : Carriable cfg M) {dt : DataType} {rest : List DataType}
    {source : Source} {tasks : Tasks} {s₁ : Shared} {l : Lineage}
    (h : InFile cfg s dt rest source tasks s₁ l) (hm : M s.files l s₁.marker)
    (hf : Fits cfg s.files dt source) :
    M s.files s.run.lineage s.shared.marker ∧
      ∀ m, s.shared.disk = some m → M s.files s.diskLineage m := by
  have hwork : ∀ {m}, InWork (cfg.job dt source) s₁.marker m → M s.files l m := fun hw =>
    hM.agrees hm hw.1.completed rfl
  rw [h.lineage, h.disk]
  rcases h.pipeline.frame.marker.split with ⟨hmarked, hsaved, hopen⟩ | ⟨n, saved, hmain, hmarked, hdisk⟩
  · rw [show tasks.main.marked = false from hmarked, show tasks.main.markSaved = false from hsaved]
    exact ⟨hwork hopen.1, fun m hd => hwork (hopen.2 m hd)⟩
  · rw [show tasks.main = .finished true n saved from hmain]
    have hmem := hM.mark hm hf hmarked.completed
    refine ⟨hmem, fun m hd => ?_⟩
    have hdm := hdisk m hd
    cases saved with
    | false => exact hwork hdm
    | true =>
      rw [show m = s.shared.marker from hdm]
      exact hmem

/-- The marker a run goes on with has the fact of the one on disk, or of a fresh one. -/
theorem carried_loadMarker {readable : Bool} (hc : Carries cfg D M s (.decide readable))
    (h : Carried cfg D M s) :
    M s.files (s.loadMarker cfg readable).run.lineage (s.loadMarker cfg readable).shared.marker := by
  unfold loadMarker
  split
  · next hforce => exact hc.1 (Or.inl hforce)
  · next hforce =>
    split
    · next m hdisk =>
      rcases hc.2 (Bool.eq_false_iff.mpr hforce) rfl m hdisk with hD | hloaded
      · exact h.disk hD m hdisk
      · exact hloaded
    · next hnone =>
      refine hc.1 (Or.inr ?_)
      cases hdisk : s.shared.disk with
      | none => exact Or.inr rfl
      | some m => exact Or.inl (Bool.eq_false_iff.mpr (hnone m hdisk))

variable (cfg s) in
/-- Loading a marker changes the memory of the run only. -/
theorem loadMarker_outside (readable : Bool) :
    (s.loadMarker cfg readable).files = s.files ∧
      (s.loadMarker cfg readable).shared.disk = s.shared.disk ∧
      (s.loadMarker cfg readable).diskLineage = s.diskLineage := by
  unfold loadMarker
  split
  · exact ⟨rfl, rfl, rfl⟩
  · split <;> exact ⟨rfl, rfl, rfl⟩

/-- Going on with the loaded marker. -/
theorem Carried.continues (h : Carried cfg D M s) {readable : Bool}
    (hc : Carries cfg D M s (.decide readable)) :
    Carried cfg D M ((s.loadMarker cfg readable).goto .connecting) := by
  obtain ⟨hfiles, hdisk, hlineage⟩ := loadMarker_outside cfg s readable
  have hloaded := carried_loadMarker hc h
  have hkept := h.disk
  rw [← hfiles] at hloaded hkept
  rw [← hdisk, ← hlineage] at hkept
  exact ⟨hkept, hloaded⟩

theorem Carried.startsFile (hM : Carriable cfg M) (hi : Inv cfg s) (h : Carried cfg D M s)
    {dt : DataType} {rest : List DataType} (hp : s.phase = .looping (dt :: rest))
    (hc : s.shared.marker.completedRecords (cfg.dump.fileName dt) = none) (saved : Bool) :
    Carried cfg D M ((s.setMarker (s.shared.marker.startFileProcessing (cfg.dump.fileName dt)
      s.shared.now)).saveThen saved (.processing dt rest
        { bytes := s.files (cfg.dump.path dt), map := s.run.artistDiscogsMap }
        (Tasks.spawn cfg.pipeline))) := by
  have hmem := h.phase
  have hloop := hi.phase
  simp only [CarriedPhase, hp] at hmem
  simp only [PhaseOk, hp] at hloop
  have hsame := StateMarker.completedRecords_startFileProcessing s.shared.now hc
  have hfile := InFile.start hloop.1 hloop.2 hc
    { bytes := s.files (cfg.dump.path dt), map := s.run.artistDiscogsMap } .idle
  apply Carried.saveThen hM
  · exact h.disk
  · exact hM.agrees hmem hsame rfl
  · exact fun _ => ⟨_, _, ⟨hfile.before, hfile.pending, hfile.pipeline, rfl, rfl⟩,
      hM.agrees hmem hsame rfl, fun bytes hb => hb⟩

theorem Carried.pipelineMoves (hM : Carriable cfg M) (h : Carried cfg D M s) {l : Pipeline.Label}
    {dt : DataType} {rest : List DataType} {source : Source} {tasks : Tasks} {p : Pipeline}
    (hp : s.phase = .processing dt rest source tasks)
    (hm : Pipeline.step cfg.pipeline (cfg.job dt source) ⟨s.shared, tasks⟩ l = some p) :
    Carried cfg D M ({ s with
      shared := p.shared, phase := .processing dt rest source p.tasks }.settleLineage
        dt source tasks.main p.tasks.main) := by
  have hphase := h.phase
  simp only [CarriedPhase, hp] at hphase
  obtain ⟨s₁, l, hfile, hmem, hfits⟩ := hphase
  have hnext := hfile.step hm
  obtain ⟨hprocessing, hfiles, -⟩ := settleLineage_outside { s with
    shared := p.shared, phase := .processing dt rest source p.tasks } dt source tasks.main p.tasks.main
  rw [← hfiles] at hmem hfits
  refine ⟨fun _ => (inFile_carried hM hnext hmem hfits).2, ?_⟩
  unfold CarriedPhase
  rw [hprocessing]
  exact ⟨s₁, l, hnext, hmem, hfits⟩

theorem carried_move (hM : Carriable cfg M) {label : Label} (hc : Carries cfg D M s label)
    (hmove : Move cfg s label t) (hi : Inv cfg s) (h : Carried cfg D M s) : Carried cfg D M t := by
  have hphase := h.phase
  cases hmove with
  | ticks elapsed =>
    exact h.later hM ⟨Nat.le_add_right _ _, rfl, rfl, rfl, fun _ hm => hm⟩ rfl rfl rfl
      fun _ _ hb => hb
  | shutdownRequested => exact h.later hM (.refl _) rfl rfl rfl fun _ _ hb => hb
  | markerLost =>
    exact h.later hM ⟨Nat.le_refl _, rfl, rfl, rfl, fun _ hm => nomatch hm⟩ rfl rfl rfl
      fun _ _ hb => hb
  | fileRemoved dt =>
    refine h.later hM (.refl _) rfl rfl rfl fun path bytes hb => ?_
    dsimp only at hb
    split at hb
    · cases hb
    · exact hb
  | crashes | begins | stops | enters | goesOn | discoverFails | findsNone | discovers
  | connectFails | declareFails | resumeFails | mapFails | fileFails | reports =>
    exact ⟨h.disk, trivial⟩
  | downloadFails | downloads => exact ⟨fun hD m hm => hc hD m hm (h.disk hD m hm), trivial⟩
  | skips =>
    obtain ⟨hfiles, hdisk, hlineage⟩ := loadMarker_outside cfg s _
    have hkept := h.disk
    rw [← hfiles, ← hdisk, ← hlineage] at hkept
    exact ⟨hkept, trivial⟩
  | reprocesses hp hd =>
    obtain ⟨-, -, hnever, -⟩ := hi.loadMarker hp _
    exact absurd hd hnever
  | continues => exact h.continues hc
  | connects hp | declares hp | declaresLast hp | phaseOver hp | maps hp | loopEnds hp
  | loopEndsFailed hp | interrupted hp | skipsFile hp | announces hp | announced hp
  | announcingFails hp =>
    simp only [CarriedPhase, hp] at hphase
    exact ⟨h.disk, hphase⟩
  | starts hp =>
    simp only [CarriedPhase, hp] at hphase
    have hmem : M s.files s.startedLineage
        (s.shared.marker.startProcessing s.run.dumpFiles.length s.shared.now) :=
      hM.agrees hphase (fun _ => rfl) rfl
    apply Carried.saveThen hM
    · exact h.disk
    · exact hmem
    · exact fun _ => hM.agrees hmem (fun _ => rfl) rfl
  | resumes hp hm ht =>
    subst ht
    simp only [CarriedPhase, hp] at hphase
    refine ⟨fun _ m hdisk => ?_, hM.agrees hphase (fun _ => rfl) rfl⟩
    cases hdisk
    exact hM.agrees hphase (fun _ => rfl) rfl
  | startsFile hp hs hnone => exact h.startsFile hM hi hp hnone _
  | pipelineMoves hp hm => exact h.pipelineMoves hM hp hm
  | fileEnds hp hm =>
    simp only [CarriedPhase, hp] at hphase
    obtain ⟨s₁, l, hfile, hmem, hfits⟩ := hphase
    exact ⟨h.disk, (inFile_carried hM hfile hmem hfits).1⟩
  | finalises hp =>
    simp only [CarriedPhase, hp] at hphase
    apply Carried.saveThen hM
    · exact h.disk
    · exact hM.agrees hphase (fun f => by cases s.run.success <;> rfl) rfl
    · exact fun _ => trivial

theorem carried_step (hM : Carriable cfg M) {label : Label} (hc : Carries cfg D M s label)
    (hstep : Service.step cfg s label = some t) (hi : Inv cfg s) (h : Carried cfg D M s) :
    Carried cfg D M t :=
  carried_move hM hc (step_move hstep) hi h

theorem carried_along (hM : Carriable cfg M) {labels : List Label}
    (hc : (machine cfg).Along (Carries cfg D M) s labels) (hi : Inv cfg s) (h : Carried cfg D M s) :
    (machine cfg).Along
      (fun s label => (Inv cfg s ∧ Carried cfg D M s) ∧ Carries cfg D M s label) s labels :=
  hc.invariant (P := fun s => Inv cfg s ∧ Carried cfg D M s) (fun _ _ _ hc hs hstep =>
    ⟨inv_step hstep hs.1, carried_step hM hc hstep hs.1 hs.2⟩) ⟨hi, h⟩

theorem carried_run (hM : Carriable cfg M) {labels : List Label}
    (hc : (machine cfg).Along (Carries cfg D M) s labels) (hi : Inv cfg s) (h : Carried cfg D M s)
    (hrun : (machine cfg).run s labels = some t) : Inv cfg t ∧ Carried cfg D M t :=
  (machine cfg).run_preserves (P := fun s => Inv cfg s ∧ Carried cfg D M s) (fun _ _ _ hc hs hstep =>
    ⟨inv_step hstep hs.1, carried_step hM hc hstep hs.1 hs.2⟩) hc ⟨hi, h⟩ hrun

end Service

end MusicbrainzIngestion
