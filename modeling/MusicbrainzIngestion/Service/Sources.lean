import MusicbrainzIngestion.Service.Invariant

/-! Runs in which the dump files stay as they are. Every run then works on the whole
dump, every file is processed from the bytes and the map the dump gives, and every
publish belongs to one of its files or announces all of them. -/

namespace MusicbrainzIngestion
open Base

namespace Service

section Sources

variable (cfg : ServiceConfig) (files : Files)

/-- The bytes of the file, and the map the artists of the dump give. -/
def Genuine (dt : DataType) (source : Source) : Prop :=
  source.bytes = files (cfg.dump.path dt) ∧
    cfg.discogsMap files DataType.musicbrainz = .ok source.map

/-- The publish announces all of the files, or it is one of a file of the dump. -/
def OfDump (a : Attempt) : Prop :=
  (∃ e, a.message = .extractionComplete e ∧ ∀ dt : DataType, (e.recordCounts.lookup dt.asStr).isSome = true) ∨
    ∃ source, Genuine cfg files a.exchange source ∧ FileAttempt (cfg.job a.exchange source) a

def PhaseSourced (s : Service) : Prop :=
  match s.phase with
  | .deciding | .connecting | .declaring _ | .starting | .mapping | .announcing _ _ _
  | .finalising => ∀ dt, dt ∈ s.run.dumpFiles
  | .looping _ => (∀ dt, dt ∈ s.run.dumpFiles) ∧
    cfg.discogsMap files DataType.musicbrainz = .ok s.run.artistDiscogsMap
  | .processing dt _ source _ => (∀ dt, dt ∈ s.run.dumpFiles) ∧
    cfg.discogsMap files DataType.musicbrainz = .ok s.run.artistDiscogsMap ∧
    Genuine cfg files dt source
  | _ => True

structure Sourced (s : Service) : Prop where
  unchanged : s.files = files
  log : ∀ a ∈ s.shared.log, OfDump cfg files a
  disk : ∀ dt source, s.diskLineage.processed dt = some source → Genuine cfg files dt source
  run : ∀ dt source, s.run.lineage.processed dt = some source → Genuine cfg files dt source
  phase : PhaseSourced cfg files s

end Sources

variable {cfg : ServiceConfig} {files : Files} {s t : Service} {dt : DataType}
  {source source' : Source}

theorem Genuine.unique (h : Genuine cfg files dt source) (h' : Genuine cfg files dt source') :
    source = source' := by
  cases source
  cases source'
  have hbytes := h.1.trans h'.1.symm
  have hmap := h.2.symm.trans h'.2
  cases hbytes
  cases hmap
  rfl

/-- The map depends on whether the artists are among the files, and on nothing else of them. -/
theorem discogsMap_whole {dumpFiles : List DataType} (h : ∀ dt, dt ∈ dumpFiles) :
    cfg.discogsMap files dumpFiles = cfg.discogsMap files DataType.musicbrainz := by
  unfold ServiceConfig.discogsMap
  rw [if_pos (h .artists), if_pos (DataType.mem_musicbrainz .artists)]

/-- A download finds nothing to do. -/
theorem download_files (hfiles : ∀ dt, (s.files (cfg.dump.path dt)).isSome = true)
    (fetched : DataType → Option (List UInt8)) :
    fetchMissing cfg s.files fetched = s.files := by
  funext path
  unfold fetchMissing
  cases hpath : s.files path with
  | some bytes => rfl
  | none =>
    have hnone : (DataType.musicbrainz.find? fun dt => cfg.dump.path dt = path) = none := by
      rw [List.find?_eq_none]
      intro dt _ heq
      have hdt := hfiles dt
      rw [of_decide_eq_true heq, hpath] at hdt
      cases hdt
    simp only [hnone, Option.bind_none]

theorem sourced_loadMarker (h : Sourced cfg files s) (readable : Bool) :
    Sourced cfg files (s.loadMarker cfg readable) := by
  unfold loadMarker
  split
  · exact ⟨h.unchanged, h.log, h.disk, (fun _ _ hn => nomatch hn), h.phase⟩
  · split
    · exact ⟨h.unchanged, h.log, h.disk, h.disk, h.phase⟩
    · exact ⟨h.unchanged, h.log, h.disk, (fun _ _ hn => nomatch hn), h.phase⟩

variable (cfg s) in
theorem loadMarker_dumpFiles (readable : Bool) :
    (s.loadMarker cfg readable).run.dumpFiles = s.run.dumpFiles := by
  unfold loadMarker
  split
  · rfl
  · split <;> rfl

/-- A save puts the lineage of the run on disk. -/
theorem Sourced.saveThen {phase : Phase} {saved : Bool} (hfiles : s.files = files)
    (hlog : ∀ a ∈ s.shared.log, OfDump cfg files a)
    (hdisk : ∀ dt source, s.diskLineage.processed dt = some source → Genuine cfg files dt source)
    (hrun : ∀ dt source, s.run.lineage.processed dt = some source → Genuine cfg files dt source)
    (hp : PhaseSourced cfg files { s with
      shared := s.shared.save true, diskLineage := s.run.lineage, phase := phase }) :
    Sourced cfg files (s.saveThen saved phase) := by
  cases saved with
  | false => exact ⟨hfiles, hlog, hdisk, hrun, trivial⟩
  | true => exact ⟨hfiles, hlog, hrun, hrun, hp⟩

theorem genuine_mark {l : Lineage} (h : ∀ dt source, l.processed dt = some source →
    Genuine cfg files dt source) (hs : Genuine cfg files dt source) {dt' : DataType}
    {source' : Source} (hm : (Lineage.mark l dt source).processed dt' = some source') :
    Genuine cfg files dt' source' := by
  unfold Lineage.mark at hm
  dsimp only at hm
  split at hm
  · next heq =>
    cases hm
    rw [heq]
    exact hs
  · exact h dt' source' hm

theorem Sourced.pipelineMoves (h : Sourced cfg files s) (hi : Inv cfg s) {l : Pipeline.Label}
    {rest : List DataType} {tasks : Tasks} {p : Pipeline}
    (hp : s.phase = .processing dt rest source tasks)
    (hm : Pipeline.step cfg.pipeline (cfg.job dt source) ⟨s.shared, tasks⟩ l = some p) :
    Sourced cfg files ({ s with
      shared := p.shared, phase := .processing dt rest source p.tasks }.settleLineage
        dt source tasks.main p.tasks.main) := by
  have hsources := h.phase
  have hfile := hi.phase
  simp only [PhaseSourced, hp] at hsources
  simp only [PhaseOk, hp] at hfile
  obtain ⟨s₁, l, hfile⟩ := hfile
  have hgrown := Pipeline.grown_move (Pipeline.step_move hm) hfile.pipeline.sound
    (Pipeline.grown_refl _ _)
  obtain ⟨attempts, hlog, hall⟩ := hgrown.log
  have hdump : ∀ a ∈ p.shared.log, OfDump cfg files a := fun a ha => by
    rw [hlog] at ha
    rcases List.mem_append.mp ha with ha | ha
    · exact h.log a ha
    · have hof := (hall a ha).1
      have hexch : a.exchange = dt := hof.exchange
      exact Or.inr ⟨source, by rw [hexch]; exact hsources.2.2, by rw [hexch]; exact hof⟩
  unfold settleLineage
  split
  · refine ⟨h.unchanged, hdump, fun dt' source' hm => ?_, fun dt' source' hm => ?_, hsources⟩
    · dsimp only at hm
      split at hm
      · exact genuine_mark h.run hsources.2.2 hm
      · exact h.disk dt' source' hm
    · exact genuine_mark h.run hsources.2.2 hm
  · exact ⟨h.unchanged, hdump, h.disk, h.run, hsources⟩

theorem Sourced.announces (h : Sourced cfg files s) (hi : Inv cfg s)
    {message : ExtractionCompleteMessage} {rest : List DataType} {errors : List String}
    (hp : s.phase = .announcing message (dt :: rest) errors) (reply : Reply) :
    ∀ a ∈ (s.shared.publish dt (.extractionComplete message) reply).log, OfDump cfg files a := by
  have hwhole := h.phase
  have hannouncing := hi.phase
  simp only [PhaseSourced, hp] at hwhole
  simp only [PhaseOk, hp] at hannouncing
  intro a ha
  rcases List.mem_append.mp ha with ha | ha
  · exact h.log a ha
  · rw [List.mem_singleton.mp ha]
    refine Or.inl ⟨message, rfl, fun dt => ?_⟩
    obtain ⟨n, -, hn, -⟩ := hannouncing.1.between.counted.done hannouncing.1.success dt
      (hwhole dt) List.not_mem_nil
    rw [hannouncing.1.counts, hn]
    rfl

/-- Every step but a removal of a file. -/
theorem sourced_move {label : Label} (hfiles : ∀ dt, (files (cfg.dump.path dt)).isSome = true)
    (hl : ∀ dt, label ≠ .removeFile dt) (hmove : Move cfg s label t) (hi : Inv cfg s)
    (h : Sourced cfg files s) : Sourced cfg files t := by
  have hphase := h.phase
  have hfetched : ∀ fetched, fetchMissing cfg s.files fetched = s.files :=
    download_files (by rw [h.unchanged]; exact hfiles)
  have hload := sourced_loadMarker h
  cases hmove with
  | ticks | shutdownRequested | markerLost =>
    exact ⟨h.unchanged, h.log, h.disk, h.run, h.phase⟩
  | fileRemoved dt => exact absurd rfl (hl dt)
  | crashes | stops | enters | goesOn | discoverFails | findsNone | connectFails | declareFails
  | resumeFails | mapFails | fileFails | reports =>
    exact ⟨h.unchanged, h.log, h.disk, h.run, trivial⟩
  | begins => exact ⟨h.unchanged, h.log, h.disk, h.disk, trivial⟩
  | downloadFails | downloads =>
    exact ⟨(hfetched _).trans h.unchanged, h.log, h.disk, h.run, trivial⟩
  | discovers hp hperm =>
    refine ⟨h.unchanged, h.log, h.disk, h.run, fun dt => hperm.mem_iff.mpr ?_⟩
    rw [List.mem_filter]
    refine ⟨DataType.mem_musicbrainz dt, ?_⟩
    rw [present, h.unchanged]
    exact hfiles dt
  | skips => exact ⟨(hload _).unchanged, (hload _).log, (hload _).disk, (hload _).run, trivial⟩
  | reprocesses hp =>
    simp only [PhaseSourced, hp] at hphase
    rw [← loadMarker_dumpFiles cfg s _] at hphase
    exact ⟨(hload _).unchanged, (hload _).log, (hload _).disk, (fun _ _ hn => nomatch hn), hphase⟩
  | continues hp =>
    simp only [PhaseSourced, hp] at hphase
    rw [← loadMarker_dumpFiles cfg s _] at hphase
    exact ⟨(hload _).unchanged, (hload _).log, (hload _).disk, (hload _).run, hphase⟩
  | connects hp | declares hp | declaresLast hp | phaseOver hp | skipsFile hp
  | announced hp | announcingFails hp =>
    simp only [PhaseSourced, hp] at hphase
    exact ⟨h.unchanged, h.log, h.disk, h.run, hphase⟩
  | starts hp =>
    simp only [PhaseSourced, hp] at hphase
    exact .saveThen h.unchanged h.log h.disk h.run hphase
  | resumes hp hm ht =>
    subst ht
    simp only [PhaseSourced, hp] at hphase
    exact ⟨h.unchanged, h.log, h.run, h.run, hphase⟩
  | maps hp hmap =>
    simp only [PhaseSourced, hp] at hphase
    rw [h.unchanged, discogsMap_whole hphase] at hmap
    exact ⟨h.unchanged, h.log, h.disk, h.run, hphase, hmap⟩
  | loopEnds hp | loopEndsFailed hp | interrupted hp =>
    simp only [PhaseSourced, hp] at hphase
    exact ⟨h.unchanged, h.log, h.disk, h.run, hphase.1⟩
  | startsFile hp =>
    simp only [PhaseSourced, hp] at hphase
    exact .saveThen h.unchanged h.log h.disk h.run
      ⟨hphase.1, hphase.2, congrFun h.unchanged _, hphase.2⟩
  | pipelineMoves hp hm => exact h.pipelineMoves hi hp hm
  | fileEnds hp =>
    simp only [PhaseSourced, hp] at hphase
    exact ⟨h.unchanged, h.log, h.disk, h.run, hphase.1, hphase.2.1⟩
  | announces hp =>
    simp only [PhaseSourced, hp] at hphase
    exact ⟨h.unchanged, h.announces hi hp _, h.disk, h.run, hphase⟩
  | finalises => exact .saveThen h.unchanged h.log h.disk h.run trivial

theorem sourced_step {label : Label} (hfiles : ∀ dt, (files (cfg.dump.path dt)).isSome = true)
    (hl : ∀ dt, label ≠ .removeFile dt) (hstep : Service.step cfg s label = some t)
    (hi : Inv cfg s) (h : Sourced cfg files s) : Sourced cfg files t :=
  sourced_move hfiles hl (step_move hstep) hi h

theorem sourced_initial (files : Files) (now : DateTime) :
    Sourced cfg files (initial cfg files now) where
  unchanged := rfl
  log _ ha := nomatch ha
  disk _ _ hn := nomatch hn
  run _ _ hn := nomatch hn
  phase := trivial

/-- Runs from a whole dump whose files nobody removes. -/
theorem sourced_run (hfiles : ∀ dt, (files (cfg.dump.path dt)).isSome = true) {now : DateTime}
    {labels : List Label} (hl : ∀ label ∈ labels, ∀ dt, label ≠ .removeFile dt)
    (hrun : (machine cfg).run (initial cfg files now) labels = some s) :
    Inv cfg s ∧ Sourced cfg files s :=
  (machine cfg).run_preserves (P := fun s => Inv cfg s ∧ Sourced cfg files s)
    (c := fun _ label => ∀ dt, label ≠ .removeFile dt)
    (fun _ _ _ hc hs hstep => ⟨inv_step hstep hs.1, sourced_step hfiles hc hstep hs.1 hs.2⟩)
    ((machine cfg).along_of_labels hl _) ⟨inv_initial files now, sourced_initial files now⟩ hrun

end Service

end MusicbrainzIngestion
