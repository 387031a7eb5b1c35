import MusicbrainzIngestion.Service.Stream

/-! Where records come from. When every file that a download fetches has some property, every
record a run publishes was read from a file that has it, under a map that was read from files
that have it; also when files go missing and runs are cut short on the way. -/

namespace MusicbrainzIngestion
open Base

namespace Service

section Supplied

variable (cfg : ServiceConfig) (P : DataType → List UInt8 → Prop)

/-- Every dump file there is has the property. -/
def FilesFrom (files : Files) : Prop :=
  ∀ dt bytes, files (cfg.dump.path dt) = some bytes → P dt bytes

def MapFrom (map : JsonlParser.DiscogsMap) : Prop :=
  ∃ files dumpFiles, FilesFrom cfg P files ∧ cfg.discogsMap files dumpFiles = .ok map

structure SourceFrom (dt : DataType) (source : Source) : Prop where
  bytes : ∀ bytes, source.bytes = some bytes → P dt bytes
  map : MapFrom cfg P source.map

def RecordFrom (dt : DataType) (msg : DataMessage) : Prop :=
  ∃ source, SourceFrom cfg P dt source ∧ msg ∈ (cfg.job dt source).records

def LogFrom (attempts : List Attempt) : Prop :=
  ∀ a ∈ attempts, ∀ msg, a.message = .data msg → RecordFrom cfg P a.exchange msg

def PhaseFrom (s : Service) : Phase → Prop
  | .looping _ => MapFrom cfg P s.run.artistDiscogsMap
  | .processing dt _ source tasks => MapFrom cfg P s.run.artistDiscogsMap ∧
    SourceFrom cfg P dt source ∧ ∃ base, LogFrom cfg P base ∧
      Pipeline.Sound (cfg.job dt source) base ⟨s.shared, tasks⟩ ∧
      Pipeline.Streaming (cfg.job dt source) base ⟨s.shared, tasks⟩
  | _ => True

structure Supplied (s : Service) : Prop where
  files : FilesFrom cfg P s.files
  log : LogFrom cfg P s.shared.log
  phase : PhaseFrom cfg P s s.phase

/-- The label fetches files that have the property. -/
def Supplies : Label → Prop
  | .download fetched _ => ∀ dt bytes, fetched dt = some bytes → P dt bytes
  | _ => True

end Supplied

variable {cfg : ServiceConfig} {P : DataType → List UInt8 → Prop} {s t : Service} {dt : DataType}
  {source : Source}

theorem LogFrom.append {xs ys : List Attempt} (hx : LogFrom cfg P xs) (hy : LogFrom cfg P ys) :
    LogFrom cfg P (xs ++ ys) := by
  intro a ha
  rcases List.mem_append.mp ha with ha | ha
  · exact hx a ha
  · exact hy a ha

/-- The stream of a file holds records of the file. -/
theorem logFrom_stream (hs : SourceFrom cfg P dt source) {attempts : List Attempt}
    (h : FileStream (cfg.job dt source) attempts) : LogFrom cfg P attempts := by
  intro a ha msg hmsg
  obtain ⟨sent, data, hdata, hattempts⟩ := h
  have hmem : a ∈ data := by
    rcases hattempts with rfl | ⟨b, rfl, hb⟩
    · exact ha
    · rcases List.mem_append.mp ha with ha | ha
      · exact ha
      · obtain ⟨n, -, hcomplete⟩ := hb.message
        rw [List.mem_singleton.mp ha, hcomplete] at hmsg
        cases hmsg
  have hsent : a.message ∈ sent.map Message.data := by
    rw [← hdata.messages]
    exact List.mem_map_of_mem hmem
  obtain ⟨msg', hmsg', heq⟩ := List.mem_map.mp hsent
  rw [hmsg] at heq
  cases heq
  rw [show a.exchange = dt from hdata.exchange a hmem]
  exact ⟨source, hs, hdata.ordered.subset hmsg'⟩

theorem Supplied.of_phase (h : Supplied cfg P s) (hfiles : t.files = s.files)
    (hlog : t.shared.log = s.shared.log) (hp : PhaseFrom cfg P t t.phase) : Supplied cfg P t where
  files := by
    rw [hfiles]
    exact h.files
  log := by
    rw [hlog]
    exact h.log
  phase := hp

/-- The world around the run. -/
theorem Supplied.world (h : Supplied cfg P s) (hfiles : t.files = s.files)
    (hlog : t.shared.log = s.shared.log) (hrun : t.run = s.run) (hp : t.phase = s.phase) :
    Supplied cfg P t := by
  refine h.of_phase hfiles hlog ?_
  have hphase := h.phase
  rw [hp]
  cases hs : s.phase with
  | processing dt rest source tasks =>
    rw [hs] at hphase
    obtain ⟨hmap, hsource, base, hbase, hsound, hstream⟩ := hphase
    exact ⟨hrun ▸ hmap, hsource, base, hbase, hsound.of_log hlog, hstream.of_log hlog⟩
  | looping rest =>
    rw [hs] at hphase
    change MapFrom cfg P t.run.artistDiscogsMap
    rw [hrun]
    exact hphase
  | _ => trivial

theorem filesFrom_fetched {fetched : DataType → Option (List UInt8)} {files : Files}
    (h : FilesFrom cfg P files) (hf : ∀ dt bytes, fetched dt = some bytes → P dt bytes) :
    FilesFrom cfg P (fetchMissing cfg files fetched) := by
  intro dt bytes hb
  unfold fetchMissing at hb
  split at hb
  · next hfound =>
    cases hb
    exact h dt _ hfound
  · obtain ⟨dt', hfind, hbytes⟩ := Option.bind_eq_some_iff.mp hb
    have hpath := List.find?_some hfind
    rw [← cfg.dump.path_injective (of_decide_eq_true hpath)]
    exact hf dt' bytes hbytes

theorem Supplied.fetches (h : Supplied cfg P s) {fetched : DataType → Option (List UInt8)}
    (hf : ∀ dt bytes, fetched dt = some bytes → P dt bytes)
    (ht : t.files = fetchMissing cfg s.files fetched) (hlog : t.shared.log = s.shared.log)
    (hp : PhaseFrom cfg P t t.phase) : Supplied cfg P t where
  files := by
    rw [ht]
    exact filesFrom_fetched h.files hf
  log := by
    rw [hlog]
    exact h.log
  phase := hp

theorem Supplied.saveThen (h : Supplied cfg P s) {saved : Bool} {phase : Phase}
    (hfiles : t.files = s.files) (hlog : t.shared.log = s.shared.log)
    (hp : PhaseFrom cfg P (t.saveThen true phase) phase) :
    Supplied cfg P (t.saveThen saved phase) := by
  cases saved with
  | false => exact h.of_phase hfiles hlog trivial
  | true => exact h.of_phase hfiles hlog hp

theorem Supplied.pipelineMoves (h : Supplied cfg P s) {l : Pipeline.Label} {rest : List DataType}
    {tasks : Tasks} {p : Pipeline} (hp : s.phase = .processing dt rest source tasks)
    (hm : Pipeline.step cfg.pipeline (cfg.job dt source) ⟨s.shared, tasks⟩ l = some p) :
    Supplied cfg P ({ s with
      shared := p.shared, phase := .processing dt rest source p.tasks }.settleLineage
        dt source tasks.main p.tasks.main) := by
  have hphase := h.phase
  rw [hp] at hphase
  obtain ⟨hmap, hsource, base, hbase, hsound, hstream⟩ := hphase
  have hmove := Pipeline.step_move hm
  have hsound' := Pipeline.sound_move hmove hsound
  have hstream' := Pipeline.streaming_move hmove hsound hstream
  obtain ⟨attempts, hlog, hfile⟩ := hstream'.stream
  have hgrown : LogFrom cfg P p.shared.log := by
    rw [hlog]
    exact hbase.append (logFrom_stream hsource hfile)
  unfold settleLineage
  split <;> exact ⟨h.files, hgrown, hmap, hsource, base, hbase, hsound', hstream'⟩

theorem Supplied.startsFile (h : Supplied cfg P s) {rest : List DataType}
    (hp : s.phase = .looping (dt :: rest)) (saved : Bool) :
    Supplied cfg P
      ((s.setMarker (s.shared.marker.startFileProcessing (cfg.dump.fileName dt) s.shared.now)).saveThen
        saved (.processing dt rest
          { bytes := s.files (cfg.dump.path dt), map := s.run.artistDiscogsMap }
          (Tasks.spawn cfg.pipeline))) := by
  have hmap := h.phase
  rw [hp] at hmap
  have hsource : SourceFrom cfg P dt
      { bytes := s.files (cfg.dump.path dt), map := s.run.artistDiscogsMap } :=
    ⟨fun bytes hb => h.files dt bytes hb, hmap⟩
  refine h.saveThen rfl rfl ⟨hmap, hsource, s.shared.log, h.log, ?_, ?_⟩
  · exact Pipeline.sound_start s.shared
  · exact Pipeline.streaming_start s.shared

theorem supplied_move {l : Label} (hmove : Move cfg s l t) (hl : Supplies P l)
    (h : Supplied cfg P s) : Supplied cfg P t := by
  have hphase := h.phase
  cases hmove with
  | ticks | shutdownRequested | markerLost => exact h.world rfl rfl rfl rfl
  | fileRemoved dt =>
    have hkept : FilesFrom cfg P fun path =>
        if path = cfg.dump.path dt then none else s.files path := by
      intro dt' bytes hb
      dsimp only at hb
      split at hb
      · cases hb
      · exact h.files dt' bytes hb
    exact ⟨hkept, h.log, hphase⟩
  | downloadFails | downloads => exact h.fetches hl rfl rfl trivial
  | skips | reprocesses | continues =>
    obtain ⟨marker, loaded, lineage, heq⟩ := loadMarker_eq cfg s ‹Bool›
    rw [heq]
    exact h.of_phase rfl rfl trivial
  | starts | finalises => exact h.saveThen rfl rfl trivial
  | resumeFails => exact h.of_phase rfl rfl trivial
  | resumes hp hm ht =>
    subst ht
    exact h.of_phase rfl rfl trivial
  | maps hp hmap => exact h.of_phase rfl rfl ⟨s.files, s.run.dumpFiles, h.files, hmap⟩
  | skipsFile hp =>
    rw [hp] at hphase
    exact h.of_phase rfl rfl hphase
  | startsFile hp => exact h.startsFile hp _
  | pipelineMoves hp hm => exact h.pipelineMoves hp hm
  | fileEnds hp =>
    rw [hp] at hphase
    exact h.of_phase rfl rfl hphase.1
  | announces hp =>
    refine ⟨h.files, h.log.append fun a ha msg hmsg => ?_, trivial⟩
    rw [List.mem_singleton.mp ha] at hmsg
    cases hmsg
  | crashes | begins | stops | enters | goesOn | discoverFails | findsNone | discovers | connectFails
  | connects | declareFails | declares | declaresLast | phaseOver | mapFails | loopEnds
  | loopEndsFailed | interrupted | fileFails | announced | announcingFails | reports =>
    exact h.of_phase rfl rfl trivial

theorem supplied_initial {files : Files} (h : FilesFrom cfg P files) (now : DateTime) :
    Supplied cfg P (initial cfg files now) where
  files := h
  log _ ha := by cases ha
  phase := trivial

/-- Whatever the runs are, as long as what they fetch has the property. -/
theorem supplied_run {files : Files} {now : DateTime} (hfiles : FilesFrom cfg P files)
    {labels : List Label} (hl : ∀ l ∈ labels, Supplies P l)
    (hrun : (machine cfg).run (initial cfg files now) labels = some s) : Supplied cfg P s :=
  (machine cfg).run_preserves (P := Supplied cfg P) (c := fun _ l => Supplies P l)
    (fun _ _ _ hc hs hstep => supplied_move (step_move hstep) hc hs)
    ((machine cfg).along_of_labels hl _) (supplied_initial hfiles now) hrun

end Service

end MusicbrainzIngestion
