import MusicbrainzIngestion.Pipeline.Stream
import MusicbrainzIngestion.VersionCompletion

/-! What a run puts on the exchanges, at any point of it and however it went: file after
file the stream of that file as it lay on disk, in the order of the run and no file twice, and
after the last the announcement of the version to one exchange after the other, but only when
every dump file of the run was delivered whole and its completion confirmed. -/

namespace MusicbrainzIngestion
open Base

namespace Service

variable (cfg : ServiceConfig)

/-- The first state comes before the second in one history. -/
structure Past (u s : Service) : Prop where
  reachable : (machine cfg).Reachable u
  leads : ∃ labels, (machine cfg).run u labels = some s

/-- What a file is processed from when the run takes it up now. -/
def source (s : Service) (dt : DataType) : Source where
  bytes := s.files (cfg.dump.path dt)
  map := s.run.artistDiscogsMap

end Service

open Service (Past)

/-- A file of a run: what it was processed from, and what was published of it. -/
structure FileRun where
  dataType : DataType
  source : Source
  attempts : List Attempt

/-- The files a run has taken up, `before` what was published before the run. Each was taken up
when the ones before it were over, and processed from what was on disk then. -/
inductive FilesRun (cfg : ServiceConfig) (s : Service) (before : List Attempt) :
    List FileRun → Prop
  | nil : FilesRun cfg s before []
  | snoc {files : List FileRun} {u : Service} {dt : DataType} {rest : List DataType}
      {attempts : List Attempt} (hfiles : FilesRun cfg s before files) (hpast : Past cfg u s)
      (hphase : u.phase = .looping (dt :: rest))
      (hlog : u.shared.log = before ++ files.flatMap FileRun.attempts)
      (hstream : FileStream (cfg.job dt (u.source cfg dt)) attempts) :
      FilesRun cfg s before (files ++ [⟨dt, u.source cfg dt, attempts⟩])

/-- Every file was delivered whole, and counted with the records it was delivered with. -/
def AllDelivered (cfg : ServiceConfig) (counts : Table String Nat) (files : List FileRun) : Prop :=
  ∀ file ∈ files, ∃ n, Pipeline.Delivered (cfg.job file.dataType file.source) [] file.attempts n ∧
    counts.lookup file.dataType.asStr = some n

/-- Every dump file was delivered whole in these publishes, and counted so. -/
def DumpDelivered (cfg : ServiceConfig) (counts : Table String Nat) (dumpFiles : List DataType)
    (attempts : List Attempt) : Prop :=
  ∀ dt ∈ dumpFiles, ∃ source n, FileDelivered cfg dt source n attempts ∧
    counts.lookup dt.asStr = some n

/-- The announcement of a version, the same to every exchange reached so far. Before it every dump
file of the run was delivered: the ones the run has taken up by it, the others by an earlier
run. -/
structure VersionBurst (cfg : ServiceConfig) (run : Run) (before : List Attempt)
    (files : List FileRun) (e : ExtractionCompleteMessage) (burst : List Attempt) : Prop where
  exchanges : burst.map Attempt.exchange <+: DataType.musicbrainz
  message : ∀ a ∈ burst, a.message = .extractionComplete e
  version : e.version = cfg.dump.version
  delivered : AllDelivered cfg e.recordCounts files
  complete : DumpDelivered cfg e.recordCounts run.dumpFiles
    (before ++ files.flatMap FileRun.attempts)

/-- The publishes of the run that `s` is in, or was in last. -/
def RunStream (cfg : ServiceConfig) (s : Service) (before attempts : List Attempt) : Prop :=
  ∃ files burst, attempts = files.flatMap FileRun.attempts ++ burst ∧
    (files.map FileRun.dataType).Nodup ∧
    (files.map FileRun.dataType).Sublist s.run.dumpFiles ∧
    FilesRun cfg s before files ∧ (burst = [] ∨ ∃ e, VersionBurst cfg s.run before files e burst)

/-- The publishes of the runs before, each complete in a past state of its run. -/
inductive EarlierRuns (cfg : ServiceConfig) (s : Service) : List Attempt → Prop
  | nil : EarlierRuns cfg s []
  | run {t : Service} {before attempts : List Attempt} (hbefore : EarlierRuns cfg s before)
      (hpast : Past cfg t s) (hstart : t.run.publishedBefore = before.length)
      (hlog : t.shared.log = before ++ attempts) (hrun : RunStream cfg t before attempts) :
      EarlierRuns cfg s (before ++ attempts)

section Streams
variable {cfg : ServiceConfig} {s t u : Service} {before attempts : List Attempt}
  {files : List FileRun}

theorem Service.Past.refl (h : (Service.machine cfg).Reachable s) : Past cfg s s := ⟨h, [], rfl⟩

theorem Service.Past.step {l : Service.Label} (h : Past cfg u s)
    (hstep : Service.step cfg s l = some t) : Past cfg u t := by
  obtain ⟨labels, hrun⟩ := h.leads
  exact ⟨h.reachable, labels ++ [l], (Service.machine cfg).run_snoc hrun hstep⟩

theorem FilesRun.later (h : FilesRun cfg s before files)
    (hlater : ∀ u, Past cfg u s → Past cfg u t) : FilesRun cfg t before files := by
  induction h with
  | nil => exact .nil
  | snoc _ hpast hphase hlog hstream ih => exact ih.snoc (hlater _ hpast) hphase hlog hstream

theorem FilesRun.streams (h : FilesRun cfg s before files) :
    ∀ file ∈ files, FileStream (cfg.job file.dataType file.source) file.attempts := by
  induction h with
  | nil => simp
  | snoc _ _ _ _ hstream ih =>
    intro file hf
    rcases List.mem_append.mp hf with hf | hf
    · exact ih file hf
    · rw [List.mem_singleton.mp hf]
      exact hstream

theorem RunStream.nil (cfg : ServiceConfig) (s : Service) (before : List Attempt) :
    RunStream cfg s before [] :=
  ⟨[], [], rfl, List.nodup_nil, List.nil_sublist _, .nil, .inl rfl⟩

theorem RunStream.later (h : RunStream cfg s before attempts)
    (hlater : ∀ u, Past cfg u s → Past cfg u t) (hfiles : t.run.dumpFiles = s.run.dumpFiles) :
    RunStream cfg t before attempts := by
  obtain ⟨files, burst, rfl, hnodup, hsublist, hrun, hburst⟩ := h
  refine ⟨files, burst, rfl, hnodup, hfiles ▸ hsublist, hrun.later hlater, ?_⟩
  rcases hburst with hnone | ⟨e, he⟩
  · exact .inl hnone
  · exact .inr ⟨e, he.exchanges, he.message, he.version, he.delivered, hfiles ▸ he.complete⟩

theorem EarlierRuns.later (h : EarlierRuns cfg s attempts)
    (hlater : ∀ u, Past cfg u s → Past cfg u t) : EarlierRuns cfg t attempts := by
  induction h with
  | nil => exact .nil
  | run _ hpast hstart hlog hrun ih => exact ih.run (hlater _ hpast) hstart hlog hrun

end Streams

namespace Service

variable {cfg : ServiceConfig} {s t : Service} {before : List Attempt} {files : List FileRun}

/-- The files of the run so far. -/
structure Written (cfg : ServiceConfig) (s : Service) (before : List Attempt)
    (files : List FileRun) (rest : List DataType) : Prop where
  nodup : (files.map FileRun.dataType ++ rest).Nodup
  ordered : (files.map FileRun.dataType ++ rest).Sublist s.run.dumpFiles
  streams : FilesRun cfg s before files
  delivered : s.run.success = true → AllDelivered cfg s.run.recordCounts files

/-- A file of the run is in work. -/
structure Working (cfg : ServiceConfig) (s : Service) (before : List Attempt)
    (files : List FileRun) (dt : DataType) (rest : List DataType) (source : Source)
    (tasks : Tasks) : Prop where
  written : Written cfg s before files (dt :: rest)
  taken : ∃ u, Past cfg u s ∧ u.phase = .looping (dt :: rest) ∧ u.source cfg dt = source ∧
    u.shared.log = before ++ files.flatMap FileRun.attempts
  sound : Pipeline.Sound (cfg.job dt source) (before ++ files.flatMap FileRun.attempts)
    ⟨s.shared, tasks⟩
  streaming : Pipeline.Streaming (cfg.job dt source) (before ++ files.flatMap FileRun.attempts)
    ⟨s.shared, tasks⟩

/-- What the publishes of the run are, `before` those made before it. -/
def StreamIn (cfg : ServiceConfig) (s : Service) (before current : List Attempt) : Phase → Prop
  | .entry | .downloading | .downloaded | .discovering => current = []
  | .deciding | .connecting | .declaring _ | .starting | .mapping =>
    current = [] ∧ s.run.dumpFiles.Nodup
  | .looping rest => ∃ files, current = files.flatMap FileRun.attempts ∧
    Written cfg s before files rest
  | .processing dt rest source tasks => ∃ files, Working cfg s before files dt rest source tasks
  | .announcing e rest _ => ∃ files burst, current = files.flatMap FileRun.attempts ++ burst ∧
    Written cfg s before files [] ∧ s.run.success = true ∧ e.version = cfg.dump.version ∧
    e.recordCounts = s.run.recordCounts ∧
    DumpDelivered cfg e.recordCounts s.run.dumpFiles (before ++ files.flatMap FileRun.attempts) ∧
    (∀ a ∈ burst, a.message = .extractionComplete e) ∧
    burst.map Attempt.exchange ++ rest = DataType.musicbrainz
  | .idle | .finalising | .reporting => RunStream cfg s before current

def StreamOk (cfg : ServiceConfig) (s : Service) : Prop :=
  ∃ before current, (EarlierRuns cfg s before ∧ before.length = s.run.publishedBefore) ∧
    s.shared.log = before ++ current ∧ StreamIn cfg s before current s.phase

/-! ## In every phase the publishes are those of a run -/

theorem Written.runStream {rest : List DataType} (h : Written cfg s before files rest) :
    RunStream cfg s before (files.flatMap FileRun.attempts) :=
  ⟨files, [], (List.append_nil _).symm, h.nodup.of_append_left,
    (List.sublist_append_left _ _).trans h.ordered, h.streams, .inl rfl⟩

/-- The counts are not looked at unless the run succeeds. -/
theorem Written.later {rest : List DataType} (h : Written cfg s before files rest)
    (hlater : ∀ u, Past cfg u s → Past cfg u t) (hfiles : t.run.dumpFiles = s.run.dumpFiles)
    (hsuccess : t.run.success = s.run.success) (hcounts : t.run.recordCounts = s.run.recordCounts) :
    Written cfg t before files rest where
  nodup := h.nodup
  ordered := hfiles ▸ h.ordered
  streams := h.streams.later hlater
  delivered := by
    rw [hsuccess, hcounts]
    exact h.delivered

/-- The file in work adds its stream. -/
theorem Working.snoc {dt : DataType} {rest : List DataType} {source : Source} {tasks : Tasks}
    {attempts : List Attempt} (h : Working cfg s before files dt rest source tasks)
    (hs : FileStream (cfg.job dt source) attempts) :
    FilesRun cfg s before (files ++ [⟨dt, source, attempts⟩]) := by
  obtain ⟨u, hpast, hphase, rfl, hlog⟩ := h.taken
  exact h.written.streams.snoc hpast hphase hlog hs

theorem map_snoc (files : List FileRun) (dt : DataType) (source : Source) (attempts : List Attempt)
    (rest : List DataType) :
    (files ++ [FileRun.mk dt source attempts]).map FileRun.dataType ++ rest =
      files.map FileRun.dataType ++ dt :: rest := by
  simp

theorem streamIn_runStream {current : List Attempt} {phase : Phase}
    (hlog : s.shared.log = before ++ current) (h : StreamIn cfg s before current phase) :
    RunStream cfg s before current := by
  cases phase with
  | entry | downloading | downloaded | discovering =>
    rw [show current = [] from h]
    exact .nil cfg s before
  | deciding | connecting | declaring | starting | mapping =>
    rw [h.1]
    exact .nil cfg s before
  | looping rest =>
    obtain ⟨files, rfl, hw⟩ := h
    exact hw.runStream
  | processing dt rest source tasks =>
    obtain ⟨files, hw⟩ := h
    obtain ⟨attempts, hl, hstream⟩ := hw.streaming.stream
    have hcurrent : current = files.flatMap FileRun.attempts ++ attempts := by
      rw [show s.shared.log = before ++ files.flatMap FileRun.attempts ++ attempts from hl,
        List.append_assoc] at hlog
      exact (List.append_cancel_left hlog).symm
    have hnodup := hw.written.nodup
    have hordered := hw.written.ordered
    rw [← map_snoc files dt source attempts rest] at hnodup hordered
    refine ⟨files ++ [⟨dt, source, attempts⟩], [], ?_, hnodup.of_append_left,
      (List.sublist_append_left _ _).trans hordered, hw.snoc hstream, .inl rfl⟩
    rw [hcurrent]
    simp
  | announcing e rest errors =>
    obtain ⟨files, burst, rfl, hw, hsuccess, hversion, hcounts, hcomplete, hmessage, hexchanges⟩ := h
    refine ⟨files, burst, rfl, hw.nodup.of_append_left,
      (List.sublist_append_left _ _).trans hw.ordered, hw.streams,
      .inr ⟨e, ⟨_, hexchanges⟩, hmessage, hversion, ?_, hcomplete⟩⟩
    rw [hcounts]
    exact hw.delivered hsuccess
  | idle | finalising | reporting => exact h

/-! ## Every step keeps it -/

theorem StreamOk.goesOn (h : StreamOk cfg s) (hlater : ∀ u, Past cfg u s → Past cfg u t)
    {phase : Phase} (hp : s.phase = phase) (hlog : t.shared.log = s.shared.log)
    (hbefore : t.run.publishedBefore = s.run.publishedBefore)
    (hphase : ∀ before current, s.shared.log = before ++ current →
      StreamIn cfg s before current phase → StreamIn cfg t before current t.phase) :
    StreamOk cfg t := by
  obtain ⟨before, current, ⟨hearlier, hlen⟩, hsplit, hs⟩ := h
  exact ⟨before, current, ⟨hearlier.later hlater, hlen.trans hbefore.symm⟩, hlog.trans hsplit,
    hphase before current hsplit (hp ▸ hs)⟩

/-- The next run begins behind all the publishes so far. -/
theorem StreamOk.earlier (h : StreamOk cfg s) (hreach : (machine cfg).Reachable s)
    (hlater : ∀ u, Past cfg u s → Past cfg u t) : EarlierRuns cfg t s.shared.log := by
  obtain ⟨before, current, ⟨hearlier, hlen⟩, hsplit, hin⟩ := h
  have hrun := streamIn_runStream hsplit hin
  rw [hsplit]
  exact (hearlier.later hlater).run (hlater s (.refl hreach)) hlen.symm hsplit hrun

/-- The publishes of the run are over. -/
theorem StreamOk.closes (h : StreamOk cfg s) (hlater : ∀ u, Past cfg u s → Past cfg u t)
    (hlog : t.shared.log = s.shared.log)
    (hbefore : t.run.publishedBefore = s.run.publishedBefore)
    (hfiles : t.run.dumpFiles = s.run.dumpFiles)
    (hp : t.phase = .idle ∨ t.phase = .finalising ∨ t.phase = .reporting) : StreamOk cfg t := by
  refine h.goesOn hlater rfl hlog hbefore fun before current hsplit hs => ?_
  have hstream := (streamIn_runStream hsplit hs).later hlater hfiles
  rcases hp with hp | hp | hp <;> rw [hp] <;> exact hstream

theorem StreamOk.saveThen (h : StreamOk cfg s) {saved : Bool} {phase : Phase}
    (hlater : ∀ u, Past cfg u s → Past cfg u (t.saveThen saved phase))
    (hlog : t.shared.log = s.shared.log) (hbefore : t.run.publishedBefore = s.run.publishedBefore)
    (hfiles : t.run.dumpFiles = s.run.dumpFiles)
    (hphase : (∀ u, Past cfg u s → Past cfg u (t.saveThen true phase)) →
      StreamOk cfg (t.saveThen true phase)) :
    StreamOk cfg (t.saveThen saved phase) := by
  cases saved with
  | false => exact h.closes hlater hlog hbefore hfiles (.inl rfl)
  | true => exact hphase hlater

/-- What the world around the run does. -/
theorem StreamOk.world (h : StreamOk cfg s) (hlater : ∀ u, Past cfg u s → Past cfg u t)
    (hlog : t.shared.log = s.shared.log) (hrun : t.run = s.run) (hp : t.phase = s.phase) :
    StreamOk cfg t := by
  refine h.goesOn hlater rfl hlog (by rw [hrun]) fun before current hsplit hs => ?_
  have hfiles : t.run.dumpFiles = s.run.dumpFiles := by rw [hrun]
  have hwritten : ∀ {files rest}, Written cfg s before files rest → Written cfg t before files rest :=
    fun hw => hw.later hlater hfiles (by rw [hrun]) (by rw [hrun])
  rw [hp]
  cases hphase : s.phase with
  | entry | downloading | downloaded | discovering =>
    rw [hphase] at hs
    exact hs
  | deciding | connecting | declaring | starting | mapping =>
    rw [hphase] at hs
    exact ⟨hs.1, hfiles ▸ hs.2⟩
  | looping rest =>
    rw [hphase] at hs
    obtain ⟨files, hcurrent, hw⟩ := hs
    exact ⟨files, hcurrent, hwritten hw⟩
  | processing dt rest source tasks =>
    rw [hphase] at hs
    obtain ⟨files, hw, ⟨u, hpast, htaken⟩, hsound, hst⟩ := hs
    exact ⟨files, hwritten hw, ⟨u, hlater u hpast, htaken⟩, hsound.of_log hlog, hst.of_log hlog⟩
  | announcing e rest errors =>
    rw [hphase] at hs
    obtain ⟨files, burst, hcurrent, hw, hs⟩ := hs
    refine ⟨files, burst, hcurrent, hwritten hw, ?_⟩
    rw [hrun]
    exact hs
  | idle | finalising | reporting =>
    rw [hphase] at hs
    exact RunStream.later hs hlater hfiles

/-- The count of a file that is none of these leaves their counts as they were. -/
theorem allDelivered_insert {counts : Table String Nat} (h : AllDelivered cfg counts files)
    {dt : DataType} (hdt : dt ∉ files.map FileRun.dataType) (n : Nat) :
    AllDelivered cfg (counts.insert dt.asStr n) files := by
  intro file hf
  obtain ⟨m, hd, hm⟩ := h file hf
  refine ⟨m, hd, ?_⟩
  rw [AList.lookup_insert_ne fun hk => hdt ?_]
  · exact hm
  · rw [← DataType.asStr_injective hk]
    exact List.mem_map_of_mem hf

theorem Written.notMem {dt : DataType} {rest : List DataType}
    (h : Written cfg s before files (dt :: rest)) : dt ∉ files.map FileRun.dataType := fun hmem =>
  List.disjoint_of_nodup_append h.nodup hmem List.mem_cons_self

/-- The file in work is over, and counted with what it was announced with. -/
theorem Working.finish {dt : DataType} {rest : List DataType} {source : Source} {tasks : Tasks}
    {attempts : List Attempt} {fileSuccess : Bool} {n : Nat}
    (h : Working cfg s before files dt rest source tasks)
    (hm : fileSuccess = true → tasks.main.succeeded = some n)
    (hlog : s.shared.log = before ++ files.flatMap FileRun.attempts ++ attempts)
    (hstream : FileStream (cfg.job dt source) attempts)
    (hlater : ∀ u, Past cfg u s → Past cfg u t) (hfiles : t.run.dumpFiles = s.run.dumpFiles)
    (hsuccess : t.run.success = true → s.run.success = true ∧ fileSuccess = true)
    (hcounts : t.run.recordCounts = s.run.recordCounts.insert dt.asStr n) :
    Written cfg t before (files ++ [⟨dt, source, attempts⟩]) rest where
  nodup := by
    rw [map_snoc]
    exact h.written.nodup
  ordered := by
    rw [map_snoc, hfiles]
    exact h.written.ordered
  streams := (h.snoc hstream).later hlater
  delivered hrun := by
    obtain ⟨hbefore, rfl⟩ := hsuccess hrun
    have hdelivered := (h.sound.announced n (hm rfl)).1
    rw [show (Pipeline.mk s.shared tasks).shared.log = _ from hlog] at hdelivered
    rw [hcounts]
    intro file hf
    rcases List.mem_append.mp hf with hf | hf
    · exact allDelivered_insert (h.written.delivered hbefore) h.written.notMem n file hf
    · rw [List.mem_singleton.mp hf]
      exact ⟨n, Pipeline.Delivered.own hdelivered, AList.lookup_insert _⟩

/-- At the end of the files every one of them was delivered, by this run or before it. -/
theorem dumpDelivered_of_inv (hinv : Inv cfg s) (hp : s.phase = .looping [])
    (hsuccess : s.run.success = true) :
    DumpDelivered cfg s.run.recordCounts s.run.dumpFiles s.shared.log := by
  have hphase := hinv.phase
  simp only [PhaseOk, hp] at hphase
  intro dt hdt
  obtain ⟨n, hmarked, hcount, -⟩ := hphase.1.counted.done hsuccess dt hdt List.not_mem_nil
  obtain ⟨source, -, hdelivered⟩ := hphase.1.lineage.recorded dt n hmarked
  exact ⟨source, n, hdelivered.mono (List.drop_suffix _ _).isInfix, hcount⟩

theorem streamOk_move {l : Label} (h : Move cfg s l t) (hreach : (machine cfg).Reachable s)
    (hlater : ∀ u, Past cfg u s → Past cfg u t) (hs : StreamOk cfg s) : StreamOk cfg t := by
  cases h with
  | ticks | markerLost | shutdownRequested | fileRemoved => exact hs.world hlater rfl rfl rfl
  | crashes => exact hs.closes hlater rfl rfl rfl (.inl rfl)
  | begins hp =>
    exact ⟨s.shared.log, [], ⟨hs.earlier hreach hlater, rfl⟩, (List.append_nil _).symm, rfl⟩
  | stops | downloadFails | discoverFails | findsNone | connectFails | declareFails
  | mapFails | fileFails | reports => exact hs.closes hlater rfl rfl rfl (.inl rfl)
  | loopEndsFailed | interrupted | announced | announcingFails =>
    exact hs.closes hlater rfl rfl rfl (.inr (.inl rfl))
  | enters hp | goesOn hp | downloads hp | connects hp | declares hp | declaresLast hp
  | phaseOver hp => exact hs.goesOn hlater hp rfl rfl fun _ _ _ h => h
  | discovers hp hperm hsome =>
    refine hs.goesOn hlater hp rfl rfl fun before current _ h => ⟨h, ?_⟩
    exact hperm.nodup_iff.mpr (DataType.nodup_musicbrainz.filter _)
  | skips hp hd =>
    obtain ⟨marker, loaded, lineage, heq⟩ := loadMarker_eq cfg s ‹Bool›
    rw [heq] at hlater ⊢
    exact hs.closes hlater rfl rfl rfl (.inl rfl)
  | reprocesses hp hd | continues hp hd =>
    obtain ⟨marker, loaded, lineage, heq⟩ := loadMarker_eq cfg s ‹Bool›
    rw [heq] at hlater ⊢
    exact hs.goesOn hlater hp rfl rfl fun before current _ h => h
  | starts hp hm =>
    exact hs.saveThen hlater rfl rfl rfl fun hlater =>
      hs.goesOn hlater hp rfl rfl fun _ _ _ h => h
  | resumeFails hp hm => exact hs.closes hlater rfl rfl rfl (.inl rfl)
  | resumes hp hm ht =>
    subst ht
    exact hs.goesOn hlater hp rfl rfl fun _ _ _ h => h
  | maps hp hmap =>
    refine hs.goesOn hlater hp rfl rfl fun before current _ h => ⟨[], h.1, ?_⟩
    exact ⟨h.2, List.Sublist.refl _, .nil, by simp [AllDelivered]⟩
  | loopEnds hp hsuccess =>
    refine hs.goesOn hlater hp rfl rfl fun before current hsplit h => ?_
    obtain ⟨files, hcurrent, hw⟩ := h
    have hcomplete := dumpDelivered_of_inv (inv_reachable hreach) hp hsuccess
    rw [hsplit, hcurrent] at hcomplete
    exact ⟨files, [], by rw [hcurrent, List.append_nil], hw.later hlater rfl rfl rfl, hsuccess, rfl,
      rfl, hcomplete, by simp, rfl⟩
  | @skipsFile _ dt rest records hp hstop hc =>
    refine hs.goesOn hlater hp rfl rfl fun before current _ h => ?_
    obtain ⟨files, hcurrent, hw⟩ := h
    have hrest : (files.map FileRun.dataType ++ rest).Sublist
        (files.map FileRun.dataType ++ dt :: rest) :=
      List.Sublist.append_left (List.sublist_cons_self _ _) _
    exact ⟨files, hcurrent, hw.nodup.sublist hrest, hrest.trans hw.ordered, hw.streams.later hlater,
      fun hsuccess => allDelivered_insert (hw.delivered hsuccess) hw.notMem records⟩
  | @startsFile saved dt rest hp hstop hc =>
    refine hs.saveThen hlater rfl rfl rfl fun hlater =>
      hs.goesOn hlater hp rfl rfl fun before current hsplit h => ?_
    obtain ⟨files, hcurrent, hw⟩ := h
    rw [hcurrent] at hsplit
    refine ⟨files, hw.later hlater rfl rfl rfl, ⟨s, hlater s (.refl hreach), hp, rfl, hsplit⟩, ?_, ?_⟩
    · rw [← hsplit]
      exact Pipeline.sound_start s.shared
    · rw [← hsplit]
      exact Pipeline.streaming_start s.shared
  | @pipelineMoves l dt rest source tasks p hp hm =>
    obtain ⟨before, current, ⟨hearlier, hlen⟩, hsplit, h⟩ := hs
    rw [hp] at h
    obtain ⟨files, hw, ⟨u, hpast, htaken⟩, hsound, hst⟩ := h
    have hmove := Pipeline.step_move hm
    have hsound' := Pipeline.sound_move hmove hsound
    have hst' := Pipeline.streaming_move hmove hsound hst
    obtain ⟨attempts, hlog, -⟩ := hst'.stream
    rw [List.append_assoc] at hlog
    refine ⟨before, files.flatMap FileRun.attempts ++ attempts, ?_⟩
    unfold settleLineage at hlater ⊢
    split at hlater <;>
      exact ⟨⟨hearlier.later hlater, hlen⟩, hlog, files, hw.later hlater rfl rfl rfl,
        ⟨u, hlater u hpast, htaken⟩, hsound', hst'⟩
  | @fileEnds dt rest source tasks fileSuccess n hp hm =>
    obtain ⟨before, current, ⟨hearlier, hlen⟩, hsplit, h⟩ := hs
    rw [hp] at h
    obtain ⟨files, hw⟩ := h
    obtain ⟨attempts, hlog, hstream⟩ := hw.streaming.stream
    exact ⟨before, files.flatMap FileRun.attempts ++ attempts, ⟨hearlier.later hlater, hlen⟩,
      by rw [← List.append_assoc]; exact hlog, files ++ [⟨dt, source, attempts⟩], by simp,
      hw.finish (fun hfile => by rw [hm, hfile]; rfl) hlog hstream hlater rfl
        (fun hsuccess => Bool.and_eq_true_iff.mp hsuccess) rfl⟩
  | @announces reply e dt rest errors hp =>
    obtain ⟨before, current, ⟨hearlier, hlen⟩, hsplit, h⟩ := hs
    rw [hp] at h
    obtain ⟨files, burst, hcurrent, hw, hsuccess, hversion, hcounts, hcomplete, hmessage,
      hexchanges⟩ := h
    refine ⟨before, current ++ [⟨dt, .extractionComplete e, reply, s.shared.now⟩],
      ⟨hearlier.later hlater, hlen⟩, ?_, files,
      burst ++ [⟨dt, .extractionComplete e, reply, s.shared.now⟩], ?_,
      hw.later hlater rfl rfl rfl, hsuccess, hversion, hcounts, hcomplete, ?_, ?_⟩
    · simp only [Shared.publish, hsplit, List.append_assoc]
    · rw [hcurrent, List.append_assoc]
    · intro a ha
      rcases List.mem_append.mp ha with ha | ha
      · exact hmessage a ha
      · rw [List.mem_singleton.mp ha]
    · simpa using hexchanges
  | finalises hp =>
    exact hs.saveThen hlater rfl rfl rfl fun hlater =>
      hs.closes hlater rfl rfl rfl (.inr (.inr rfl))

theorem streamOk_of_reachable (h : (machine cfg).Reachable s) : StreamOk cfg s := by
  refine (Machine.ReachableBy.invariant (P := fun s => (machine cfg).Reachable s ∧ StreamOk cfg s)
    ?_ (fun s l t _ hs hstep => ⟨hs.1.step trivial hstep, ?_⟩) h).2
  · rintro s ⟨files, now, rfl⟩
    exact ⟨⟨_, [], ⟨files, now, rfl⟩, fun _ _ => trivial, rfl⟩, [], [], ⟨.nil, rfl⟩, rfl,
      .nil cfg _ []⟩
  · exact streamOk_move (step_move hstep) hs.1 (fun u hu => hu.step hstep) hs.2

end Service

end MusicbrainzIngestion
