import MusicbrainzIngestion.Service.InFile
import MusicbrainzIngestion.Service.Moves

/-! The invariant of every run of the service, and that each step keeps it: the marker on
disk is backed by the publishes, no completed file is published again, and each phase
has what it promised. -/

namespace MusicbrainzIngestion
open Base

variable {cfg : ServiceConfig} {sh : Shared}

/-! ## Choosing and starting -/

/-- The download phase is never left open by this program, so nothing is reprocessed; and a
marker that is not skipped is not finished. -/
theorem LineageOk.decides {l : Lineage} {now : DateTime} {log : List Attempt} {m : StateMarker}
    (h : LineageOk cfg l now log m) :
    m.shouldProcess ≠ .reprocess ∧
      (m.shouldProcess = .continue → m.summary.overallStatus ≠ .completed) := by
  unfold StateMarker.shouldProcess
  rw [h.download, if_neg (by simp), if_neg h.running]
  split
  · next hrunning =>
    refine ⟨by simp, fun _ hc => ?_⟩
    rw [h.overall.mp hc] at hrunning
    cases hrunning
  · split
    · exact ⟨by simp, fun hc => nomatch hc⟩
    · next hopen => exact ⟨by simp, fun _ => hopen⟩

theorem Service.rehydrateFile_get (m : StateMarker) (progress : ExtractionProgress)
    (d dt : DataType) : (Service.rehydrateFile cfg m progress d).get dt = progress.get dt +
      if d = dt then (m.completedRecords (cfg.dump.fileName d)).getD 0 else 0 := by
  unfold Service.rehydrateFile
  cases m.completedRecords (cfg.dump.fileName d) with
  | none => simp
  | some records => exact ExtractionProgress.get_add progress d dt records

/-- Each file that was completed before counts with its records. -/
theorem Service.rehydrate_get (m : StateMarker) {files : List DataType} (hn : files.Nodup)
    (progress : ExtractionProgress) (dt : DataType) :
    (Service.rehydrate cfg m progress files).get dt = progress.get dt +
      if dt ∈ files then (m.completedRecords (cfg.dump.fileName dt)).getD 0 else 0 := by
  induction files generalizing progress with
  | nil => rfl
  | cons d files ih =>
    obtain ⟨hnot, hn⟩ := List.nodup_cons.mp hn
    have hfold : Service.rehydrate cfg m progress (d :: files) =
        Service.rehydrate cfg m (Service.rehydrateFile cfg m progress d) files := rfl
    rw [hfold, ih hn, Service.rehydrateFile_get]
    by_cases hd : d = dt
    · subst hd
      rw [if_pos rfl, if_neg hnot, if_pos List.mem_cons_self]
      rfl
    · have hmem : dt ∈ d :: files ↔ dt ∈ files := by simp [Ne.symm hd]
      rw [if_neg hd]
      simp only [hmem]
      rfl

/-- The first file of a run is next, with the tally as the marker has it. -/
theorem Counted.first {run run' : Run} {sh : Shared} (hfiles : run'.dumpFiles = run.dumpFiles)
    (hn : run.dumpFiles.Nodup) (hcounts : run'.recordCounts = ∅)
    (htodo : ∀ dt ∈ run.dumpFiles, sh.progress.get dt =
      (sh.marker.completedRecords (cfg.dump.fileName dt)).getD 0) :
    Counted cfg run' sh run'.dumpFiles where
  suffix := List.suffix_refl _
  nodup := by rw [hfiles]; exact hn
  todo := by rw [hfiles]; exact htodo
  done _ dt hdt hnot := absurd hdt hnot
  keys k hk := by
    rw [hcounts] at hk
    exact absurd hk (AList.notMem_empty k)

/-- A marker that was not skipped is pending or in progress. -/
theorem Ready.not_over {run : Run} {sh : Shared} (h : Ready cfg run sh)
    (hpending : sh.marker.processingPhase.status ≠ .pending)
    (hrunning : sh.marker.processingPhase.status ≠ .inProgress) : False := by
  cases hstatus : sh.marker.processingPhase.status with
  | pending => exact hpending hstatus
  | inProgress => exact hrunning hstatus
  | completed => exact h.unfinished (h.lineage.overall.mpr hstatus)
  | failed => exact h.lineage.running hstatus

/-- Processing is started, in a lineage that has not started it. -/
theorem Ready.startProcessing {run : Run} {sh : Shared} (h : Ready cfg run sh) (run' : Run)
    (hfresh : run.lineage.started = none) (count : Nat)
    (hbegun : run'.processingStartedAt = sh.now) (hloaded : run'.loaded = run.loaded)
    (hbefore : run'.publishedBefore = run.publishedBefore) (hfiles : run'.dumpFiles = run.dumpFiles)
    (hcounts : run'.recordCounts = run.recordCounts) :
    Between cfg { run.lineage with started := some sh.now } run'
      { sh with marker := sh.marker.startProcessing count sh.now } run'.dumpFiles where
  lineage := h.lineage.startProcessing hfresh count
  running := rfl
  begun := congrArg some hbegun.symm
  resumed := by
    unfold Resumed
    rw [hloaded]
    exact h.resumed
  unrepeated := ⟨by rw [hbefore]; exact h.unrepeated.before, by
    rw [hbefore, hloaded]; exact h.unrepeated.skipped⟩
  counted := .first hfiles h.nodup (hcounts.trans h.uncounted) fun dt _ => by
    have hnone : (sh.marker.startProcessing count sh.now).completedRecords (cfg.dump.fileName dt) =
        none := by
      rw [StateMarker.completedRecords, StateMarker.progress_startProcessing,
        (h.lineage.fresh hfresh).2]
      rfl
    rw [hnone, h.untold]
    exact ExtractionProgress.get_default dt

/-- Processing is resumed, the tally rehydrated. -/
theorem Ready.resume {run : Run} {sh : Shared} {m : StateMarker} (h : Ready cfg run sh) (run' : Run)
    (hm : StateMarker.Agrees sh.marker m) (hs : (∃ f, m.fileStarted f) ∨ m.Tallied)
    (hrunning : sh.marker.processingPhase.status = .inProgress)
    (hbegun : run.lineage.started = some run'.processingStartedAt)
    (hloaded : run'.loaded = run.loaded) (hbefore : run'.publishedBefore = run.publishedBefore)
    (hfiles : run'.dumpFiles = run.dumpFiles) (hcounts : run'.recordCounts = run.recordCounts) :
    Between cfg run.lineage run'
      { sh with marker := m, progress := Service.rehydrate cfg m sh.progress run.dumpFiles }
      run'.dumpFiles where
  lineage := h.lineage.agrees hm hs
  running := hm.processing.trans hrunning
  begun := hbegun
  resumed := fun loaded hl f hf => by
    rw [hm.completed]
    exact h.resumed loaded (hloaded ▸ hl) f hf
  unrepeated := ⟨by rw [hbefore]; exact h.unrepeated.before, by
    rw [hbefore, hloaded]; exact h.unrepeated.skipped⟩
  counted := .first hfiles h.nodup (hcounts.trans h.uncounted) fun dt hdt => by
    rw [Service.rehydrate_get m h.nodup, if_pos hdt, h.untold, ExtractionProgress.get_default]
    exact Nat.zero_add _

theorem Between.stamped {l : Lineage} {run : Run} {rest : List DataType}
    (h : Between cfg l run sh rest) (saved : Bool) : Between cfg l run (sh.save saved) rest where
  lineage := h.lineage.stamped _
  running := h.running
  begun := h.begun
  resumed := h.resumed
  unrepeated := h.unrepeated
  counted := ⟨h.counted.suffix, h.counted.nodup, h.counted.todo, h.counted.done, h.counted.keys⟩

/-! ## Announcing -/

/-- At the end of the files, what was counted is what the marker shows. -/
theorem Counted.all {run : Run} (h : Counted cfg run sh []) (hs : run.success = true)
    {dt : DataType} {n : Nat} (hn : run.recordCounts.lookup dt.asStr = some n) :
    sh.marker.completedRecords (cfg.dump.fileName dt) = some n ∧ sh.progress.get dt = n := by
  obtain ⟨dt', hmem, hkey⟩ := h.keys _ (AList.lookup_isSome.mp (by rw [hn]; rfl))
  have heq := DataType.asStr_injective hkey
  subst heq
  obtain ⟨k, hk, hcount, htally⟩ := h.done hs dt hmem List.not_mem_nil
  rw [hn] at hcount
  cases hcount
  exact ⟨hk, htally⟩

theorem Announcing.first {s : Service} (hb : Between cfg s.run.lineage s.run s.shared [])
    (hs : s.run.success = true) :
    Announcing cfg s.run s.shared (s.extractionComplete cfg) DataType.musicbrainz [] where
  between := hb
  success := hs
  version := rfl
  started := rfl
  counts := rfl
  split := ⟨s.shared.log, [], (List.append_nil _).symm, hb.lineage.since, hb.unrepeated.before,
    hb.lineage.recorded, rfl, fun _ ha => nomatch ha⟩

theorem VersionAnnounced.of_announcing {run : Run} {e : ExtractionCompleteMessage}
    (h : Announcing cfg run sh e [] []) :
    VersionAnnounced cfg run.lineage sh.marker (sh.log.drop run.lineage.since) e := by
  obtain ⟨before, burst, hlog, hsince, -, hrec, hexch, hall⟩ := h.split
  refine ⟨h.version, by rw [h.started]; exact h.between.begun, fun dt n hn => ?_,
    before.drop run.lineage.since, burst, [], ?_, hrec, by simpa using hexch,
    fun a ha => ⟨(hall a ha).2 rfl, (hall a ha).1⟩⟩
  · rw [h.counts] at hn
    exact (h.between.counted.all h.success hn).1
  · rw [hlog, List.drop_append_of_le_length hsince, List.append_nil]

theorem Announcing.publish {run : Run} {e : ExtractionCompleteMessage} {dt : DataType}
    {rest : List DataType} {errors errors' : List String}
    (h : Announcing cfg run sh e (dt :: rest) errors) (reply : Reply)
    (herrors : errors' = [] → errors = [] ∧ reply.delivered = true) :
    Announcing cfg run (sh.publish dt (.extractionComplete e) reply) e rest errors' := by
  obtain ⟨before, burst, hlog, hsince, hbefore, hrec, hexch, hall⟩ := h.split
  have hb := h.between
  have hone : ∀ a ∈ [(⟨dt, .extractionComplete e, reply, sh.now⟩ : Attempt)], sh.now ≤ a.time := by
    simp
  refine ⟨⟨?_, hb.running, hb.begun, hb.resumed, ⟨?_, ?_⟩, hb.counted.congr rfl rfl⟩, h.success,
    h.version, h.started, h.counts, before, burst ++ [⟨dt, .extractionComplete e, reply, sh.now⟩],
    ?_, hsince, hbefore, hrec, ?_, ?_⟩
  · exact hb.lineage.grow (Nat.le_refl _) hone (Or.inl hb.isSome)
  · exact le_trans hb.unrepeated.before (by simp [Shared.publish])
  · intro loaded hl a ha hdata
    rw [Shared.publish, List.drop_append_of_le_length hb.unrepeated.before] at ha
    rcases List.mem_append.mp ha with ha | ha
    · exact hb.unrepeated.skipped loaded hl a ha hdata
    · rw [List.mem_singleton.mp ha] at hdata
      cases hdata
  · rw [Shared.publish, hlog, List.append_assoc]
  · rw [List.map_append, List.append_assoc]
    exact hexch
  · intro a ha
    rcases List.mem_append.mp ha with ha | ha
    · exact ⟨(hall a ha).1, fun hn => (hall a ha).2 (herrors hn).1⟩
    · rw [List.mem_singleton.mp ha]
      exact ⟨rfl, fun hn => (herrors hn).2⟩

namespace Service

structure Inv (cfg : ServiceConfig) (s : Service) : Prop where
  disk : DiskOk cfg s
  unrepeated : Unrepeated cfg s.run s.shared.log
  phase : PhaseOk cfg s

variable {s t : Service}

/-! ## Endings, saves and the surroundings -/

theorem Inv.finish (h : Inv cfg s) (outcome : Except Error Bool) : Inv cfg (s.finish outcome) :=
  ⟨h.disk, h.unrepeated, trivial⟩

/-- A save of a marker that the publishes back. -/
theorem Inv.saveThen {phase : Phase} (hd : DiskOk cfg s)
    (hu : Unrepeated cfg s.run s.shared.log)
    (hl : LineageOk cfg s.run.lineage s.shared.now s.shared.log s.shared.marker)
    (hs : s.run.lineage.started.isSome = true)
    {saved : Bool} (hp : saved = true → PhaseOk cfg { s with
      shared := s.shared.save true, diskLineage := s.run.lineage, phase := phase }) :
    Inv cfg (s.saveThen saved phase) := by
  cases saved with
  | false => exact ⟨hd, hu, trivial⟩
  | true =>
    refine ⟨fun m hm => ?_, hu, hp rfl⟩
    cases hm
    exact ⟨hl.stamped _, hs⟩

/-- What happens around the program: time passes, the marker on disk is lost, shutdown is
requested, files disappear. -/
theorem Inv.later (h : Inv cfg s) (hl : Shared.Later s.shared t.shared) (hrun : t.run = s.run)
    (hdisk : t.diskLineage = s.diskLineage) (hphase : t.phase = s.phase) : Inv cfg t where
  disk m hm := by
    obtain ⟨hline, hs⟩ := h.disk m (hl.disk m hm)
    rw [hdisk]
    exact ⟨hline.later hl, hs⟩
  unrepeated := by
    rw [hl.log, hrun]
    exact h.unrepeated
  phase := by
    have hp := h.phase
    unfold PhaseOk at hp ⊢
    rw [hphase]
    cases hs : s.phase with
    | idle | reporting => trivial
    | entry =>
      rw [hs] at hp
      rw [hl.log, hrun]
      exact hp
    | downloading | downloaded | discovering | deciding =>
      rw [hs] at hp
      rw [hl.log, hl.progress, hrun]
      exact hp
    | connecting | declaring | starting =>
      rw [hs] at hp
      rw [hrun]
      exact Ready.later hp hl
    | mapping | looping =>
      rw [hs] at hp
      rw [hrun, hdisk]
      exact ⟨Between.later hp.1 hl, hp.2⟩
    | processing dt rest source tasks =>
      rw [hs] at hp
      obtain ⟨s₁, l, hf⟩ := hp
      exact ⟨s₁, l, hrun ▸ hf.before, hf.pending, hf.pipeline.later hl, hrun ▸ hf.lineage,
        hdisk ▸ hf.disk⟩
    | announcing =>
      rw [hs] at hp
      rw [hrun, hdisk]
      exact ⟨Announcing.later hp.1 hl, hp.2⟩
    | finalising =>
      rw [hs] at hp
      obtain ⟨⟨rest, hb⟩, hd, ha⟩ := hp
      rw [hrun, hdisk]
      exact ⟨⟨rest, hb.later hl⟩, hd, fun hs => (ha hs).imp fun _ ha => ha.later hl⟩

/-! ## Before the files -/

/-- The marker a run decides on: it is never to be reprocessed, and one that is not skipped is
ready to be processed. -/
theorem Inv.loadMarker (h : Inv cfg s) (hp : s.phase = .deciding) (readable : Bool) :
    let t := s.loadMarker cfg readable
    DiskOk cfg t ∧ Unrepeated cfg t.run t.shared.log ∧
      t.shared.marker.shouldProcess ≠ .reprocess ∧
      (t.shared.marker.shouldProcess = .continue → Ready cfg t.run t.shared) := by
  have hphase := h.phase
  simp only [PhaseOk, hp] at hphase
  obtain ⟨huntouched, huncounted, huntold, hnodup⟩ := hphase
  have hnothing : ∀ run : Run, run.publishedBefore = s.run.publishedBefore →
      Unrepeated cfg run s.shared.log := fun run hrun =>
    ⟨by rw [hrun]; exact h.unrepeated.before, fun _ _ a ha => by
      rw [hrun, huntouched.unpublished, List.drop_length] at ha
      cases ha⟩
  have hfresh : ∀ loaded, s.run.loaded ≠ some loaded := fun loaded hl => by
    rw [huntouched.unread] at hl
    cases hl
  have hnew : LineageOk cfg _ _ _ _ := .new cfg.dump.version s.shared.now s.shared.now s.shared.log
  unfold Service.loadMarker
  dsimp only
  split
  · exact ⟨h.disk, hnothing _ rfl, hnew.decides.1, fun hc =>
      ⟨hnew, hnew.decides.2 hc, fun loaded hl => absurd hl (hfresh loaded), hnothing _ rfl,
        huntold, huncounted, hnodup⟩⟩
  · split
    · next _ m hm =>
      have hline := (h.disk m hm).1
      refine ⟨h.disk, hnothing _ rfl, hline.decides.1, fun hc =>
        ⟨hline, hline.decides.2 hc, fun loaded hl f hf => ?_, hnothing _ rfl, huntold, huncounted,
          hnodup⟩⟩
      cases hl
      exact hf
    · exact ⟨h.disk, hnothing _ rfl, hnew.decides.1, fun hc =>
        ⟨hnew, hnew.decides.2 hc, fun loaded hl => absurd hl (hfresh loaded), hnothing _ rfl,
          huntold, huncounted, hnodup⟩⟩

/-- Processing is started: the marker was pending, so its lineage had not started it. -/
theorem Inv.starts (h : Inv cfg s) (hp : s.phase = .starting)
    (hm : s.shared.marker.processingPhase.status = .pending) (saved : Bool) :
    Inv cfg (s.processingStarted.resolveStart.saveThen saved .mapping) := by
  have hready := h.phase
  simp only [PhaseOk, hp] at hready
  have hfresh := hready.lineage.pending.mp hm
  have hlineage : s.startedLineage = { s.run.lineage with started := some s.shared.now } := by
    unfold startedLineage
    rw [hfresh]
    rfl
  have hbetween := hready.startProcessing { s.run with
    lineage := { s.run.lineage with started := some s.shared.now }
    processingStartedAt := s.shared.now } hfresh s.run.dumpFiles.length rfl rfl rfl rfl rfl
  unfold processingStarted
  rw [hlineage]
  apply Inv.saveThen
  · exact h.disk
  · exact hbetween.unrepeated
  · exact hbetween.lineage
  · rfl
  · exact fun _ => ⟨hbetween.stamped true, rfl⟩

/-- Processing is resumed: the marker has a start time, and it is the lineage's. -/
theorem Inv.resumed (h : Inv cfg s) (hp : s.phase = .starting)
    (hm : s.shared.marker.processingPhase.status = .inProgress) :
    Between cfg s.run.lineage s.processingResumed.resolveStart.run
      { s.processingResumed.shared with
        progress := rehydrate cfg s.processingResumed.shared.marker s.shared.progress
          s.run.dumpFiles }
      s.run.dumpFiles := by
  have hready := h.phase
  simp only [PhaseOk, hp] at hready
  have hstarted : s.run.lineage.started.isSome = true := by
    rw [Option.isSome_iff_ne_none, ne_eq, ← hready.lineage.pending, hm]
    exact fun hc => nomatch hc
  have hbegun : s.run.lineage.started = some s.processingResumed.resolveStart.run.processingStartedAt := by
    obtain ⟨time, htime⟩ := Option.isSome_iff_exists.mp hstarted
    simp only [resolveStart, processingResumed, setMarker]
    rw [hready.lineage.begun, htime]
    rfl
  exact hready.resume s.processingResumed.resolveStart.run
    (m := s.processingResumed.shared.marker)
    ⟨fun _ => rfl, fun _ => rfl, rfl, rfl, rfl, rfl⟩ hready.lineage.settled hm hbegun rfl rfl rfl rfl

/-! ## The files -/

theorem Inv.failed {rest : List DataType} (h : Inv cfg s)
    (hb : Between cfg s.run.lineage s.run s.shared rest) (hd : s.diskLineage = s.run.lineage) :
    Inv cfg (s.failed.goto .finalising) := by
  have hfailed : Between cfg s.run.lineage s.failed.run s.shared rest :=
    hb.withRun rfl rfl rfl rfl rfl (fun hs => nomatch hs)
  exact ⟨h.disk, hfailed.unrepeated, ⟨rest, hfailed⟩, hd, fun hs => nomatch hs⟩

theorem Inv.startsFile {dt : DataType} {rest : List DataType} (h : Inv cfg s)
    (hp : s.phase = .looping (dt :: rest))
    (hc : s.shared.marker.completedRecords (cfg.dump.fileName dt) = none) (saved : Bool) :
    Inv cfg ((s.setMarker (s.shared.marker.startFileProcessing (cfg.dump.fileName dt)
      s.shared.now)).saveThen saved (.processing dt rest
        { bytes := s.files (cfg.dump.path dt), map := s.run.artistDiscogsMap }
        (Tasks.spawn cfg.pipeline))) := by
  have hloop := h.phase
  simp only [PhaseOk, hp] at hloop
  obtain ⟨hbetween, hdisk⟩ := hloop
  have hfile := InFile.start hbetween hdisk hc
    { bytes := s.files (cfg.dump.path dt), map := s.run.artistDiscogsMap }
  apply Inv.saveThen
  · exact h.disk
  · exact h.unrepeated
  · exact hbetween.lineage.startFileProcessing hbetween.isSome hc _
  · exact hbetween.isSome
  · intro _
    have hstarted := hfile .idle
    exact ⟨_, _, hstarted.before, hstarted.pending, hstarted.pipeline, rfl, rfl⟩

variable (s) in
/-- Settling the lineages leaves everything else. -/
theorem settleLineage_outside (dt : DataType) (source : Source) (before after : Main) :
    (s.settleLineage dt source before after).phase = s.phase ∧
      (s.settleLineage dt source before after).files = s.files ∧
      (s.settleLineage dt source before after).shared = s.shared := by
  unfold settleLineage
  split <;> exact ⟨rfl, rfl, rfl⟩

theorem Inv.pipelineMoves {l : Pipeline.Label} {dt : DataType} {rest : List DataType}
    {source : Source} {tasks : Tasks} {p : Pipeline} (h : Inv cfg s)
    (hp : s.phase = .processing dt rest source tasks)
    (hm : Pipeline.step cfg.pipeline (cfg.job dt source) ⟨s.shared, tasks⟩ l = some p) :
    Inv cfg ({ s with shared := p.shared, phase := .processing dt rest source p.tasks }.settleLineage
      dt source tasks.main p.tasks.main) := by
  have hfile := h.phase
  simp only [PhaseOk, hp] at hfile
  obtain ⟨s₁, l, hfile⟩ := hfile
  have hnext := hfile.step hm
  refine ⟨hnext.diskOk, hnext.unrepeated, ?_⟩
  unfold PhaseOk
  rw [(settleLineage_outside _ _ _ _ _).1]
  exact ⟨s₁, l, hnext⟩

/-! ## The version -/

/-- An error that was collected stays, and a publish adds one unless it was delivered. -/
theorem collectError_nil {errors : List String} {dt : DataType} {exchange : String} {reply : Reply}
    (h : collectError errors dt (publishResult exchange reply) = []) :
    errors = [] ∧ reply.delivered = true := by
  cases hr : publishResult exchange reply with
  | ok =>
    rw [hr] at h
    exact ⟨h, (publishResult_ok _ _).mp hr⟩
  | error e =>
    rw [hr] at h
    cases List.append_eq_nil_iff.mp h with
    | intro _ hlast => cases hlast

theorem Inv.announces {message : ExtractionCompleteMessage} {dt : DataType} {rest : List DataType}
    {errors : List String} (h : Inv cfg s) (hp : s.phase = .announcing message (dt :: rest) errors)
    (reply : Reply) :
    Inv cfg { s with
      shared := s.shared.publish dt (.extractionComplete message) reply
      phase := .announcing message rest (collectError errors dt
        (publishResult (exchangeName cfg.pipeline.exchangePrefix dt) reply)) } := by
  have hphase := h.phase
  simp only [PhaseOk, hp] at hphase
  obtain ⟨hannouncing, hdisk⟩ := hphase
  have herrors : collectError errors dt
      (publishResult (exchangeName cfg.pipeline.exchangePrefix dt) reply) = [] →
        errors = [] ∧ reply.delivered = true := collectError_nil
  have hnext := hannouncing.publish reply herrors
  refine ⟨fun m hm => ?_, hnext.between.unrepeated, hnext, hdisk⟩
  obtain ⟨hline, hstarted⟩ := h.disk m hm
  exact ⟨hline.grow (Nat.le_refl _) (by simp) (Or.inl hstarted), hstarted⟩

theorem Inv.finalises (h : Inv cfg s) (hp : s.phase = .finalising) (saved : Bool) :
    Inv cfg ((s.setMarker (if s.run.success then
      (s.shared.marker.completeProcessing s.shared.now).completeExtraction
      else s.shared.marker)).saveThen saved .reporting) := by
  have hphase := h.phase
  simp only [PhaseOk, hp] at hphase
  obtain ⟨⟨rest, hbetween⟩, hdisk, hannounced⟩ := hphase
  apply Inv.saveThen
  · exact h.disk
  · exact h.unrepeated
  · cases hs : s.run.success with
    | false => exact hbetween.lineage
    | true =>
      obtain ⟨e, he⟩ := hannounced hs
      exact hbetween.lineage.complete (.of_announcing he) _
  · exact hbetween.isSome
  · exact fun _ => trivial

/-! ## Every run -/

theorem inv_initial (files : Files) (now : DateTime) : Inv cfg (initial cfg files now) where
  disk _ hm := nomatch hm
  unrepeated := ⟨Nat.le_refl _, fun _ hm => nomatch hm⟩
  phase := trivial

theorem inv_move {label : Label} (hmove : Move cfg s label t) (h : Inv cfg s) : Inv cfg t := by
  have hphase := h.phase
  cases hmove with
  | ticks elapsed => exact h.later ⟨Nat.le_add_right _ _, rfl, rfl, rfl, fun _ hm => hm⟩ rfl rfl rfl
  | shutdownRequested | fileRemoved => exact h.later (.refl _) rfl rfl rfl
  | markerLost =>
    exact h.later ⟨Nat.le_refl _, rfl, rfl, rfl, fun _ hm => nomatch hm⟩ rfl rfl rfl
  | crashes | stops | downloadFails | discoverFails | findsNone | connectFails | declareFails
  | mapFails | fileFails | reports => exact ⟨h.disk, h.unrepeated, trivial⟩
  | begins => exact ⟨h.disk, ⟨Nat.le_refl _, fun _ hm => nomatch hm⟩, ⟨rfl, rfl⟩, rfl⟩
  | enters hp =>
    simp only [PhaseOk, hp] at hphase
    exact ⟨h.disk, h.unrepeated, hphase.1, hphase.2, rfl⟩
  | goesOn hp | downloads hp | connects hp | declares hp | declaresLast hp =>
    simp only [PhaseOk, hp] at hphase
    exact ⟨h.disk, h.unrepeated, hphase⟩
  | discovers hp hperm =>
    simp only [PhaseOk, hp] at hphase
    obtain ⟨huntouched, huncounted, huntold⟩ := hphase
    exact ⟨h.disk, ⟨h.unrepeated.before, h.unrepeated.skipped⟩,
      ⟨huntouched.unpublished, huntouched.unread⟩, huncounted, huntold,
      hperm.nodup_iff.mpr (DataType.nodup_musicbrainz.filter _)⟩
  | skips hp =>
    obtain ⟨hdisk, hunrepeated, -, -⟩ := h.loadMarker hp _
    exact ⟨hdisk, hunrepeated, trivial⟩
  | reprocesses hp hd =>
    obtain ⟨-, -, hnever, -⟩ := h.loadMarker hp _
    exact absurd hd hnever
  | continues hp hd =>
    obtain ⟨hdisk, hunrepeated, -, hready⟩ := h.loadMarker hp _
    exact ⟨hdisk, hunrepeated, hready hd⟩
  | starts hp hm => exact h.starts hp hm _
  | resumeFails => exact ⟨h.disk, ⟨h.unrepeated.before, h.unrepeated.skipped⟩, trivial⟩
  | resumes hp hm ht =>
    subst ht
    have hbetween := h.resumed hp hm
    refine ⟨fun m hdisk => ?_, hbetween.unrepeated, hbetween.stamped true, rfl⟩
    cases hdisk
    exact ⟨hbetween.lineage.stamped _, hbetween.isSome⟩
  | phaseOver hp hpending hrunning =>
    simp only [PhaseOk, hp] at hphase
    exact (Ready.not_over hphase hpending hrunning).elim
  | maps hp =>
    simp only [PhaseOk, hp] at hphase
    exact ⟨h.disk, ⟨h.unrepeated.before, h.unrepeated.skipped⟩,
      hphase.1.withRun rfl rfl rfl rfl rfl id, hphase.2⟩
  | loopEnds hp hs =>
    simp only [PhaseOk, hp] at hphase
    exact ⟨h.disk, h.unrepeated, .first hphase.1 hs, hphase.2⟩
  | loopEndsFailed hp hs =>
    simp only [PhaseOk, hp] at hphase
    refine ⟨h.disk, h.unrepeated, ⟨[], hphase.1⟩, hphase.2, fun hsuccess => ?_⟩
    rw [show s.run.success = true from hsuccess] at hs
    cases hs
  | interrupted hp =>
    simp only [PhaseOk, hp] at hphase
    exact h.failed hphase.1 hphase.2
  | skipsFile hp hs hc =>
    simp only [PhaseOk, hp] at hphase
    have hskip := hphase.1.skip hc
    exact ⟨h.disk, hskip.unrepeated, hskip, hphase.2⟩
  | startsFile hp hs hc => exact h.startsFile hp hc _
  | pipelineMoves hp hm => exact h.pipelineMoves hp hm
  | fileEnds hp hm =>
    simp only [PhaseOk, hp] at hphase
    obtain ⟨s₁, l, hfile⟩ := hphase
    obtain ⟨hbetween, hdisk⟩ := hfile.done hm
    exact ⟨h.disk, hbetween.unrepeated, hbetween, hdisk⟩
  | announces hp => exact h.announces hp _
  | announced hp =>
    simp only [PhaseOk, hp] at hphase
    exact ⟨h.disk, h.unrepeated, ⟨[], hphase.1.between⟩, hphase.2, fun _ => ⟨_, hphase.1⟩⟩
  | announcingFails hp =>
    simp only [PhaseOk, hp] at hphase
    exact h.failed hphase.1.between hphase.2
  | finalises hp => exact h.finalises hp _

theorem inv_step {label : Label} (hstep : Service.step cfg s label = some t) (h : Inv cfg s) :
    Inv cfg t :=
  inv_move (step_move hstep) h

/-- The invariant holds after every sequence of runs, crashes and losses. -/
theorem inv_reachable (h : (machine cfg).Reachable s) : Inv cfg s := by
  refine Machine.ReachableBy.invariant (P := Inv cfg) ?_ ?_ h
  · rintro _ ⟨files, now, rfl⟩
    exact inv_initial files now
  · intro s l t _ hi hstep
    exact inv_step hstep hi

end Service

end MusicbrainzIngestion
