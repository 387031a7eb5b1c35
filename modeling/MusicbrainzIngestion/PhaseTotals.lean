import MusicbrainzIngestion.StateMarker.Operations
import MusicbrainzIngestion.VersionCompletion

/-! The totals of the processing and publishing phases against the table of files, in every
marker that is saved. Only some operations bring the totals up to date; starting a file
again drops its counts from the table and leaves them in the totals. -/

namespace MusicbrainzIngestion
open Base

/-- Something was counted for the file. -/
def FileProcessingStatus.Counted (status : FileProcessingStatus) : Prop :=
  status.recordsExtracted ≠ 0 ∨ status.messagesPublished ≠ 0 ∨ status.batchesSent ≠ 0

namespace StateMarker

/-- The totals of the phases are those of the table of files. -/
structure Totalled (m : StateMarker) : Prop where
  records : m.processingPhase.recordsExtracted =
    Table.sumBy FileProcessingStatus.recordsExtracted m.processingPhase.progressByFile
  messages : m.publishingPhase.messagesPublished =
    Table.sumBy FileProcessingStatus.messagesPublished m.processingPhase.progressByFile
  batches : m.publishingPhase.batchesSent =
    Table.sumBy FileProcessingStatus.batchesSent m.processingPhase.progressByFile
  processed : m.processingPhase.filesProcessed = m.completedFileCount

/-- The file has counts of an earlier attempt. -/
def HasCounts (m : StateMarker) (filename : String) : Prop :=
  ∃ status, m.progress filename = some status ∧ status.Counted

variable {m : StateMarker} {f : String}

theorem Totalled.stamped (h : m.Totalled) (now : DateTime) : (m.stamped now).Totalled :=
  ⟨h.records, h.messages, h.batches, h.processed⟩

theorem totalled_new (version : String) (now : DateTime) : (new version now).Totalled :=
  ⟨rfl, rfl, rfl, rfl⟩

/-- Processing is started on an empty table. -/
theorem Totalled.startProcessing (h : m.Totalled) (hempty : ∀ f, m.progress f = none) (count : Nat)
    (now : DateTime) : (m.startProcessing count now).Totalled := by
  have hnone : ∀ f ∈ m.processingPhase.progressByFile, f ∈ ([] : List String) := fun f hf => by
    have hsome := AList.lookup_isSome.mpr hf
    rw [show m.processingPhase.progressByFile.lookup f = none from hempty f] at hsome
    cases hsome
  have hsum : ∀ g, Table.sumBy g m.processingPhase.progressByFile = 0 := fun g =>
    Table.sumBy_eq_sum g List.nodup_nil _ hnone
  refine ⟨(hsum _).symm, h.messages, h.batches, ?_⟩
  have hcount : m.completedFileCount = 0 := by
    unfold completedFileCount
    rw [Table.countP_values]
    exact hsum _
  exact hcount.symm

/-! ## What the operations of a file do to the totals -/

theorem completedFileCount_startFileProcessing (h : m.completedRecords f = none) (now : DateTime) :
    (m.startFileProcessing f now).completedFileCount = m.completedFileCount := by
  have hpending : m.fileCompleted f = false := by rw [fileCompleted_eq, h]; rfl
  rw [completedFileCount_eq m f, hpending]
  unfold completedFileCount
  rw [Table.countP_values, progressByFile_startFileProcessing, Table.sumBy_insert]
  rfl

/-- A file that is not completed may be started without an update of the totals exactly when
nothing was counted for it. -/
theorem totalled_startFileProcessing (h : m.Totalled) (hc : m.completedRecords f = none)
    (now : DateTime) : (m.startFileProcessing f now).Totalled ↔ ¬ m.HasCounts f := by
  obtain ⟨hrecords, hprocessed, hpublishing⟩ := totals_startFileProcessing (m := m) (f := f) now
  have r := sumBy_startFileProcessing (m := m) (f := f) FileProcessingStatus.recordsExtracted now rfl
  have p := sumBy_startFileProcessing (m := m) (f := f) FileProcessingStatus.messagesPublished now rfl
  have b := sumBy_startFileProcessing (m := m) (f := f) FileProcessingStatus.batchesSent now rfl
  have hr := h.records
  have hp := h.messages
  have hb := h.batches
  constructor
  · rintro ⟨hr', hp', hb', -⟩ ⟨status, hstatus, hcounted⟩
    rw [hrecords] at hr'
    rw [hpublishing] at hp' hb'
    rw [hstatus, Option.map_some, Option.getD_some] at r p b
    rcases hcounted with hne | hne | hne <;> omega
  · intro hnone
    have hzero : ∀ g : FileProcessingStatus → Nat, (∀ status, ¬ status.Counted → g status = 0) →
        ((m.progress f).map g).getD 0 = 0 := fun g hg => by
      cases hstatus : m.progress f with
      | none => rfl
      | some status => exact hg status fun hcounted => hnone ⟨status, hstatus, hcounted⟩
    rw [hzero _ fun status hs => by unfold FileProcessingStatus.Counted at hs; omega] at r p b
    refine ⟨?_, ?_, ?_, ?_⟩
    · rw [hrecords]
      omega
    · rw [hpublishing]
      omega
    · rw [hpublishing]
      omega
    · rw [hprocessed, completedFileCount_startFileProcessing hc, h.processed]

theorem totalled_syncPhaseTotals (h : m.processingPhase.filesProcessed = m.completedFileCount) :
    m.syncPhaseTotals.Totalled := ⟨rfl, rfl, rfl, h⟩

theorem completedFileCount_modifyProgress {g : FileProcessingStatus → FileProcessingStatus}
    (hg : ∀ status, (g status).status = status.status) :
    (m.modifyProgress f g).completedFileCount = m.completedFileCount := by
  unfold completedFileCount
  rw [Table.countP_values, Table.countP_values]
  exact Table.sumBy_modify _ _ f fun status => by rw [hg]

theorem completedFileCount_modifyProgress_completed
    {g : FileProcessingStatus → FileProcessingStatus} (hg : ∀ status, (g status).status = .completed)
    (hstarted : m.fileStarted f) :
    (m.modifyProgress f g).completedFileCount = m.completedFileCount + 1 := by
  have hpending : m.fileCompleted f = false := by
    rw [fileCompleted_eq, completedRecords_of_fileStarted hstarted]
    rfl
  obtain ⟨status, hstatus, -⟩ := hstarted
  have htable : (m.modifyProgress f g).processingPhase.progressByFile =
      m.processingPhase.progressByFile.insert f (g status) := by
    have hlookup : m.processingPhase.progressByFile.lookup f = some status := hstatus
    unfold modifyProgress Table.modify
    rw [hlookup]
  rw [completedFileCount_eq m f, hpending]
  unfold completedFileCount
  rw [Table.countP_values, htable, Table.sumBy_insert, hg]
  simp only [decide_true, Bool.toNat_true, Bool.toNat_false]
  omega

theorem Totalled.updateFileProgress (h : m.Totalled) (records messages batches : Nat)
    (now : DateTime) : (m.updateFileProgress f records messages batches now).Totalled := by
  have hsynced : (m.modifyProgress f fun status => { status with
      recordsExtracted := records, messagesPublished := messages,
      batchesSent := batches }).syncPhaseTotals.Totalled := by
    refine totalled_syncPhaseTotals (h.processed.trans (Eq.symm ?_))
    exact completedFileCount_modifyProgress fun _ => rfl
  unfold StateMarker.updateFileProgress
  dsimp only
  split
  · exact ⟨hsynced.records, hsynced.messages, hsynced.batches, hsynced.processed⟩
  · exact hsynced

theorem Totalled.setFileType (h : m.Totalled) (status : PhaseStatus) :
    (m.setFileType f status).Totalled := by
  unfold StateMarker.setFileType
  split
  · exact ⟨h.records, h.messages, h.batches, h.processed⟩
  · exact h

/-- Completing a started file counts it. -/
theorem Totalled.completeFileProcessing (h : m.Totalled) (hstarted : m.fileStarted f)
    (records : Nat) (now : DateTime) : (m.completeFileProcessing f records now).Totalled := by
  unfold StateMarker.completeFileProcessing
  apply Totalled.setFileType
  apply totalled_syncPhaseTotals
  refine (congrArg (· + 1) h.processed).trans (Eq.symm ?_)
  exact completedFileCount_modifyProgress_completed (fun _ => rfl) hstarted

end StateMarker

/-! ## Over the runs -/

/-- The step starts a file over the counts of an earlier attempt, and saves the marker. -/
def Service.RestartsCounted (cfg : ServiceConfig) (s : Service) : Service.Label → Prop
  | .nextFile true => ∃ dt rest, s.phase = .looping (dt :: rest) ∧ s.shutdown = false ∧
    s.shared.marker.fileCompleted (cfg.dump.fileName dt) = false ∧
    s.shared.marker.HasCounts (cfg.dump.fileName dt)
  | _ => False

/-- The marker on disk, if there is one, has the totals of its table. -/
def Service.SavedTotalled (s : Service) : Prop := ∀ m, s.shared.disk = some m → m.Totalled

/-- The marker of a file in work is updated with the file started, and completed last. -/
theorem Pipeline.totalled_move {cfg : PipelineConfig} {job : Job} {m₀ : StateMarker}
    {p q : Pipeline} (hmove : Pipeline.Move cfg job p q)
    (hframe : Pipeline.MarkerFrame job m₀ p.tasks.main p.shared)
    (hdisk : ∀ m, p.shared.disk = some m → m.Totalled) (h : p.shared.marker.Totalled) :
    (∀ m, q.shared.disk = some m → m.Totalled) ∧ q.shared.marker.Totalled := by
  have hsave : ∀ (s : Shared) (saved : Bool), s.marker.Totalled →
      (∀ m, s.disk = some m → m.Totalled) →
      (∀ m, (s.save saved).disk = some m → m.Totalled) ∧ (s.save saved).marker.Totalled := by
    intro s saved hm hd
    refine ⟨fun m hsaved => ?_, hm.stamped _⟩
    cases saved with
    | false => exact hd m hsaved
    | true =>
      cases hsaved
      exact hm.stamped _
  cases hmove with
  | batcherCheckpoints hp saved | batcherSaves hp saved =>
    exact hsave (p.shared.updateFileProgress job.fileName _ _) saved (h.updateFileProgress _ _ _ _)
      hdisk
  | @marks fileSuccess totalCount hp saved =>
    refine hsave { p.shared with marker := _ } saved ?_ hdisk
    rw [hp] at hframe
    cases fileSuccess with
    | false => exact h
    | true => exact h.completeFileProcessing hframe.1.2 _ _
  | _ => exact ⟨hdisk, h⟩

namespace Service

variable {cfg : ServiceConfig} {s t : Service}

/-- From the choice of a marker to the end of a run, the marker in memory has the totals of its
table. -/
def TotalledPhase (s : Service) : Prop :=
  match s.phase with
  | .connecting | .declaring _ | .starting | .mapping | .looping _ | .processing _ _ _ _
  | .announcing _ _ _ | .finalising => s.shared.marker.Totalled
  | _ => True

/-- The markers of a service, as long as no such start is saved. -/
structure TotalledInv (cfg : ServiceConfig) (s : Service) : Prop where
  inv : Inv cfg s
  disk : s.SavedTotalled
  phase : TotalledPhase s

theorem totalled_saveThen {saved : Bool} {phase : Phase} (hd : s.SavedTotalled)
    (hm : s.shared.marker.Totalled) :
    (s.saveThen saved phase).SavedTotalled ∧ TotalledPhase (s.saveThen saved phase) := by
  cases saved with
  | false => exact ⟨hd, trivial⟩
  | true =>
    have hstamped := hm.stamped s.shared.now
    refine ⟨fun m hsaved => ?_, ?_⟩
    · cases hsaved
      exact hstamped
    · unfold TotalledPhase
      split <;> first | exact hstamped | trivial

theorem totalled_loadMarker (cfg : ServiceConfig) (hd : s.SavedTotalled) (readable : Bool) :
    (s.loadMarker cfg readable).SavedTotalled ∧
      (s.loadMarker cfg readable).shared.marker.Totalled := by
  have hnew := StateMarker.totalled_new cfg.dump.version s.shared.now
  unfold loadMarker
  split
  · exact ⟨hd, hnew⟩
  · split
    · next m hm => exact ⟨hd, hd m hm⟩
    · exact ⟨hd, hnew⟩

theorem totalled_move {label : Label} (hmove : Move cfg s label t)
    (hc : ¬ s.RestartsCounted cfg label) (h : TotalledInv cfg s) :
    t.SavedTotalled ∧ TotalledPhase t := by
  have hd := h.disk
  have hphase := h.phase
  have hinv := h.inv.phase
  unfold TotalledPhase at hphase
  unfold PhaseOk at hinv
  cases hmove with
  | ticks | shutdownRequested | fileRemoved => exact ⟨hd, h.phase⟩
  | markerLost =>
    refine ⟨fun m hm => ?_, h.phase⟩
    cases hm
  | skips => exact ⟨(totalled_loadMarker cfg hd _).1, trivial⟩
  | reprocesses => exact ⟨(totalled_loadMarker cfg hd _).1, StateMarker.totalled_new _ _⟩
  | continues =>
    obtain ⟨hdisk, hmarker⟩ := totalled_loadMarker cfg hd _
    exact ⟨hdisk, hmarker⟩
  | starts hp hm =>
    rw [hp] at hphase hinv
    have hempty := (hinv.lineage.fresh (hinv.lineage.pending.mp hm)).2
    exact totalled_saveThen hd (hphase.startProcessing hempty _ _)
  | resumeFails => exact ⟨hd, trivial⟩
  | resumes hp hm ht =>
    rw [hp] at hphase
    subst ht
    have hresumed : s.processingResumed.resolveStart.shared.marker.Totalled :=
      ⟨hphase.records, hphase.messages, hphase.batches, hphase.processed⟩
    have hdisk : s.processingResumed.resolveStart.SavedTotalled := hd
    exact totalled_saveThen hdisk hresumed
  | @startsFile saved dt rest hp hs hpending =>
    rw [hp] at hphase
    cases saved with
    | false => exact ⟨hd, trivial⟩
    | true =>
      -- the step is not a restart over counts, so the sums lose nothing
      have hnone : ¬ s.shared.marker.HasCounts (cfg.dump.fileName dt) := fun hcounts =>
        hc ⟨dt, rest, hp, hs, by rw [StateMarker.fileCompleted_eq, hpending]; rfl, hcounts⟩
      have hstarted := (StateMarker.totalled_startFileProcessing hphase hpending s.shared.now).mpr hnone
      exact totalled_saveThen hd hstarted
  | pipelineMoves hp hm =>
    rw [hp] at hphase hinv
    obtain ⟨s₁, l, hfile⟩ := hinv
    have hnext := Pipeline.totalled_move (Pipeline.step_move hm) hfile.pipeline.frame.marker hd hphase
    obtain ⟨hsettled, -, hshared⟩ := settleLineage_outside _ _ _ _ _
    unfold SavedTotalled TotalledPhase
    rw [hsettled, hshared]
    exact hnext
  | finalises hp =>
    rw [hp] at hphase
    refine totalled_saveThen hd ?_
    cases hs : s.run.success with
    | false => exact hphase
    | true => exact ⟨hphase.records, hphase.messages, hphase.batches, hphase.processed⟩
  | maps hp | loopEnds hp | loopEndsFailed hp | interrupted hp | skipsFile hp | fileEnds hp
  | announces hp | announced hp | announcingFails hp | connects hp | declares hp | declaresLast hp
  | phaseOver hp =>
    rw [hp] at hphase
    exact ⟨hd, hphase⟩
  | _ => exact ⟨hd, trivial⟩

/-- A restart over counts writes a marker whose totals are not those of its table. -/
theorem not_savedTotalled_of_restart {label : Label} (hc : s.RestartsCounted cfg label)
    (h : TotalledInv cfg s) : ∃ t, step cfg s label = some t ∧ ¬ t.SavedTotalled := by
  have hphase := h.phase
  cases label with
  | nextFile saved =>
    cases saved with
    | false => exact hc.elim
    | true =>
      obtain ⟨dt, rest, hp, hs, hpending, hcounts⟩ := hc
      have hnone : s.shared.marker.completedRecords (cfg.dump.fileName dt) = none := by
        rw [StateMarker.fileCompleted_eq] at hpending
        exact Option.not_isSome_iff_eq_none.mp (Bool.not_eq_true _ ▸ hpending)
      rw [TotalledPhase, hp] at hphase
      have hstep : step cfg s (.nextFile true) = some ((s.setMarker
          (s.shared.marker.startFileProcessing (cfg.dump.fileName dt) s.shared.now)).saveThen true
            (.processing dt rest { bytes := s.files (cfg.dump.path dt), map := s.run.artistDiscogsMap }
              (Tasks.spawn cfg.pipeline))) := by
        simp [step, nextFile, hp, hs, hnone]
      refine ⟨_, hstep, fun hsaved => ?_⟩
      have hstarted : (s.shared.marker.startFileProcessing (cfg.dump.fileName dt)
          s.shared.now).Totalled := by
        obtain ⟨hr, hm, hb, hf⟩ := hsaved _ rfl
        exact ⟨hr, hm, hb, hf⟩
      exact (StateMarker.totalled_startFileProcessing hphase hnone _).mp hstarted hcounts
  | _ => exact hc.elim

end Service

/-- For every sequence of runs over a version, with any failures, crashes, retries and resumes:
every marker that is saved has the totals of its table of files exactly when no file is started
again while counts of an earlier attempt stand in the table. -/
theorem saved_totals_iff (cfg : ServiceConfig) (files : Files) (now : DateTime)
    (labels : List Service.Label) :
    (∀ pre post s, labels = pre ++ post →
      (Service.machine cfg).run (Service.initial cfg files now) pre = some s → s.SavedTotalled) ↔
    (Service.machine cfg).Along (fun s label => ¬ s.RestartsCounted cfg label)
      (Service.initial cfg files now) labels := by
  have hfirst : Service.TotalledInv cfg (Service.initial cfg files now) :=
    ⟨Service.inv_initial files now, (fun m hm => nomatch hm), trivial⟩
  refine Machine.forall_prefix_iff_along _ (I := Service.TotalledInv cfg) (fun s h => h.disk)
    (fun s label t hc h hstep => ?_) (fun s label hc h => ?_) hfirst labels
  · obtain ⟨hdisk, hphase⟩ := Service.totalled_move (Service.step_move hstep) hc h
    exact ⟨Service.inv_step hstep h.inv, hdisk, hphase⟩
  · exact Service.not_savedTotalled_of_restart (not_not.mp hc) h

/-- The label file is killed after its last save, and the next run starts it again. -/
def restartedRun : List Service.Label :=
  entryRun ++ fileRun .artists ++ [.nextFile true] ++ (labelRun.take 10).map .pipeline ++
    [.crash] ++ entryRun ++ [.nextFile true, .nextFile true]

/-- One record stands in the total, and none in the table. -/
theorem totals_stale_after_restart : ∃ s m, demoState restartedRun = some s ∧
    s.shared.disk = some m ∧ ¬ m.Totalled ∧ m.processingPhase.recordsExtracted = 1 ∧
    Table.sumBy FileProcessingStatus.recordsExtracted m.processingPhase.progressByFile = 0 := by
  have hstale : (demoState restartedRun).any (fun s => s.shared.disk.any fun m =>
      decide (m.processingPhase.recordsExtracted = 1 ∧
        Table.sumBy FileProcessingStatus.recordsExtracted m.processingPhase.progressByFile = 0)) =
      true := by decide +kernel
  obtain ⟨s, hrun, hs⟩ := (Option.any_eq_true _ _).mp hstale
  obtain ⟨m, hdisk, hm⟩ := (Option.any_eq_true _ _).mp hs
  obtain ⟨hrecords, hsum⟩ := of_decide_eq_true hm
  refine ⟨s, m, hrun, hdisk, fun htotalled => ?_, hrecords, hsum⟩
  have hone := htotalled.records
  omega

end MusicbrainzIngestion
