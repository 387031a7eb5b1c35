import MusicbrainzIngestion.Health
import MusicbrainzIngestion.Pipeline.Frame
import MusicbrainzIngestion.Service.FileSteps
import MusicbrainzIngestion.Service.Liveness
import MusicbrainzIngestion.VersionCompletion

/-! What the health server tells is true. The gauges are compared with what was published
since they were reset: the completed files are those whose completion was confirmed, no
record was lost that is not counted as an error, and once a run has ended well nothing is
in work and nothing was lost. -/

namespace MusicbrainzIngestion
open Base

namespace Attempt

/-- The file whose completion was confirmed. -/
def completedFile (a : Attempt) : Option String :=
  match a.message with
  | .fileComplete m => if a.reply.delivered then some m.file else none
  | _ => none

/-- A record the broker did not confirm. -/
def lost (a : Attempt) : Bool := a.isData && !a.reply.delivered

end Attempt

/-- The files whose completion was confirmed. -/
def completedIn (log : List Attempt) : Finset String := (log.filterMap Attempt.completedFile).toFinset

theorem completedIn_snoc (log : List Attempt) (a : Attempt) :
    completedIn (log ++ [a]) = match a.completedFile with
      | some file => insert file (completedIn log)
      | none => completedIn log := by
  unfold completedIn
  rw [List.filterMap_append, List.toFinset_append]
  cases h : a.completedFile with
  | none => simp [h]
  | some file =>
    have hone : ([a].filterMap Attempt.completedFile).toFinset = {file} := by simp [h]
    rw [hone, Finset.union_comm]
    rfl

theorem completedIn_append (log attempts : List Attempt) :
    completedIn log ⊆ completedIn (log ++ attempts) := by
  unfold completedIn
  rw [List.filterMap_append, List.toFinset_append]
  exact Finset.subset_union_left

namespace Pipeline

variable {cfg : PipelineConfig} {job : Job} {p q : Pipeline} {l : Label}

/-- What a step of a file's pipeline publishes, if anything. -/
inductive Publishes (job : Job) (p q : Pipeline) : Prop where
  | nothing (hlog : q.shared.log = p.shared.log)
    (hmain : q.tasks.main.succeeded.isSome = p.tasks.main.succeeded.isSome)
  | record (a : Attempt) (hlog : q.shared.log = p.shared.log ++ [a]) (hdata : a.isData = true)
    (hmain : q.tasks.main = p.tasks.main)
    (hfails : a.reply.delivered = false → p.tasks.publisher.isDone = false ∧
      ∃ e, q.tasks.publisher = .done (.failed e))
  | completion (a : Attempt) (m : FileCompleteMessage) (hlog : q.shared.log = p.shared.log ++ [a])
    (hmessage : a.message = .fileComplete m) (hfile : m.file = job.fileName)
    (hopen : p.tasks.main.succeeded = none)
    (hmain : q.tasks.main.succeeded.isSome = a.reply.delivered)

theorem publishes_publish {reply : Reply} (h : p.publisherPublish cfg job reply = some q) :
    Publishes job p q := by
  unfold publisherPublish at h
  split at h
  · next msg rest hp =>
    have hopen : p.tasks.publisher.isDone = false := by rw [hp]; rfl
    dsimp only at h
    split at h <;> cases h
    · next hr =>
      refine .record ⟨job.dataType, .data msg, reply, p.shared.now⟩ rfl rfl rfl fun hlost => ?_
      rw [(publishResult_ok _ _).mp hr] at hlost
      cases hlost
    · exact .record ⟨job.dataType, .data msg, reply, p.shared.now⟩ rfl rfl rfl
        fun _ => ⟨hopen, _, rfl⟩
  · cases h

def Label.publishes : Label → Bool
  | .publisherPublish _ => true
  | .sendFileComplete _ => true
  | _ => false

/-- No other step publishes. -/
theorem log_kept (hstep : step cfg job p l = some q) (hl : l.publishes = false) :
    q.shared.log = p.shared.log := by
  cases l with
  | publisherPublish | sendFileComplete => cases hl
  | tick elapsed =>
    cases hstep
    rfl
  | batcherCheckpoint saved | batcherSave saved | parserPanic | batcherPanic | publisherPanic
  | batcherTimeout elapsed | parserOpen fault | parserRead fault | parserSend | batcherRecv
  | batcherFlush | publisherRecv fault | join | markFile saved =>
    simp only [step, batcherCheckpoint, batcherSave, parserPanic, batcherPanic, publisherPanic,
      batcherTimeout, parserOpen, parserRead, parserSend, batcherRecv, batcherFlush, publisherRecv,
      join, markFile] at hstep
    repeat' split at hstep
    all_goals first | exact (Option.some_ne_none _ hstep.symm).elim | (cases hstep; rfl)

theorem publishes_send {reply : Reply} (h : p.sendFileComplete cfg job reply = some q) :
    Publishes job p q := by
  unfold sendFileComplete at h
  split at h
  · next totalCount hp =>
    dsimp only at h
    have hopen : p.tasks.main.succeeded = none := by rw [hp]; rfl
    split at h <;> cases h
    · next hr => exact .completion _ _ rfl rfl rfl hopen ((publishResult_ok _ _).mp hr).symm
    · next hr => exact .completion _ _ rfl rfl rfl hopen (publishResult_error hr).symm
  · cases h

theorem succeeded_join (h : p.join = some q) :
    q.tasks.main.succeeded.isSome = p.tasks.main.succeeded.isSome := by
  unfold join at h
  split at h
  · next hp =>
    rw [hp]
    split at h <;> cases h <;> rfl
  · next hp =>
    rw [hp]
    split at h <;> cases h <;> rfl
  · next fileSuccess totalCount hp =>
    rw [hp]
    split at h <;> cases h
    · cases fileSuccess <;> rfl
    · rfl
  · cases h

theorem publishes_step (h : step cfg job p l = some q) : Publishes job p q := by
  cases l with
  | publisherPublish reply => exact publishes_publish h
  | sendFileComplete reply => exact publishes_send h
  | join => exact .nothing (log_kept h rfl) (succeeded_join h)
  | markFile saved =>
    refine .nothing (log_kept h rfl) ?_
    simp only [step, markFile] at h
    split at h
    · next fileSuccess totalCount hp =>
      cases h
      rw [hp]
      cases fileSuccess <;> rfl
    · cases h
  | _ =>
    exact .nothing (log_kept h rfl)
      (congrArg (fun main => main.succeeded.isSome) (main_kept h rfl))

/-- Only the receipt of a record adds to what the batcher has counted, and it is tallied. -/
theorem received_move (h : Move cfg job p q) :
    (q.tasks.batcher.totalRecords = p.tasks.batcher.totalRecords ∨
      0 < q.shared.progress.get job.dataType) ∧
    (∀ dt, p.shared.progress.get dt ≤ q.shared.progress.get dt) ∧ p.shared.now ≤ q.shared.now := by
  have hkept : ∀ {s : Shared}, s.progress = p.shared.progress →
      ∀ dt, p.shared.progress.get dt ≤ s.progress.get dt := fun hs dt => by rw [hs]
  cases h with
  | tick elapsed => exact ⟨.inl rfl, hkept rfl, Nat.le_add_right _ _⟩
  | batcherReceives hp hc =>
    simp only [setShared, ExtractionProgress.increment, ExtractionProgress.get_add]
    exact ⟨.inr (by simp), fun _ => Nat.le_add_right _ _, Nat.le_refl _⟩
  | batcherCloses => exact ⟨.inl (afterClose_totalRecords _), hkept rfl, Nat.le_refl _⟩
  | batcherCheckpoints => exact ⟨.inl (sizeCheck_totalRecords _ _), hkept rfl, Nat.le_refl _⟩
  | _ => exact ⟨.inl rfl, hkept rfl, Nat.le_refl _⟩

end Pipeline

/-! ## What the gauges say -/

/-- What the gauges say of all that a run has done so far. `log` is what was published since
they were reset. -/
structure Gauges.Holds (g : Gauges) (sh : Shared) (log : List Attempt) : Prop where
  completed : g.completedFiles ⊆ completedIn log
  lost : log.countP Attempt.lost ≤ g.errorCount
  received : ∀ dt t, g.lastExtractionTime.lookup dt = some t →
    t ≤ sh.now ∧ 0 < sh.progress.get dt

/-- What they say of a file in work. A record that was lost, or any failure of the publisher,
shows in its task. -/
structure Gauges.InFile (g : Gauges) (dt : DataType) (fileName : String) (success : Bool) (tasks : Tasks)
    (log : List Attempt) : Prop where
  joined : Pipeline.Joined tasks
  judged : Pipeline.Judged tasks
  active : g.activeConnections = (∅ : Table DataType String).insert dt fileName
  completed : completedIn log =
    if tasks.main.succeeded.isSome then insert fileName g.completedFiles else g.completedFiles
  errors : success = true → g.errorCount = 0 ∨ tasks.publisher.healthy = false

/-- What they say when no file is in work. -/
structure Gauges.Between (g : Gauges) (success : Bool) (log : List Attempt) : Prop where
  active : g.activeConnections = ∅
  completed : completedIn log = g.completedFiles
  errors : success = true → g.errorCount = 0

namespace Gauges

variable {cfg : PipelineConfig} {job : Job} {p q : Pipeline} {l : Pipeline.Label} {g : Gauges}
  {sh : Shared} {log : List Attempt} {since : Nat} {success : Bool}

@[simp] theorem completedFiles_tasks (dt : DataType) (now : DateTime) (before after : Tasks) :
    (g.tasks dt now before after).completedFiles = g.completedFiles := by
  unfold tasks publisher batcher
  split <;> split <;> rfl

@[simp] theorem activeConnections_tasks (dt : DataType) (now : DateTime) (before after : Tasks) :
    (g.tasks dt now before after).activeConnections = g.activeConnections := by
  unfold tasks publisher batcher
  split <;> split <;> rfl

theorem lookup_tasks {dt dt' : DataType} {now t : DateTime} {before after : Tasks}
    (h : (g.tasks dt now before after).lastExtractionTime.lookup dt' = some t) :
    g.lastExtractionTime.lookup dt' = some t ∨
      dt' = dt ∧ t = now ∧ before.batcher.totalRecords < after.batcher.totalRecords := by
  have hbatcher : (g.tasks dt now before after).lastExtractionTime =
      (g.batcher dt now before.batcher after.batcher).lastExtractionTime := by
    unfold tasks publisher
    split <;> rfl
  rw [hbatcher, batcher] at h
  split at h
  · next hmore =>
    by_cases hdt : dt' = dt
    · subst hdt
      rw [AList.lookup_insert] at h
      exact .inr ⟨rfl, (Option.some.inj h).symm, hmore⟩
    · rw [AList.lookup_insert_ne hdt] at h
      exact .inl h
  · exact .inl h

/-- A publisher that fails is counted, and nothing else is. -/
theorem errorCount_tasks (dt : DataType) (now : DateTime) (before after : Tasks) :
    (g.tasks dt now before after).errorCount = g.errorCount ∨
      (g.tasks dt now before after).errorCount = g.errorCount + 1 ∧
        after.publisher.healthy = false := by
  unfold tasks publisher batcher
  split <;> split <;> simp_all [Publisher.healthy, TaskResult.isReturned]

theorem errorCount_of_failed {dt : DataType} {now : DateTime} {before after : Tasks} {e : Error}
    (hopen : before.publisher.isDone = false) (hfailed : after.publisher = .done (.failed e)) :
    (g.tasks dt now before after).errorCount = g.errorCount + 1 := by
  have hcounts : ∀ g : Gauges, g.publisher before.publisher after.publisher =
      { g with errorCount := g.errorCount + 1 } := by
    intro g
    rw [hfailed]
    cases hp : before.publisher with
    | waiting | publishing => rfl
    | done result =>
      rw [hp] at hopen
      cases hopen
  rw [tasks, hcounts, batcher]
  split <;> rfl

theorem lost_step (h : Pipeline.step cfg job p l = some q)
    (hlost : log.countP Attempt.lost ≤ g.errorCount) {dt : DataType} {now : DateTime}
    {attempts : List Attempt} (hlog : q.shared.log = p.shared.log ++ attempts) :
    (log ++ attempts).countP Attempt.lost ≤ (g.tasks dt now p.tasks q.tasks).errorCount := by
  have hgrows : g.errorCount ≤ (g.tasks dt now p.tasks q.tasks).errorCount := by
    rcases errorCount_tasks (g := g) dt now p.tasks q.tasks with hsame | ⟨hmore, -⟩ <;> omega
  rw [List.countP_append]
  cases Pipeline.publishes_step h with
  | nothing hsame hmain =>
    rw [hsame, List.self_eq_append_right] at hlog
    rw [hlog, List.countP_nil]
    omega
  | completion a m hone hmessage hfile hopen hmain =>
    rw [hone] at hlog
    rw [← List.append_cancel_left hlog]
    have hnot : a.lost = false := by simp [Attempt.lost, Attempt.isData, hmessage]
    rw [List.countP_singleton, hnot]
    exact Nat.le_trans hlost hgrows
  | record a hone hdata hmain hfails =>
    rw [hone] at hlog
    rw [← List.append_cancel_left hlog, List.countP_singleton]
    cases hdelivered : a.reply.delivered with
    | true =>
      have hnot : a.lost = false := by simp [Attempt.lost, hdelivered]
      rw [hnot]
      exact Nat.le_trans hlost hgrows
    | false =>
      obtain ⟨hopen, e, hfailed⟩ := hfails hdelivered
      rw [errorCount_of_failed hopen hfailed]
      split <;> omega

theorem Holds.step (h : Pipeline.step cfg job p l = some q) (hg : g.Holds p.shared log)
    {attempts : List Attempt} (hlog : q.shared.log = p.shared.log ++ attempts) :
    (g.tasks job.dataType p.shared.now p.tasks q.tasks).Holds q.shared (log ++ attempts) where
  completed := by
    rw [completedFiles_tasks]
    exact hg.completed.trans (completedIn_append log attempts)
  lost := lost_step h hg.lost hlog
  received := by
    intro dt t ht
    obtain ⟨hcounted, hprogress, hnow⟩ := Pipeline.received_move (Pipeline.step_move h)
    rcases lookup_tasks ht with hbefore | ⟨rfl, rfl, hmore⟩
    · obtain ⟨hle, hpos⟩ := hg.received dt t hbefore
      exact ⟨Nat.le_trans hle hnow, Nat.lt_of_lt_of_le hpos (hprogress dt)⟩
    · exact ⟨hnow, hcounted.resolve_left (by omega)⟩

theorem InFile.step (h : Pipeline.step cfg job p l = some q)
    (hf : g.InFile job.dataType job.fileName success p.tasks log) (now : DateTime)
    {attempts : List Attempt} (hlog : q.shared.log = p.shared.log ++ attempts) :
    (g.tasks job.dataType now p.tasks q.tasks).InFile job.dataType job.fileName success q.tasks
      (log ++ attempts) where
  joined := Pipeline.joined_move (Pipeline.step_move h) hf.joined
  judged := Pipeline.judged_move (Pipeline.step_move h) hf.joined hf.judged
  active := by rw [activeConnections_tasks, hf.active]
  completed := by
    rw [completedFiles_tasks]
    have hbefore := hf.completed
    cases Pipeline.publishes_step h with
    | nothing hsame hmain =>
      rw [hsame, List.self_eq_append_right] at hlog
      rw [hlog, List.append_nil, hmain]
      exact hbefore
    | record a hone hdata hmain hfails =>
      rw [hone] at hlog
      rw [← List.append_cancel_left hlog, completedIn_snoc, hmain]
      have hnone : a.completedFile = none := by
        unfold Attempt.isData at hdata
        split at hdata
        · next hm => rw [Attempt.completedFile, hm]
        · cases hdata
      rw [hnone]
      exact hbefore
    | completion a m hone hmessage hfile hopen hmain =>
      rw [hone] at hlog
      rw [← List.append_cancel_left hlog, completedIn_snoc, hmain]
      rw [hopen] at hbefore
      simp only [Attempt.completedFile, hmessage, hfile]
      cases a.reply.delivered with
      | true => simpa using congrArg (insert job.fileName) hbefore
      | false => simpa using hbefore
  errors := by
    intro hsuccess
    rcases errorCount_tasks (g := g) job.dataType now p.tasks q.tasks with hsame | ⟨-, hfailed⟩
    · rw [hsame]
      refine (hf.errors hsuccess).imp_right fun hbad => ?_
      rw [Pipeline.publisher_fixed (Pipeline.step_move h) (Publisher.isDone_of_unhealthy hbad)]
      exact hbad
    · exact .inr hfailed

theorem InFile.ends {tasks : Tasks} {dt : DataType} {fileName : String}
    (hf : g.InFile dt fileName success tasks log) {fileSuccess : Bool} {totalCount : Nat} {saved : Bool}
    (hmain : tasks.main = .finished fileSuccess totalCount saved) :
    (g.endFile dt fileName fileSuccess).Between (success && fileSuccess) log where
  active := by
    rw [endFile, hf.active]
    apply AList.ext
    change List.kerase dt ((∅ : Table DataType String).insert dt fileName).entries = []
    rw [AList.entries_insert]
    exact List.kerase_cons_eq rfl
  completed := by
    rw [hf.completed, hmain, endFile]
    cases fileSuccess <;> rfl
  errors := by
    intro hboth
    obtain ⟨hsuccess, hfile⟩ := Bool.and_eq_true_iff.mp hboth
    have hjudged := hf.judged
    rw [Pipeline.Judged, hmain] at hjudged
    have hhealthy := hjudged hfile
    simp only [Tasks.healthy, Bool.and_eq_true] at hhealthy
    exact (hf.errors hsuccess).resolve_right (by simp [hhealthy.2])

theorem Holds.endFile (h : g.Holds sh log) {tasks : Tasks} {dt : DataType} {fileName : String}
    (hf : g.InFile dt fileName success tasks log) {fileSuccess : Bool} {totalCount : Nat} {saved : Bool}
    (hmain : tasks.main = .finished fileSuccess totalCount saved) :
    (g.endFile dt fileName fileSuccess).Holds sh log where
  completed := (hf.ends hmain).completed.ge
  lost := h.lost
  received := h.received

theorem Between.mono (h : g.Between success log) {success' : Bool}
    (hs : success' = true → success = true) : g.Between success' log :=
  { h with errors := fun hsuccess => h.errors (hs hsuccess) }

end Gauges

/-! ## The run and the loop -/

namespace Service

variable {cfg : ServiceConfig} {s t : Service} {w : Watcher} {l : Label}

/-- What the status and the gauges say at each place of a run. -/
def Placed (cfg : ServiceConfig) (status : ExtractionStatus) (success : Bool) (log : List Attempt)
    (g : Gauges) : Phase → Prop
  | .idle | .entry => True
  | .processing dt _ _ tasks =>
    status = .running ∧ g.InFile dt (cfg.dump.fileName dt) success tasks log
  | .looping _ | .announcing _ _ _ | .finalising | .reporting =>
    status = .running ∧ g.Between success log
  | _ => status = .running ∧ g = .reset ∧ log = []

/-- What holds of the gauges in every state. -/
structure Truthful (cfg : ServiceConfig) (s : Service) (w : Watcher) : Prop where
  fresh : s.status = .idle → w.gauges = .reset
  since : w.since ≤ s.shared.log.length
  holds : w.gauges.Holds s.shared (s.shared.log.drop w.since)
  placed : Placed cfg s.status s.run.success (s.shared.log.drop w.since) w.gauges s.phase
  settled : s.status = .completed ∨ s.status = .waiting →
    w.gauges.Between true (s.shared.log.drop w.since)

namespace Truthful

/-- A step that publishes nothing and leaves the status. -/
theorem kept (h : Truthful cfg s w) (hlog : t.shared.log = s.shared.log)
    (hnow : s.shared.now ≤ t.shared.now)
    (hprogress : ∀ dt, s.shared.progress.get dt ≤ t.shared.progress.get dt)
    (hstatus : t.status = s.status)
    (hplaced : Placed cfg s.status t.run.success (s.shared.log.drop w.since) w.gauges t.phase) :
    Truthful cfg t w where
  fresh := fun hidle => h.fresh (hstatus.symm.trans hidle)
  since := hlog ▸ h.since
  holds := by
    rw [hlog]
    refine { h.holds with received := fun dt time htime => ?_ }
    obtain ⟨hle, hpos⟩ := h.holds.received dt time htime
    exact ⟨Nat.le_trans hle hnow, Nat.lt_of_lt_of_le hpos (hprogress dt)⟩
  placed := by
    rw [hlog, hstatus]
    exact hplaced
  settled := by
    rw [hlog, hstatus]
    exact h.settled

/-- A save that goes well takes the run to its next place, one that fails ends it. -/
theorem saveThen (h : Truthful cfg s w) (t : Service) (saved : Bool) (phase : Phase)
    (hlog : t.shared.log = s.shared.log) (hnow : s.shared.now ≤ t.shared.now)
    (hprogress : t.shared.progress = s.shared.progress) (hstatus : t.status = s.status)
    (hplaced : Placed cfg s.status t.run.success (s.shared.log.drop w.since) w.gauges phase) :
    Truthful cfg (t.saveThen saved phase) w := by
  unfold Service.saveThen
  cases saved with
  | true => exact h.kept hlog hnow (fun dt => by simp [Shared.save, hprogress]) hstatus hplaced
  | false => exact h.kept hlog hnow (fun dt => by simp [Shared.save, finish, hprogress]) hstatus trivial

/-- A run that ends with a verdict. -/
theorem closes (h : Truthful cfg s w) {status : ExtractionStatus} (outcome : Except Error Bool)
    (hsettled : status = .failed ∨
      status = .completed ∧ w.gauges.Between true (s.shared.log.drop w.since)) :
    Truthful cfg ({ s with status := status }.finish outcome) w where
  fresh := by
    intro hidle
    have hstatus : status = .idle := hidle
    rcases hsettled with rfl | ⟨rfl, -⟩ <;> cases hstatus
  since := h.since
  holds := h.holds
  placed := trivial
  settled := by
    intro hstatus
    rcases hsettled with rfl | ⟨rfl, hbetween⟩
    · rcases hstatus with hstatus | hstatus <;> cases hstatus
    · exact hbetween

end Truthful

end Service

namespace RunLoop

variable {cfg : ServiceConfig} {forceReprocess : Bool} {s t : RunLoop} {w : Watcher} {label : Label}

/-- A run of the process has passed its first look at the flag, now or before. -/
def Entered (cfg : ServiceConfig) (forceReprocess : Bool) (p : RunLoop × Watcher) : Prop :=
  ∃ u labels, (monitored cfg forceReprocess).Reachable u ∧ u.1.service.phase = .downloading ∧
    (monitored cfg forceReprocess).run u labels = some p

theorem Entered.step {p q : RunLoop × Watcher} (h : Entered cfg forceReprocess p)
    (hstep : (monitored cfg forceReprocess).step p label = some q) :
    Entered cfg forceReprocess q := by
  obtain ⟨u, labels, hu, hphase, hrun⟩ := h
  exact ⟨u, labels ++ [label], hu, hphase, Machine.run_snoc _ hrun hstep⟩

end RunLoop

/-- What was published since the gauges were reset. -/
def Watcher.log (w : Watcher) (s : RunLoop) : List Attempt := s.service.shared.log.drop w.since

end MusicbrainzIngestion
