import MusicbrainzIngestion.Pipeline.Frame
import MusicbrainzIngestion.Service.History

/-! What one step of a file's pipeline does, as seen from the loop: to the marker, to the verdict
over the file, and which event it is. -/

namespace MusicbrainzIngestion
open Base

/-- It returned, and so has written its counts. -/
def Batcher.returned (b : Batcher) : Bool :=
  match b.phase with
  | .done result => result.isReturned
  | _ => false

theorem Batcher.isDone_of_returned {b : Batcher} (h : b.returned = true) : b.isDone = true := by
  unfold returned at h
  unfold isDone
  cases hp : b.phase with
  | done => rfl
  | _ =>
    rw [hp] at h
    cases h

/-- The file is not going to be marked as processed. -/
def Main.rejected : Main → Bool
  | .marking false _ => true
  | .finished false _ _ => true
  | _ => false

/-- The count the file was marked with. -/
def Main.completion : Main → Option Nat
  | .finished true totalCount _ => some totalCount
  | _ => none

/-- The file is over and the marker could not be saved. -/
def Main.unsaved : Main → Bool
  | .finished _ _ saved => !saved
  | _ => false

namespace Pipeline

variable {cfg : PipelineConfig} {job : Job} {p q : Pipeline} {dt : DataType}

/-- The verdict so far is the one of the tasks. -/
def Judged (t : Tasks) : Prop :=
  match t.main with
  | .joinBatcher fileSuccess _ | .joinPublisher fileSuccess _ =>
    fileSuccess = false → t.healthy = false
  | .marking fileSuccess _ | .finished fileSuccess _ _ => fileSuccess = true → t.healthy = true
  | _ => True

inductive FileStep (job : Job) (dt : DataType) (p q : Pipeline) : List FileEvent → Prop where
  | quiet (hmarker : q.shared.marker = p.shared.marker) (hmain : q.tasks.main = p.tasks.main)
    (hhealthy : q.tasks.healthy = p.tasks.healthy)
    (htotal : p.tasks.batcher.totalRecords ≤ q.tasks.batcher.totalRecords)
    (hreturned : q.tasks.batcher.returned = true → q.tasks.batcher = p.tasks.batcher) :
    FileStep job dt p q []
  | fails (hmarker : q.shared.marker = p.shared.marker) (hmain : q.tasks.main = p.tasks.main)
    (hbefore : p.tasks.healthy = true) (hafter : q.tasks.healthy = false)
    (htotal : p.tasks.batcher.totalRecords ≤ q.tasks.batcher.totalRecords)
    (hreturned : q.tasks.batcher.returned = true → q.tasks.batcher = p.tasks.batcher) :
    FileStep job dt p q [.faulted dt]
  | joins (hmarker : q.shared.marker = p.shared.marker) (hbatcher : q.tasks.batcher = p.tasks.batcher)
    (hhealthy : q.tasks.healthy = p.tasks.healthy) (hopen : p.tasks.main.collecting = true)
    (hrejected : q.tasks.main.rejected = true → q.tasks.healthy = false)
    (hcompletion : q.tasks.main.completion = none) : FileStep job dt p q []
  | updates (hmarker : q.shared.marker = (p.shared.marker.updateFileProgress job.fileName
        p.tasks.batcher.totalRecords p.tasks.batcher.totalRecords p.tasks.batcher.totalBatches
        p.shared.now).stamped p.shared.now)
    (hmain : q.tasks.main = p.tasks.main) (hhealthy : q.tasks.healthy = p.tasks.healthy)
    (htotal : q.tasks.batcher.totalRecords = p.tasks.batcher.totalRecords)
    (hbatches : q.tasks.batcher.totalBatches = p.tasks.batcher.totalBatches)
    (hopen : p.tasks.batcher.isDone = false) :
    FileStep job dt p q [.updated dt p.tasks.batcher.totalRecords p.tasks.batcher.totalBatches]
  | sends {totalCount : Nat} {reply : Reply} (hmarker : q.shared.marker = p.shared.marker)
    (hbatcher : q.tasks.batcher = p.tasks.batcher) (hhealthy : q.tasks.healthy = p.tasks.healthy)
    (hp : p.tasks.main = .announcing totalCount)
    (hq : q.tasks.main = .marking reply.delivered totalCount) :
    FileStep job dt p q (if reply.delivered then [] else [.faulted dt])
  | marks {fileSuccess saved : Bool} {totalCount : Nat}
    (hp : p.tasks.main = .marking fileSuccess totalCount)
    (hq : q.tasks.main = .finished fileSuccess totalCount saved)
    (hbatcher : q.tasks.batcher = p.tasks.batcher) (hhealthy : q.tasks.healthy = p.tasks.healthy)
    (hmarker : q.shared.marker = (if fileSuccess then
        p.shared.marker.completeFileProcessing job.fileName totalCount p.shared.now
      else p.shared.marker).stamped p.shared.now) :
    FileStep job dt p q (if fileSuccess then [.completed dt totalCount] else [])

theorem updates_same {t t' : Tasks} (h : t'.batcher.phase = t.batcher.phase) : t.updates t' = false := by
  unfold Tasks.updates
  rw [h]
  split <;> simp_all

theorem completes_same {t t' : Tasks} (h : t'.main = t.main) : t.completes t' = none := by
  unfold Tasks.completes
  rw [h]
  split <;> simp_all

/-- A step that neither updates the marker nor moves the orchestrator. -/
theorem FileStep.of_tasks {l : Label} (hl : ∀ reply, l ≠ .sendFileComplete reply)
    (hmarker : q.shared.marker = p.shared.marker) (hmain : q.tasks.main = p.tasks.main)
    (hupdates : p.tasks.updates q.tasks = false)
    (hhealthy : q.tasks.healthy = true → p.tasks.healthy = true)
    (htotal : p.tasks.batcher.totalRecords ≤ q.tasks.batcher.totalRecords)
    (hreturned : q.tasks.batcher.returned = true → q.tasks.batcher = p.tasks.batcher) :
    FileStep job dt p q (p.tasks.events dt l q.tasks) := by
  have hfaults : p.tasks.faults l q.tasks = (p.tasks.healthy && !q.tasks.healthy) := by
    cases l <;> first | rfl | exact absurd rfl (hl _)
  unfold Tasks.events
  rw [hupdates, hfaults, completes_same hmain]
  cases hp : p.tasks.healthy with
  | false =>
    have hq : q.tasks.healthy = false := by
      by_contra hne
      rw [Bool.not_eq_false] at hne
      exact Bool.noConfusion (hp.symm.trans (hhealthy hne))
    exact .quiet hmarker hmain (hq.trans hp.symm) htotal hreturned
  | true =>
    cases hq : q.tasks.healthy with
    | false => exact .fails hmarker hmain hp hq htotal hreturned
    | true => exact .quiet hmarker hmain (hq.trans hp.symm) htotal hreturned

/-- The batcher writes its counts into the marker. -/
theorem FileStep.of_update {l : Label} (hl : ∀ reply, l ≠ .sendFileComplete reply)
    (hmarker : q.shared.marker = (p.shared.marker.updateFileProgress job.fileName
        p.tasks.batcher.totalRecords p.tasks.batcher.totalRecords p.tasks.batcher.totalBatches
        p.shared.now).stamped p.shared.now)
    (hmain : q.tasks.main = p.tasks.main) (hhealthy : q.tasks.healthy = p.tasks.healthy)
    (htotal : q.tasks.batcher.totalRecords = p.tasks.batcher.totalRecords)
    (hbatches : q.tasks.batcher.totalBatches = p.tasks.batcher.totalBatches)
    (hopen : p.tasks.batcher.isDone = false) (hupdates : p.tasks.updates q.tasks = true) :
    FileStep job dt p q (p.tasks.events dt l q.tasks) := by
  have hfaults : p.tasks.faults l q.tasks = (p.tasks.healthy && !p.tasks.healthy) := by
    rw [← hhealthy]
    cases l <;> first | exact congrArg (· && _) hhealthy.symm | exact absurd rfl (hl _)
  unfold Tasks.events
  rw [hupdates, hfaults, Bool.and_not_self, completes_same hmain]
  exact .updates hmarker hmain hhealthy htotal hbatches hopen

/-- The orchestrator awaits one more task. -/
theorem FileStep.of_join {l : Label} (hl : ∀ reply, l ≠ .sendFileComplete reply) {main : Main}
    (hopen : p.tasks.main.collecting = true)
    (hrejected : main.rejected = true → p.tasks.healthy = false) (hcompletion : main.completion = none) :
    FileStep job dt p (p.setMain main) (p.tasks.events dt l (p.setMain main).tasks) := by
  have hupdates : p.tasks.updates (p.setMain main).tasks = false := updates_same rfl
  have hfaults : p.tasks.faults l (p.setMain main).tasks = (p.tasks.healthy && !p.tasks.healthy) := by
    cases l <;> first | rfl | exact absurd rfl (hl _)
  have hcompletes : p.tasks.completes (p.setMain main).tasks = none := by
    unfold Tasks.completes
    cases hm : p.tasks.main with
    | marking => simp [hm, Main.collecting] at hopen
    | _ => rfl
  unfold Tasks.events
  rw [hupdates, hfaults, hcompletes, Bool.and_not_self]
  exact .joins rfl rfl rfl hopen hrejected hcompletion

/-- The orchestrator moves. -/
def Label.orchestrates : Label → Bool
  | .join => true
  | .sendFileComplete _ => true
  | .markFile _ => true
  | _ => false

/-- No other step moves the orchestrator. -/
theorem main_kept {l : Label} (hstep : step cfg job p l = some q) (hl : l.orchestrates = false) :
    q.tasks.main = p.tasks.main := by
  cases l with
  | join | sendFileComplete | markFile => cases hl
  | tick elapsed =>
    cases hstep
    rfl
  | batcherCheckpoint saved | batcherSave saved | parserPanic | batcherPanic | publisherPanic
  | batcherTimeout elapsed | parserOpen fault | parserRead fault | parserSend | batcherRecv
  | batcherFlush | publisherRecv fault | publisherPublish reply =>
    simp only [step, batcherCheckpoint, batcherSave, parserPanic, batcherPanic, publisherPanic,
      batcherTimeout, parserOpen, parserRead, parserSend, batcherRecv, batcherFlush, publisherRecv,
      publisherPublish] at hstep
    repeat' split at hstep
    all_goals first | exact (Option.some_ne_none _ hstep.symm).elim | (cases hstep; rfl)

/-- The completion of a file is announced by no other step. -/
theorem announcing_kept {l : Label} (hstep : step cfg job p l = some q)
    (hl : ∀ reply, l ≠ .sendFileComplete reply) {n : Nat} (hp : p.tasks.main = .announcing n) :
    q.tasks.main = .announcing n := by
  cases hm : l.orchestrates with
  | false => exact (main_kept hstep hm).trans hp
  | true =>
    cases l with
    | sendFileComplete reply => exact absurd rfl (hl reply)
    | join | markFile => simp [step, join, markFile, hp] at hstep
    | _ => cases hm

/-- A save that succeeds is not shown as one that failed. -/
theorem saved_kept {l : Label} (hstep : step cfg job p l = some q) (hl : l ≠ .markFile false)
    (hp : p.tasks.main.unsaved = false) : q.tasks.main.unsaved = false := by
  cases hm : l.orchestrates with
  | false => rw [main_kept hstep hm, hp]
  | true =>
    cases l with
    | markFile saved =>
      cases saved with
      | false => exact absurd rfl hl
      | true =>
        simp only [step, markFile] at hstep
        split at hstep <;> cases hstep
        rfl
    | sendFileComplete reply =>
      simp only [step, sendFileComplete] at hstep
      repeat' split at hstep
      all_goals first | exact (Option.some_ne_none _ hstep.symm).elim | (cases hstep; rfl)
    | join =>
      simp only [step, join] at hstep
      repeat' split at hstep
      all_goals first | exact (Option.some_ne_none _ hstep.symm).elim | (cases hstep; rfl)
    | _ => cases hm

/-- Sending the completion of a file, delivered or not. -/
theorem fileStep_send {reply : Reply} (hstep : step cfg job p (.sendFileComplete reply) = some q) :
    FileStep job dt p q (p.tasks.events dt (.sendFileComplete reply) q.tasks) := by
  obtain ⟨totalCount, hp, hq⟩ : ∃ totalCount, p.tasks.main = .announcing totalCount ∧
      q = ((p.setMain (.marking reply.delivered totalCount)).setShared
        (p.shared.publish job.dataType (p.fileComplete job totalCount) reply)) := by
    simp only [step, sendFileComplete] at hstep
    split at hstep
    · next totalCount hp =>
      refine ⟨totalCount, hp, ?_⟩
      split at hstep <;> cases hstep
      · next hr =>
        rw [(publishResult_ok _ _).mp hr]
        rfl
      · next hr =>
        rw [publishResult_error hr]
        rfl
    · cases hstep
  subst hq
  have hevents : p.tasks.events dt (.sendFileComplete reply) (p.setMain
      (.marking reply.delivered totalCount)).tasks = if reply.delivered then [] else [.faulted dt] := by
    have hupdates : p.tasks.updates (p.setMain (.marking reply.delivered totalCount)).tasks = false :=
      updates_same rfl
    unfold Tasks.events
    rw [hupdates, Tasks.completes]
    by_cases hr : reply.delivered = true <;> simp [hp, Tasks.faults, hr]
  have hsends : FileStep job dt p ((p.setMain (.marking reply.delivered totalCount)).setShared
      (p.shared.publish job.dataType (p.fileComplete job totalCount) reply)) _ :=
    .sends rfl rfl rfl hp rfl
  rw [← hevents] at hsends
  exact hsends

theorem fileStep {l : Label} (hstep : step cfg job p l = some q) (hj : Judged p.tasks) :
    FileStep job dt p q (p.tasks.events dt l q.tasks) := by
  by_cases hl : ∃ reply, l = .sendFileComplete reply
  · obtain ⟨reply, rfl⟩ := hl
    exact fileStep_send hstep
  · have hl : ∀ reply, l ≠ .sendFileComplete reply := fun reply heq => hl ⟨reply, heq⟩
    have hhealthy := healthy_of_move (step_move hstep)
    cases step_move hstep with
    | announces hp reply =>
      have hkept := announcing_kept hstep hl hp
      cases hkept
    | @marks fileSuccess totalCount hp saved =>
      have hmarks : FileStep job dt p ((p.setMain (.finished fileSuccess totalCount saved)).setShared
          ({ p.shared with marker := if fileSuccess then
              p.shared.marker.completeFileProcessing job.fileName totalCount p.shared.now
            else p.shared.marker }.save saved)) _ := .marks hp rfl rfl rfl rfl
      have hfaults : p.tasks.faults l (p.setMain (.finished fileSuccess totalCount saved)).tasks =
          (p.tasks.healthy && !p.tasks.healthy) := by
        cases l <;> first | rfl | exact absurd rfl (hl _)
      have hupdates : p.tasks.updates (p.setMain (.finished fileSuccess totalCount saved)).tasks =
          false := updates_same rfl
      have hevents : p.tasks.events dt l (p.setMain (.finished fileSuccess totalCount saved)).tasks =
          if fileSuccess then [.completed dt totalCount] else [] := by
        unfold Tasks.events
        rw [hupdates, hfaults, Bool.and_not_self, Tasks.completes, hp]
        cases fileSuccess <;> rfl
      rw [← hevents] at hmarks
      exact hmarks
    | batcherCheckpoints hp saved =>
      have hphase : (sizeCheck cfg p.tasks.batcher).phase = .receiving ∨
          ∃ messages, (sizeCheck cfg p.tasks.batcher).phase = .flushing messages false := by
        unfold sizeCheck
        split
        · exact Or.inr ⟨_, rfl⟩
        · exact Or.inl rfl
      have hbatcher : (sizeCheck cfg p.tasks.batcher).healthy = p.tasks.batcher.healthy := by
        unfold Batcher.healthy
        rw [hp]
        rcases hphase with hphase | ⟨messages, hphase⟩ <;> rw [hphase]
      refine .of_update hl rfl rfl ?_ (sizeCheck_totalRecords _ _) ?_ (by simp [Batcher.isDone, hp]) ?_
      · simp only [Tasks.healthy, setShared, setBatcher, hbatcher]
      · unfold setShared setBatcher sizeCheck
        dsimp only
        split <;> rfl
      · simp only [Tasks.updates, setShared, setBatcher, hp]
        rcases hphase with hphase | ⟨messages, hphase⟩ <;> rw [hphase]
    | batcherSaves hp saved =>
      refine .of_update hl rfl rfl ?_ rfl rfl (by simp [Batcher.isDone, hp]) ?_
      · simp [Tasks.healthy, batcherDone, setShared, Batcher.healthy, hp, TaskResult.isReturned]
      · simp [Tasks.updates, batcherDone, setShared, hp]
    | @joinsParser result hp hd =>
      refine .of_join hl (by rw [hp]; rfl) (fun hr => ?_) ?_ <;> cases result <;>
        first | rfl | cases hr
    | joinsBatcher hp hd =>
      refine .of_join hl (by rw [hp]; rfl) (fun hr => ?_) rfl
      cases hr
    | @joinsPublisher fileSuccess totalCount result hp hd =>
      rw [Judged, hp] at hj
      refine .of_join hl (by rw [hp]; rfl) (fun hr => ?_) ?_
      · cases fileSuccess with
        | false => exact hj rfl
        | true =>
          cases result with
          | returned => cases hr
          | failed | panicked => simp [Tasks.healthy, hd, Publisher.healthy, TaskResult.isReturned]
      · cases fileSuccess && result.isReturned <;> rfl
    | @batcherReceives msg buffer hp hc =>
      have hopen := (afterRecv_open cfg (taken p.tasks.batcher msg)).1
      have htotal := afterRecv_totalRecords cfg p.tasks.batcher msg
      refine .of_tasks hl rfl rfl (by simp [Tasks.updates, hp]) hhealthy ?_ fun hr => ?_
      · exact (Nat.le_succ _).trans (Nat.le_of_eq htotal.symm)
      · exact Bool.noConfusion (hopen.symm.trans (Batcher.isDone_of_returned hr))
    | batcherCloses hp =>
      have hopen := (afterClose_closing p.tasks.batcher).1
      refine .of_tasks hl rfl rfl (by simp [Tasks.updates, hp]) hhealthy ?_ fun hr => ?_
      · exact Nat.le_of_eq (afterClose_totalRecords _).symm
      · exact Bool.noConfusion (hopen.symm.trans (Batcher.isDone_of_returned hr))
    | batcherTimesOut hp =>
      refine .of_tasks hl rfl rfl (by simp [Tasks.updates, hp]) hhealthy (Nat.le_refl _) fun hr => ?_
      cases hr
    | @batcherFlushes messages final hp =>
      refine .of_tasks hl rfl rfl (by simp [Tasks.updates, hp]) hhealthy (Nat.le_refl _) fun hr => ?_
      cases final <;> cases hr
    | @batcherFails result hp hr =>
      refine .of_tasks hl rfl rfl ?_ hhealthy (Nat.le_refl _) fun hret => ?_
      · unfold Tasks.updates batcherDone
        cases result <;> cases hr <;> split <;> simp_all
      · exact absurd (hr.symm.trans hret) (by simp)
    | _ => exact .of_tasks hl rfl rfl (updates_same rfl) hhealthy (Nat.le_refl _) fun _ => rfl

/-! ## The verdict over a file -/

/-- Once all tasks were awaited none of them changes. -/
theorem healthy_fixed (h : Move cfg job p q) (hj : Joined p.tasks)
    (hover : p.tasks.main.collecting = false) : q.tasks.healthy = p.tasks.healthy := by
  obtain ⟨hparser, hbatcher, hpublisher⟩ : p.tasks.parser.isDone = true ∧
      p.tasks.batcher.isDone = true ∧ p.tasks.publisher.isDone = true := by
    unfold Joined at hj
    cases hm : p.tasks.main with
    | marking | finished =>
      rw [hm] at hj
      exact hj
    | _ => simp [hm, Main.collecting] at hover
  unfold Tasks.healthy
  rw [parser_fixed h hparser, batcher_fixed h hbatcher, publisher_fixed h hpublisher]

theorem unhealthy_of_move (h : Move cfg job p q) (hp : p.tasks.healthy = false) :
    q.tasks.healthy = false := by
  by_contra hq
  rw [Bool.not_eq_false] at hq
  exact Bool.noConfusion (hp.symm.trans (healthy_of_move h hq))

theorem judged_of_main (h : Move cfg job p q) (hj : Joined p.tasks) (hg : Judged p.tasks)
    (hmain : q.tasks.main = p.tasks.main) : Judged q.tasks := by
  unfold Judged at hg ⊢
  rw [hmain]
  cases hm : p.tasks.main with
  | joinBatcher | joinPublisher =>
    rw [hm] at hg
    exact fun hs => unhealthy_of_move h (hg hs)
  | marking | finished =>
    rw [hm] at hg
    exact fun hs => (healthy_fixed h hj (by rw [hm]; rfl)).trans (hg hs)
  | _ => trivial

theorem judged_move (h : Move cfg job p q) (hj : Joined p.tasks) (hg : Judged p.tasks) :
    Judged q.tasks := by
  have hkept := judged_of_main h hj hg
  cases h with
  | @joinsParser result hp hd =>
    cases result with
    | returned => exact fun hs => Bool.noConfusion hs
    | failed | panicked =>
      exact fun _ => by simp [setMain, Tasks.healthy, hd, Parser.healthy, TaskResult.isReturned]
  | @joinsBatcher fileSuccess totalCount result hp hd =>
    rw [Judged, hp] at hg
    intro hs
    cases fileSuccess with
    | false => exact hg rfl
    | true =>
      have hfailed : result.isReturned = false := hs
      simp [setMain, Tasks.healthy, Batcher.healthy, hd, hfailed]
  | @joinsPublisher fileSuccess totalCount result hp hd =>
    unfold Judged setMain
    dsimp only
    cases fileSuccess && result.isReturned with
    | true => trivial
    | false => exact fun hs => Bool.noConfusion hs
  | @announces totalCount hp reply =>
    rw [Joined, hp] at hj
    obtain ⟨hparser, hbatcher, hpublisher⟩ := hj
    exact fun _ => by simp [setMain, setShared, Tasks.healthy, hparser, Parser.healthy,
      Batcher.healthy, hbatcher, hpublisher, Publisher.healthy, TaskResult.isReturned]
  | @marks fileSuccess totalCount hp saved =>
    rw [Judged, hp] at hg
    exact hg
  | _ => exact hkept rfl

/-- A file that is going to be marked has a batcher that returned. -/
theorem returned_of_marking (hj : Joined p.tasks) (hg : Judged p.tasks) {totalCount : Nat}
    (hp : p.tasks.main = .marking true totalCount) : p.tasks.batcher.returned = true := by
  rw [Joined, hp] at hj
  rw [Judged, hp] at hg
  have hhealthy := hg rfl
  simp only [Tasks.healthy, Bool.and_eq_true] at hhealthy
  have hdone := hj.2.1
  have hbatcher := hhealthy.1.2
  unfold Batcher.isDone at hdone
  unfold Batcher.healthy at hbatcher
  unfold Batcher.returned
  cases hphase : p.tasks.batcher.phase with
  | done result =>
    rw [hphase] at hbatcher
    exact hbatcher
  | _ =>
    rw [hphase] at hdone
    cases hdone

/-! ## The history of a file in work -/

/-- What the history says of the file in work is what its tasks know. -/
structure Told (cfg : ServiceConfig) (m₀ : StateMarker) (dt : DataType) (h : List FileEvent)
    (s : Shared) (tasks : Tasks) : Prop where
  image : Image cfg.dump m₀ h s.marker
  last : (History.started h).getLast? = some dt
  faulted : .faulted dt ∈ h ↔ tasks.healthy = false ∨ tasks.main.rejected = true
  counted : (History.counts h dt).1 ≤ tasks.batcher.totalRecords
  returned : tasks.batcher.returned = true →
    (History.counts h dt).1 = tasks.batcher.totalRecords ∧
      ∀ c, History.leftover cfg.dump m₀ h c = 0
  completion : History.completion h dt = tasks.main.completion

theorem Main.rejected_of_collecting {main : Main} (h : main.collecting = true) :
    main.rejected = false ∧ main.completion = none := by
  cases main <;> first | exact ⟨rfl, rfl⟩ | cases h

namespace Told

variable {cfg : ServiceConfig} {m₀ : StateMarker} {h es : List FileEvent}

theorem started {s : Shared} {tasks : Tasks} (ht : Told cfg m₀ dt h s tasks) :
    dt ∈ History.started h := List.mem_of_getLast? ht.last

theorem fault (ht : Told cfg m₀ dt h p.shared p.tasks) (hmarker : q.shared.marker = p.shared.marker)
    (hfaulted : q.tasks.healthy = false ∨ q.tasks.main.rejected = true)
    (hcompletion : q.tasks.main.completion = p.tasks.main.completion)
    (htotal : p.tasks.batcher.totalRecords ≤ q.tasks.batcher.totalRecords)
    (hreturned : q.tasks.batcher.returned = true → q.tasks.batcher = p.tasks.batcher) :
    Told cfg m₀ dt (h ++ [.faulted dt]) q.shared q.tasks where
  image := by
    rw [hmarker]
    exact ht.image.silent rfl (fun _ => rfl) (fun _ => rfl) fun _ _ => rfl
  last := by
    rw [History.started_snoc]
    simpa [FileEvent.file] using ht.last
  faulted := iff_of_true (by simp) hfaulted
  counted := by
    rw [History.counts_snoc]
    exact ht.counted.trans htotal
  returned hr := by
    have hb := hreturned hr
    rw [hb] at hr ⊢
    rw [History.counts_snoc]
    refine ⟨(ht.returned hr).1, fun c => ?_⟩
    rw [History.leftover_snoc]
    exact (ht.returned hr).2 c
  completion := by
    rw [History.completion_snoc, hcompletion]
    exact ht.completion

/-- Nothing is told, and nothing was to be. -/
theorem same (ht : Told cfg m₀ dt h p.shared p.tasks) (hmarker : q.shared.marker = p.shared.marker)
    (hfaulted : (p.tasks.healthy = false ∨ p.tasks.main.rejected = true) ↔
      (q.tasks.healthy = false ∨ q.tasks.main.rejected = true))
    (hcompletion : q.tasks.main.completion = p.tasks.main.completion)
    (htotal : p.tasks.batcher.totalRecords ≤ q.tasks.batcher.totalRecords)
    (hreturned : q.tasks.batcher.returned = true → q.tasks.batcher = p.tasks.batcher) :
    Told cfg m₀ dt (h ++ []) q.shared q.tasks := by
  rw [List.append_nil]
  refine ⟨by rw [hmarker]; exact ht.image, ht.last, ht.faulted.trans hfaulted,
    ht.counted.trans htotal, fun hr => ?_, ht.completion.trans hcompletion.symm⟩
  have hb := hreturned hr
  rw [hb] at hr ⊢
  exact ht.returned hr

theorem update (ht : Told cfg m₀ dt h p.shared p.tasks)
    (hmarker : q.shared.marker = (p.shared.marker.updateFileProgress (cfg.dump.fileName dt)
      p.tasks.batcher.totalRecords p.tasks.batcher.totalRecords p.tasks.batcher.totalBatches
      p.shared.now).stamped p.shared.now)
    (hmain : q.tasks.main = p.tasks.main) (hhealthy : q.tasks.healthy = p.tasks.healthy)
    (htotal : q.tasks.batcher.totalRecords = p.tasks.batcher.totalRecords)
    (hopen : p.tasks.main.completion = none) :
    Told cfg m₀ dt (h ++ [.updated dt p.tasks.batcher.totalRecords p.tasks.batcher.totalBatches])
      q.shared q.tasks := by
  have hcounts : (History.counts (h ++ [.updated dt p.tasks.batcher.totalRecords
      p.tasks.batcher.totalBatches]) dt).1 = p.tasks.batcher.totalRecords := by
    rw [History.counts_snoc, FileEvent.update, if_pos rfl]
    rfl
  refine ⟨?_, ?_, ?_, ?_, fun _ => ⟨hcounts.trans htotal.symm, fun c => ?_⟩, ?_⟩
  · rw [hmarker]
    exact (ht.image.update ht.started (ht.completion.trans hopen) ht.counted _ _).stamped _
  · rw [History.started_snoc]
    simpa [FileEvent.file] using ht.last
  · rw [hmain, hhealthy, ← ht.faulted]
    simp
  · rw [hcounts, htotal]
  · rw [History.leftover_snoc]
    rfl
  · rw [History.completion_snoc, hmain]
    exact ht.completion

theorem complete (ht : Told cfg m₀ dt h p.shared p.tasks) {n : Nat} {saved : Bool}
    (hp : p.tasks.main = .marking true n) (hq : q.tasks.main = .finished true n saved)
    (hbatcher : q.tasks.batcher = p.tasks.batcher) (hhealthy : q.tasks.healthy = p.tasks.healthy)
    (hreturned : p.tasks.batcher.returned = true) (htotal : p.tasks.batcher.totalRecords = n)
    (hmarker : q.shared.marker = (p.shared.marker.completeFileProcessing (cfg.dump.fileName dt) n
      p.shared.now).stamped p.shared.now) :
    Told cfg m₀ dt (h ++ [.completed dt n]) q.shared q.tasks := by
  obtain ⟨hcounts, hleft⟩ := ht.returned hreturned
  have hopen : History.completion h dt = none := by
    rw [ht.completion, hp]
    rfl
  refine ⟨?_, ?_, ?_, ?_, fun _ => ?_, ?_⟩
  · rw [hmarker]
    exact (ht.image.complete ht.last hopen (hcounts.trans htotal) hleft _).stamped _
  · rw [History.started_snoc]
    simpa [FileEvent.file] using ht.last
  · have hsame := ht.faulted
    rw [hp] at hsame
    rw [hq, hhealthy]
    simpa [Main.rejected] using hsame
  · rw [History.counts_snoc, hbatcher]
    exact ht.counted
  · rw [History.counts_snoc, hbatcher]
    refine ⟨hcounts, fun c => ?_⟩
    rw [History.leftover_snoc]
    exact hleft c
  · rw [History.completion_snoc, FileEvent.completion, if_pos rfl, hq]
    rfl

theorem step (ht : Told cfg m₀ dt h p.shared p.tasks) (hstep : FileStep job dt p q es)
    (hname : job.fileName = cfg.dump.fileName dt) (hj : Joined p.tasks) (hg : Judged p.tasks)
    (hs : ∀ n, p.tasks.main.succeeded = some n → p.tasks.batcher.totalRecords = n) :
    Told cfg m₀ dt (h ++ es) q.shared q.tasks := by
  cases hstep with
  | quiet hmarker hmain hhealthy htotal hreturned =>
    exact ht.same hmarker (by rw [hmain, hhealthy]) (by rw [hmain]) htotal hreturned
  | fails hmarker hmain hbefore hafter htotal hreturned =>
    exact ht.fault hmarker (Or.inl hafter) (by rw [hmain]) htotal hreturned
  | joins hmarker hbatcher hhealthy hopen hrejected hcompletion =>
    obtain ⟨hnot, hnone⟩ := Main.rejected_of_collecting hopen
    refine ht.same hmarker ?_ (hcompletion.trans hnone.symm) (by rw [hbatcher]) fun _ => hbatcher
    rw [hnot, ← hhealthy]
    constructor
    · rintro (hh | hh)
      · exact Or.inl hh
      · cases hh
    · rintro (hh | hh)
      · exact Or.inl hh
      · exact Or.inl (hrejected hh)
  | updates hmarker hmain hhealthy htotal hbatches hopen =>
    rw [hname] at hmarker
    refine ht.update hmarker hmain hhealthy htotal ?_
    have hfinished := isFinished_false_of_task hj hopen
    cases hm : p.tasks.main with
    | finished => simp [hm, Main.isFinished] at hfinished
    | _ => rfl
  | @sends n reply hmarker hbatcher hhealthy hp hq =>
    cases hr : reply.delivered with
    | true =>
      rw [hr] at hq
      exact ht.same hmarker (by rw [hp, hq, hhealthy]; simp [Main.rejected]) (by rw [hp, hq]; rfl)
        (by rw [hbatcher]) fun _ => hbatcher
    | false =>
      rw [hr] at hq
      exact ht.fault hmarker (Or.inr (by rw [hq]; rfl)) (by rw [hp, hq]; rfl) (by rw [hbatcher])
        fun _ => hbatcher
  | @marks fileSuccess saved n hp hq hbatcher hhealthy hmarker =>
    cases fileSuccess with
    | true =>
      rw [hname] at hmarker
      exact ht.complete hp hq hbatcher hhealthy (returned_of_marking hj hg hp)
        (hs n (by rw [hp]; rfl)) hmarker
    | false =>
      have himage := ht.image.stamped p.shared.now
      have hsame : Told cfg m₀ dt h { p.shared with marker := p.shared.marker.stamped p.shared.now }
          p.tasks := ⟨himage, ht.last, ht.faulted, ht.counted, ht.returned, ht.completion⟩
      exact Told.same (p := ⟨{ p.shared with marker := p.shared.marker.stamped p.shared.now },
        p.tasks⟩) hsame hmarker (by rw [hp, hq, hhealthy]; simp [Main.rejected]) (by rw [hp, hq]; rfl)
        (by rw [hbatcher]) fun _ => hbatcher

end Told

end Pipeline

end MusicbrainzIngestion
