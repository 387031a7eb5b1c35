import MusicbrainzIngestion.Service.Phases

/-! A file in work. Its pipeline's invariant, against the state the file was started in,
gives what the markers in memory and on disk say at every point, and what is left behind
when the file is done. -/

namespace MusicbrainzIngestion
open Base

variable {cfg : ServiceConfig} {l : Lineage} {run run' : Run} {s s₁ : Service} {sh : Shared}
  {dt : DataType} {rest : List DataType} {source : Source} {tasks : Tasks} {m : StateMarker}
  {base log : List Attempt} {n : Nat}

theorem FileDelivered.of_delivered (h : Pipeline.Delivered (cfg.job dt source) base log n)
    {k : Nat} (hk : k ≤ base.length) : FileDelivered cfg dt source n (log.drop k) := by
  obtain ⟨attempts, announcement, hlog, hrest⟩ := h
  refine ⟨attempts ++ [announcement], ?_, attempts, announcement, rfl, hrest⟩
  rw [hlog, List.drop_append_of_le_length hk]
  exact (List.suffix_append _ _).isInfix

theorem Between.unfinished (h : Between cfg l run sh rest) :
    sh.marker.summary.overallStatus ≠ .completed := fun hc => by
  have hdone := h.lineage.overall.mp hc
  rw [h.running] at hdone
  cases hdone

theorem Between.isSome (h : Between cfg l run sh rest) : l.started.isSome = true := by
  rw [h.begun]
  rfl

/-- What a run keeps that these facts do not read may change, and it may fail. -/
theorem Between.withRun (h : Between cfg l run sh rest)
    (hbegun : run'.processingStartedAt = run.processingStartedAt)
    (hloaded : run'.loaded = run.loaded) (hbefore : run'.publishedBefore = run.publishedBefore)
    (hfiles : run'.dumpFiles = run.dumpFiles) (hcounts : run'.recordCounts = run.recordCounts)
    (hsuccess : run'.success = true → run.success = true) : Between cfg l run' sh rest where
  lineage := h.lineage
  running := h.running
  begun := by rw [hbegun]; exact h.begun
  resumed := by
    unfold Resumed
    rw [hloaded]
    exact h.resumed
  unrepeated := ⟨by rw [hbefore]; exact h.unrepeated.before, by
    rw [hloaded, hbefore]; exact h.unrepeated.skipped⟩
  counted := {
    suffix := by rw [hfiles]; exact h.counted.suffix
    nodup := by rw [hfiles]; exact h.counted.nodup
    todo := h.counted.todo
    done := fun hs => by rw [hfiles, hcounts]; exact h.counted.done (hsuccess hs)
    keys := by rw [hcounts, hfiles]; exact h.counted.keys }

/-- The markers while the file is open, or once it was marked. -/
theorem Pipeline.MarkerFrame.split {job : Job} {m₀ : StateMarker} {main : Main}
    (h : Pipeline.MarkerFrame job m₀ main sh) :
    (main.marked = false ∧ main.markSaved = false ∧ sh.InWork job m₀) ∨
      ∃ n saved, main = .finished true n saved ∧
        StateMarker.Marked job.fileName n m₀ sh.marker ∧
        ∀ m, sh.disk = some m → if saved then m = sh.marker else InWork job m₀ m := by
  cases main with
  | finished fileSuccess n saved =>
    cases fileSuccess with
    | false => exact Or.inl ⟨rfl, rfl, h⟩
    | true => exact Or.inr ⟨n, saved, rfl, h⟩
  | _ => exact Or.inl ⟨rfl, rfl, h⟩

namespace InFile

variable {s₁ : Shared}

/-- A marker in which the file is started is backed by what was published by now. -/
theorem lineageOk_inWork (h : InFile cfg s dt rest source tasks s₁ l)
    (hw : InWork (cfg.job dt source) s₁.marker m) :
    LineageOk cfg l s.shared.now s.shared.log m := by
  have hgrown := h.pipeline.frame.grown
  obtain ⟨attempts, hlog, hall⟩ := hgrown.log
  have hline := h.before.lineage.grow hgrown.clock (fun a ha => (hall a ha).2)
    (Or.inl h.before.isSome)
  rw [show s.shared.log = s₁.log ++ attempts from hlog]
  exact hline.agrees hw.1 (Or.inl ⟨_, hw.2⟩)

theorem lineageOk_marked (h : InFile cfg s dt rest source tasks s₁ l) {saved : Bool}
    (hmain : tasks.main = .finished true n saved)
    (hm : StateMarker.Marked (cfg.dump.fileName dt) n s₁.marker m) :
    LineageOk cfg (Service.Lineage.mark l dt source) s.shared.now s.shared.log m := by
  have hgrown := h.pipeline.frame.grown
  obtain ⟨attempts, hlog, hall⟩ := hgrown.log
  have hline := h.before.lineage.grow hgrown.clock (fun a ha => (hall a ha).2)
    (Or.inl h.before.isSome)
  have hdelivered := (Pipeline.delivered_of_finished h.pipeline hmain).1
  rw [← hlog] at hline
  exact hline.mark hm (.of_delivered hdelivered h.before.lineage.since) h.before.isSome
    h.before.unfinished

/-- The marker in memory. -/
theorem held (h : InFile cfg s dt rest source tasks s₁ l) :
    LineageOk cfg s.run.lineage s.shared.now s.shared.log s.shared.marker := by
  rw [h.lineage]
  rcases h.pipeline.frame.marker.split with ⟨hmarked, -, hwork⟩ | ⟨n, saved, hmain, hmarked, -⟩
  · rw [show tasks.main.marked = false from hmarked]
    exact h.lineageOk_inWork hwork.1
  · rw [show tasks.main = .finished true n saved from hmain]
    exact h.lineageOk_marked hmain hmarked

/-- The marker on disk. -/
theorem diskOk (h : InFile cfg s dt rest source tasks s₁ l) : DiskOk cfg s := by
  intro m hm
  rw [h.disk]
  rcases h.pipeline.frame.marker.split with ⟨-, hsaved, hwork⟩ | ⟨n, saved, hmain, hmarked, hdisk⟩
  · rw [show tasks.main.markSaved = false from hsaved]
    exact ⟨h.lineageOk_inWork (hwork.2 m hm), h.before.isSome⟩
  · rw [show tasks.main = .finished true n saved from hmain]
    have hd := hdisk m hm
    cases saved with
    | false => exact ⟨h.lineageOk_inWork hd, h.before.isSome⟩
    | true =>
      refine ⟨?_, h.before.isSome⟩
      rw [show m = s.shared.marker from hd]
      exact h.lineageOk_marked hmain hmarked

/-- Everything the file published went to its own exchange, and the loaded marker did not
show it as completed. -/
theorem unrepeated (h : InFile cfg s dt rest source tasks s₁ l) :
    Unrepeated cfg s.run s.shared.log := by
  obtain ⟨attempts, hlog, hall⟩ := h.pipeline.frame.grown.log
  have hbefore := h.before.unrepeated.before
  rw [show s.shared.log = s₁.log ++ attempts from hlog]
  refine ⟨le_trans hbefore (by simp), fun loaded hl a ha hdata => ?_⟩
  rw [List.drop_append_of_le_length hbefore] at ha
  rcases List.mem_append.mp ha with ha | ha
  · exact h.before.unrepeated.skipped loaded hl a ha hdata
  · rw [show a.exchange = dt from (hall a ha).1.exchange]
    have hpending := h.before.resumed loaded hl (cfg.dump.fileName dt)
    rw [h.pending] at hpending
    cases hc : loaded.completedRecords (cfg.dump.fileName dt) with
    | none => rfl
    | some n =>
      rw [hc] at hpending
      cases hpending rfl

end InFile

/-! ## From one file to the next -/

/-- The file at the head is settled: its count is recorded, and if the run is still
successful then the marker and the tally agree with it. -/
theorem Counted.settle {sh' : Shared} (h : Counted cfg run sh (dt :: rest))
    (hfiles : run'.dumpFiles = run.dumpFiles)
    (hcounts : run'.recordCounts = run.recordCounts.insert dt.asStr n)
    (hothers : ∀ dt', dt' ≠ dt → sh'.progress.get dt' = sh.progress.get dt' ∧
      sh'.marker.completedRecords (cfg.dump.fileName dt') =
        sh.marker.completedRecords (cfg.dump.fileName dt'))
    (hself : run'.success = true → run.success = true ∧
      sh'.marker.completedRecords (cfg.dump.fileName dt) = some n ∧ sh'.progress.get dt = n) :
    Counted cfg run' sh' rest where
  suffix := by
    rw [hfiles]
    exact (List.suffix_cons dt rest).trans h.suffix
  nodup := by
    rw [hfiles]
    exact h.nodup
  todo dt' hdt' := by
    have hnot : dt ∉ rest := (List.nodup_cons.mp (h.nodup.sublist h.suffix.sublist)).1
    obtain ⟨hprogress, hcompleted⟩ := hothers dt' (fun heq => hnot (heq ▸ hdt'))
    rw [hprogress, hcompleted]
    exact h.todo dt' (List.mem_cons_of_mem _ hdt')
  done hs dt' hmem hnot := by
    obtain ⟨hsuccess, hrecords, htally⟩ := hself hs
    by_cases heq : dt' = dt
    · subst heq
      exact ⟨n, hrecords, by rw [hcounts, AList.lookup_insert], htally⟩
    · obtain ⟨hprogress, hcompleted⟩ := hothers dt' heq
      rw [hfiles] at hmem
      obtain ⟨k, hk, hcount, htold⟩ := h.done hsuccess dt' hmem (by simp [heq, hnot])
      refine ⟨k, hcompleted.trans hk, ?_, hprogress.trans htold⟩
      rw [hcounts, AList.lookup_insert_ne (fun hn => heq (DataType.asStr_injective hn))]
      exact hcount
  keys k hk := by
    rw [hcounts, AList.mem_insert] at hk
    rw [hfiles]
    rcases hk with rfl | hk
    · exact ⟨dt, h.suffix.subset List.mem_cons_self, rfl⟩
    · exact h.keys k hk

/-- A file that was completed before is counted and passed over. -/
theorem Between.skip (h : Between cfg l run sh (dt :: rest))
    (hn : sh.marker.completedRecords (cfg.dump.fileName dt) = some n) :
    Between cfg l { run with recordCounts := run.recordCounts.insert dt.asStr n } sh rest where
  lineage := h.lineage
  running := h.running
  begun := h.begun
  resumed := h.resumed
  unrepeated := ⟨h.unrepeated.before, h.unrepeated.skipped⟩
  counted := h.counted.settle rfl rfl (fun _ _ => ⟨rfl, rfl⟩) fun hs =>
    ⟨hs, hn, by rw [h.counted.todo dt List.mem_cons_self, hn]; rfl⟩

theorem InFile.start (h : Between cfg s.run.lineage s.run s.shared (dt :: rest))
    (hd : s.diskLineage = s.run.lineage)
    (hn : s.shared.marker.completedRecords (cfg.dump.fileName dt) = none) (source : Source)
    (phase : Phase) :
    let sh := (Pipeline.start cfg.pipeline (cfg.job dt source) s.shared).shared
    InFile cfg { s with shared := sh, phase := phase } dt rest source (Tasks.spawn cfg.pipeline)
      sh s.run.lineage where
  before := {
    lineage := (h.lineage.startFileProcessing h.isSome hn _).stamped _
    running := (StateMarker.processing_startFileProcessing _).1.trans h.running
    begun := h.begun
    resumed := fun loaded hl f hf => by
      rw [show (Pipeline.start cfg.pipeline (cfg.job dt source) s.shared).shared.marker.completedRecords
        f = _ from StateMarker.completedRecords_startFileProcessing _ hn f]
      exact h.resumed loaded hl f hf
    unrepeated := h.unrepeated
    counted := {
      suffix := h.counted.suffix
      nodup := h.counted.nodup
      todo := fun dt' hdt' => by
        rw [show (Pipeline.start cfg.pipeline (cfg.job dt source) s.shared).shared.marker.completedRecords
          _ = _ from StateMarker.completedRecords_startFileProcessing _ hn _]
        exact h.counted.todo dt' hdt'
      done := fun hs dt' hdt' hnot => by
        rw [show (Pipeline.start cfg.pipeline (cfg.job dt source) s.shared).shared.marker.completedRecords
          _ = _ from StateMarker.completedRecords_startFileProcessing _ hn _]
        exact h.counted.done hs dt' hdt' hnot
      keys := h.counted.keys } }
  pending := (StateMarker.completedRecords_startFileProcessing _ hn _).trans hn
  pipeline := Pipeline.invariant_start s.shared
  lineage := rfl
  disk := hd

/-- Only marking the file settles it. -/
theorem Pipeline.main_of_move {cfg : PipelineConfig} {job : Job} {p q : Pipeline}
    (h : Pipeline.Move cfg job p q) :
    (∃ fileSuccess n saved, p.tasks.main = .marking fileSuccess n ∧
      q.tasks.main = .finished fileSuccess n saved) ∨
    (q.tasks.main.marked = p.tasks.main.marked ∧
      q.tasks.main.markSaved = p.tasks.main.markSaved ∧
      ∀ fileSuccess n, p.tasks.main = .marking fileSuccess n → q.tasks.main = p.tasks.main) := by
  cases h with
  | @marks fileSuccess n hp saved => exact Or.inl ⟨fileSuccess, n, saved, hp, rfl⟩
  | @joinsParser result hp hd =>
    rw [hp]
    refine Or.inr ⟨?_, ?_, by simp⟩ <;> cases result <;> rfl
  | joinsBatcher hp =>
    rw [hp]
    exact Or.inr ⟨rfl, rfl, by simp⟩
  | @joinsPublisher fileSuccess n result hp =>
    rw [hp]
    refine Or.inr ⟨?_, ?_, by simp⟩ <;> cases fileSuccess && result.isReturned <;> rfl
  | announces hp =>
    rw [hp]
    exact Or.inr ⟨rfl, rfl, by simp⟩
  | _ => exact Or.inr ⟨rfl, rfl, fun _ _ _ => rfl⟩

theorem InFile.step {s₁ : Shared} {label : Pipeline.Label} {p : Pipeline}
    (h : InFile cfg s dt rest source tasks s₁ l)
    (hstep : Pipeline.step cfg.pipeline (cfg.job dt source) ⟨s.shared, tasks⟩ label = some p) :
    InFile cfg ({ s with
        shared := p.shared
        phase := .processing dt rest source p.tasks }.settleLineage dt source tasks.main p.tasks.main)
      dt rest source p.tasks s₁ l := by
  have hpipeline := Pipeline.invariant_step hstep h.pipeline
  rcases Pipeline.main_of_move (Pipeline.step_move hstep) with
    ⟨fileSuccess, n, saved, hbefore, hafter⟩ | ⟨hmarked, hsaved, hopen⟩
  · rw [show tasks.main = .marking fileSuccess n from hbefore, hafter]
    have hlineage : s.run.lineage = l := by
      rw [h.lineage, show tasks.main = .marking fileSuccess n from hbefore]
      rfl
    have hdisk : s.diskLineage = l := by
      rw [h.disk, show tasks.main = .marking fileSuccess n from hbefore]
      rfl
    cases fileSuccess with
    | false => exact ⟨h.before, h.pending, hpipeline, by rw [hafter]; exact hlineage,
        by rw [hafter]; exact hdisk⟩
    | true =>
      refine ⟨h.before.withRun rfl rfl rfl rfl rfl id, h.pending, hpipeline, ?_, ?_⟩
      · rw [hafter]
        exact congrArg (Service.Lineage.mark · dt source) hlineage
      · rw [hafter]
        cases saved with
        | false => exact hdisk
        | true => exact congrArg (Service.Lineage.mark · dt source) hlineage
  · have hsettle : ∀ t : Service, t.settleLineage dt source tasks.main p.tasks.main = t := by
      intro t
      unfold Service.settleLineage
      split
      · next n fileSuccess n' saved hb ha =>
        rw [hopen _ _ hb, hb] at ha
        cases ha
      · rfl
    rw [hsettle]
    exact ⟨h.before, h.pending, hpipeline, by rw [hmarked]; exact h.lineage,
      by rw [hsaved]; exact h.disk⟩

/-- The file is over and the marker was saved. -/
theorem InFile.done {s₁ : Shared} {fileSuccess : Bool}
    (h : InFile cfg s dt rest source tasks s₁ l)
    (hmain : tasks.main = .finished fileSuccess n true) :
    Between cfg s.run.lineage { s.run with
        recordCounts := s.run.recordCounts.insert dt.asStr n
        success := s.run.success && fileSuccess } s.shared rest ∧
      s.diskLineage = s.run.lineage := by
  have htally : ∀ dt', s.shared.progress.get dt' =
      s₁.progress.get dt' + if dt = dt' then tasks.batcher.totalRecords else 0 :=
    h.pipeline.frame.tally
  have hothers : ∀ dt', dt' ≠ dt → s.shared.progress.get dt' = s₁.progress.get dt' := by
    intro dt' hne
    rw [htally dt', if_neg (fun heq => hne heq.symm)]
    rfl
  have hfile : ∀ dt', dt' ≠ dt → cfg.dump.fileName dt' ≠ cfg.dump.fileName dt :=
    fun dt' hne heq => hne (cfg.dump.fileName_injective heq)
  have hheld := h.held
  have hdisk := h.disk
  have hlineage := h.lineage
  rw [hmain] at hdisk hlineage
  rcases h.pipeline.frame.marker.split with ⟨hunmarked, -, hwork, -⟩ | ⟨n', saved, hmain', hmarked, -⟩
  · have hfailed : fileSuccess = false := by
      rw [show tasks.main = _ from hmain] at hunmarked
      cases fileSuccess with
      | false => rfl
      | true => cases hunmarked
    subst hfailed
    refine ⟨?_, hdisk.trans hlineage.symm⟩
    exact {
      lineage := hheld
      running := hwork.1.processing.trans h.before.running
      begun := by rw [hlineage]; exact h.before.begun
      resumed := fun loaded hl f hf => by
        rw [show s.shared.marker.completedRecords f = _ from hwork.1.completed f]
        exact h.before.resumed loaded hl f hf
      unrepeated := ⟨h.unrepeated.before, h.unrepeated.skipped⟩
      counted := h.before.counted.settle rfl rfl
        (fun dt' hne => ⟨hothers dt' hne, hwork.1.completed _⟩)
        (fun hs => by simp at hs) }
  · have heq : Main.finished fileSuccess n true = .finished true n' saved := hmain.symm.trans hmain'
    cases heq
    refine ⟨?_, hdisk.trans hlineage.symm⟩
    exact {
      lineage := hheld
      running := hmarked.processing.trans h.before.running
      begun := by rw [hlineage]; exact h.before.begun
      resumed := fun loaded hl f hf => by
        rw [show s.shared.marker.completedRecords f = _ from hmarked.completed f]
        split
        · rfl
        · exact h.before.resumed loaded hl f hf
      unrepeated := ⟨h.unrepeated.before, h.unrepeated.skipped⟩
      counted := h.before.counted.settle rfl rfl
        (fun dt' hne => ⟨hothers dt' hne, (hmarked.completed _).trans (if_neg (hfile dt' hne))⟩)
        (fun hs => by
          refine ⟨by simpa using hs, (hmarked.completed _).trans (if_pos rfl), ?_⟩
          have htotal : tasks.batcher.totalRecords = n :=
            (h.pipeline.sound.announced n (by rw [hmain']; rfl)).2
          have hzero := h.before.counted.todo dt List.mem_cons_self
          rw [h.pending] at hzero
          rw [htally dt, if_pos rfl, hzero, htotal]
          exact Nat.zero_add n) }

end MusicbrainzIngestion
