import MusicbrainzIngestion.VersionCompletion

/-! The start time an announcement carries. A consumer deletes every row older than it,
so it must be the time the lineage's processing was first started, and no publish that
counts towards a completed file may be older. -/

namespace MusicbrainzIngestion
open Base

namespace Service

variable {cfg : ServiceConfig} {s t : Service} {label : Label}

/-- Only a file's pipeline and the announcement publish. -/
theorem log_of_quiet (hmove : Move cfg s label t) (hpipeline : ∀ l, label ≠ .pipeline l)
    (hannounce : ∀ reply, label ≠ .announce reply) : t.shared.log = s.shared.log := by
  have hload : ∀ readable, (s.loadMarker cfg readable).shared.log = s.shared.log := by
    intro readable
    unfold loadMarker
    split
    · rfl
    · split <;> rfl
  have hsave : ∀ (u : Service) saved phase, (u.saveThen saved phase).shared.log = u.shared.log := by
    intro u saved phase
    cases saved <;> rfl
  cases hmove with
  | pipelineMoves => exact absurd rfl (hpipeline _)
  | announces => exact absurd rfl (hannounce _)
  | skips | reprocesses | continues => exact hload _
  | starts | startsFile | finalises => exact hsave _ _ _
  | resumes hp hm ht =>
    subst ht
    rfl
  | _ => rfl

/-- A file's pipeline announces no version. -/
theorem pipeline_notVersion {dt : DataType} {rest : List DataType} {source : Source} {tasks : Tasks}
    {p : Pipeline} {l : Pipeline.Label} (h : Inv cfg s)
    (hp : s.phase = .processing dt rest source tasks)
    (hm : Pipeline.step cfg.pipeline (cfg.job dt source) ⟨s.shared, tasks⟩ l = some p)
    {a : Attempt} (ha : a ∈ p.shared.log.drop s.shared.log.length) (e : ExtractionCompleteMessage) :
    a.message ≠ .extractionComplete e := by
  have hfile := h.phase
  simp only [PhaseOk, hp] at hfile
  obtain ⟨s₁, l, hfile⟩ := hfile
  have hgrown := Pipeline.grown_move (Pipeline.step_move hm) hfile.pipeline.sound
    (Pipeline.grown_refl _ _)
  obtain ⟨attempts, hlog, hall⟩ := hgrown.log
  rw [show p.shared.log = s.shared.log ++ attempts from hlog, List.drop_left] at ha
  exact (hall a ha).1.notVersion e

/-- The step that publishes an announcement leaves the run announcing it. -/
theorem announcing_of_published (hmove : Move cfg s label t) (h : Inv cfg s) {a : Attempt}
    {e : ExtractionCompleteMessage} (hnew : a ∈ t.shared.log.drop s.shared.log.length)
    (hannounced : a.message = .extractionComplete e) :
    ∃ rest errors, t.phase = .announcing e rest errors := by
  cases label with
  | pipeline l =>
    cases hmove with
    | pipelineMoves hp hm =>
      rw [(settleLineage_outside _ _ _ _ _).2.2] at hnew
      exact absurd hannounced (pipeline_notVersion h hp hm hnew e)
  | announce reply =>
    cases hmove with
    | @announces _ message dt rest errors hp =>
      have hone : a ∈ (s.shared.log ++
          [(⟨dt, .extractionComplete message, reply, s.shared.now⟩ : Attempt)]).drop
            s.shared.log.length := hnew
      rw [List.drop_left, List.mem_singleton] at hone
      rw [hone] at hannounced
      cases hannounced
      exact ⟨_, _, rfl⟩
  | _ =>
    rw [log_of_quiet hmove (by simp) (by simp), List.drop_length] at hnew
    cases hnew

end Service

/-- In every sequence of runs, crashes and resumes, whatever announcement of the version a step
publishes carries the time at which the processing of the current lineage was first started; no
publish since that lineage began is older; and every file the marker shows as completed was
delivered by publishes since then. -/
theorem announced_start_is_lineage_start (cfg : ServiceConfig) (s t : Service)
    (label : Service.Label) (a : Attempt) (e : ExtractionCompleteMessage)
    (hreach : (Service.machine cfg).Reachable s) (hstep : Service.step cfg s label = some t)
    (hnew : a ∈ t.shared.log.drop s.shared.log.length)
    (hannounced : a.message = .extractionComplete e) :
    t.run.lineage.started = some e.startedAt ∧
      (∀ b ∈ t.shared.log.drop t.run.lineage.since, e.startedAt ≤ b.time) ∧
      ∀ dt n, t.shared.marker.completedRecords (cfg.dump.fileName dt) = some n →
        ∃ source, FileDelivered cfg dt source n (t.shared.log.drop t.run.lineage.since) := by
  have hinv := Service.inv_reachable hreach
  have hp := (Service.inv_step hstep hinv).phase
  obtain ⟨rest, errors, hphase⟩ :=
    Service.announcing_of_published (Service.step_move hstep) hinv hnew hannounced
  simp only [PhaseOk, hphase] at hp
  obtain ⟨hannouncing, -⟩ := hp
  have hline := hannouncing.between.lineage
  have hstarted : t.run.lineage.started = some e.startedAt := by
    rw [hannouncing.started]
    exact hannouncing.between.begun
  refine ⟨hstarted, (hline.clock _ hstarted).2, fun dt n hn => ?_⟩
  obtain ⟨source, -, hdelivered⟩ := hline.recorded dt n hn
  exact ⟨source, hdelivered⟩

/-- The interrupted run announces its first start time, after the crash as before it. -/
theorem announced_start_is_lineage_start_interrupted : ∃ s t a e,
    demoState interruptedRun = some s ∧
    Service.step demoService s (.announce (.confirmation true none)) = some t ∧
    a ∈ t.shared.log.drop s.shared.log.length ∧ a.message = .extractionComplete e ∧
    t.run.lineage.started = some e.startedAt ∧
    ∀ b ∈ t.shared.log.drop t.run.lineage.since, e.startedAt ≤ b.time := by
  have hannounces : (demoState interruptedRun).any (fun s =>
      (Service.step demoService s (.announce (.confirmation true none))).any fun t =>
        (t.shared.log.drop s.shared.log.length).any fun a => match a.message with
          | .extractionComplete _ => true
          | _ => false) = true := by decide +kernel
  obtain ⟨s, hrun, hs⟩ := (Option.any_eq_true _ _).mp hannounces
  obtain ⟨t, hstep, ht⟩ := (Option.any_eq_true _ _).mp hs
  obtain ⟨a, ha, hmessage⟩ := List.any_eq_true.mp ht
  split at hmessage
  · next e he =>
    have hreach : (Service.machine demoService).Reachable s :=
      ⟨_, _, ⟨demoFiles, 0, rfl⟩, fun _ _ => trivial, hrun⟩
    obtain ⟨hstarted, htimes, -⟩ :=
      announced_start_is_lineage_start demoService s t _ a e hreach hstep ha he
    exact ⟨s, t, a, e, hrun, hstep, ha, he, hstarted, htimes⟩
  · cases hmessage

end MusicbrainzIngestion
