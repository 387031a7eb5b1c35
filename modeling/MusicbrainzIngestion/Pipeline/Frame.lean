import MusicbrainzIngestion.Pipeline.Soundness

/-! What a file's pipeline leaves behind: only its own publishes, its own tally, and a
marker in which no other file changed and its own is marked at the very end. -/

namespace MusicbrainzIngestion
open Base

/-! ## Frames -/

/-- What a file's pipeline publishes: to its own exchange, never the announcement of a
version, and the completion of the file only with the count of the whole file. -/
structure FileAttempt (job : Job) (a : Attempt) : Prop where
  exchange : a.exchange = job.dataType
  notVersion : ∀ e, a.message ≠ .extractionComplete e
  counted : ∀ fc, a.message = .fileComplete fc → job.sequential.2 = .ok fc.totalProcessed

/-- `s'` came from `s` by publishing for a file. -/
structure Shared.Grown (job : Job) (s s' : Shared) : Prop where
  clock : s.now ≤ s'.now
  log : ∃ attempts, s'.log = s.log ++ attempts ∧ ∀ a ∈ attempts, FileAttempt job a ∧ s.now ≤ a.time

/-- The file is being processed, and the marker is otherwise as it was. -/
def InWork (job : Job) (m₀ m : StateMarker) : Prop :=
  StateMarker.Agrees m₀ m ∧ m.fileStarted job.fileName

/-- The marker in memory and the one on disk, if there is one, while a file is in work. -/
def Shared.InWork (job : Job) (m₀ : StateMarker) (s : Shared) : Prop :=
  MusicbrainzIngestion.InWork job m₀ s.marker ∧
    ∀ m, s.disk = some m → MusicbrainzIngestion.InWork job m₀ m

def Main.isFinished : Main → Bool
  | .finished _ _ _ => true
  | _ => false

namespace Pipeline

variable {cfg : PipelineConfig} {job : Job} {m₀ : StateMarker} {s s' : Shared} {p q : Pipeline}

/-- The markers at each stage of the orchestrator, against the marker at the start. -/
def MarkerFrame (job : Job) (m₀ : StateMarker) (main : Main) (s : Shared) : Prop :=
  match main with
  | .finished true totalCount saved =>
    StateMarker.Marked job.fileName totalCount m₀ s.marker ∧
      ∀ m, s.disk = some m → if saved then m = s.marker else InWork job m₀ m
  | _ => s.InWork job m₀

structure Frame (job : Job) (s : Shared) (p : Pipeline) : Prop where
  grown : Shared.Grown job s p.shared
  tally : ∀ dt, p.shared.progress.get dt =
    s.progress.get dt + if job.dataType = dt then p.tasks.batcher.totalRecords else 0
  marker : MarkerFrame job s.marker p.tasks.main p.shared

theorem grown_refl (job : Job) (s : Shared) : Shared.Grown job s s :=
  ⟨Nat.le_refl _, [], (List.append_nil _).symm, by simp⟩

theorem grown_publish (h : Shared.Grown job s s') {message : Message}
    (hm : ∀ e, message ≠ .extractionComplete e)
    (hc : ∀ fc, message = .fileComplete fc → job.sequential.2 = .ok fc.totalProcessed)
    (reply : Reply) : Shared.Grown job s (s'.publish job.dataType message reply) := by
  obtain ⟨attempts, hlog, hall⟩ := h.log
  refine ⟨h.clock, attempts ++ [⟨job.dataType, message, reply, s'.now⟩], ?_, fun a ha => ?_⟩
  · simp only [Shared.publish, hlog, List.append_assoc]
  · rcases List.mem_append.mp ha with ha | ha
    · exact hall a ha
    · rw [List.mem_singleton.mp ha]
      exact ⟨⟨rfl, hm, hc⟩, h.clock⟩

theorem grown_move {base : List Attempt} (h : Move cfg job p q) (hs : Sound job base p)
    (hg : Shared.Grown job s p.shared) : Shared.Grown job s q.shared := by
  cases h with
  | tick elapsed => exact ⟨Nat.le_add_right_of_le hg.clock, hg.log⟩
  | publisherConfirms | publisherLoses =>
    exact grown_publish hg (fun _ => Message.noConfusion) (fun _ => Message.noConfusion) _
  | @announces totalCount hp reply =>
    refine grown_publish hg (fun _ => Message.noConfusion) (fun fc hfc => ?_) _
    cases hfc
    exact announcing_counted hs hp
  | batcherCheckpoints | batcherSaves | marks => exact ⟨hg.clock, hg.log⟩
  | _ => exact ⟨hg.clock, hg.log⟩

theorem tally_move (h : Move cfg job p q) {dt : DataType} {n : Nat}
    (ht : p.shared.progress.get dt =
      n + if job.dataType = dt then p.tasks.batcher.totalRecords else 0) :
    q.shared.progress.get dt =
      n + if job.dataType = dt then q.tasks.batcher.totalRecords else 0 := by
  cases h with
  | @batcherReceives msg buffer hp hc =>
    have htotal := afterRecv_totalRecords cfg p.tasks.batcher msg
    simp only [setShared, setBatcher, ExtractionProgress.increment, ExtractionProgress.get_add,
      htotal, ht]
    split <;> omega
  | batcherCloses =>
    simp only [setBatcher, afterClose_totalRecords]
    exact ht
  | batcherCheckpoints =>
    simp only [setShared, setBatcher, sizeCheck_totalRecords]
    exact ht
  | _ => exact ht

theorem inWork_save (h : s.InWork job m₀) (saved : Bool) : (s.save saved).InWork job m₀ := by
  have hstamped : InWork job m₀ (s.marker.stamped s.now) :=
    ⟨h.1.1.trans (StateMarker.agrees_stamped _), h.1.2⟩
  refine ⟨hstamped, fun m hm => ?_⟩
  cases saved with
  | false => exact h.2 m hm
  | true =>
    cases hm
    exact hstamped

theorem inWork_checkpointed (h : p.shared.InWork job m₀) (saved : Bool) :
    (p.checkpointed job saved).InWork job m₀ :=
  inWork_save (s := p.shared.updateFileProgress job.fileName p.tasks.batcher.totalRecords
      p.tasks.batcher.totalBatches)
    ⟨⟨h.1.1.trans (StateMarker.agrees_updateFileProgress _ _ _ _ h.1.2),
      StateMarker.fileStarted_updateFileProgress _ _ _ _ h.1.2⟩, h.2⟩ saved

theorem markerFrame_open {main : Main} (hm : main.isFinished = false) :
    MarkerFrame job m₀ main s ↔ s.InWork job m₀ := by
  cases main <;> first | exact Iff.rfl | cases hm

theorem isFinished_false_of_task (hj : Joined p.tasks) (ht : p.tasks.batcher.isDone = false) :
    p.tasks.main.isFinished = false := by
  cases hm : p.tasks.main with
  | finished fileSuccess totalCount saved =>
    unfold Joined at hj
    rw [hm] at hj
    exact absurd (ht.symm.trans hj.2.1) Bool.noConfusion
  | _ => rfl

theorem markerFrame_move (h : Move cfg job p q) (hj : Joined p.tasks)
    (hf : MarkerFrame job m₀ p.tasks.main p.shared) :
    MarkerFrame job m₀ q.tasks.main q.shared := by
  cases h with
  | batcherCheckpoints hp saved | batcherSaves hp saved =>
    have hopen : p.tasks.main.isFinished = false :=
      isFinished_false_of_task hj (by simp [Batcher.isDone, hp])
    exact (markerFrame_open hopen).mpr
      (inWork_checkpointed ((markerFrame_open hopen).mp hf) saved)
  | @joinsParser result hp hd =>
    rw [hp] at hf
    cases result <;> exact hf
  | joinsBatcher hp =>
    rw [hp] at hf
    exact hf
  | @joinsPublisher fileSuccess totalCount result hp =>
    rw [hp] at hf
    cases fileSuccess && result.isReturned <;> exact hf
  | announces hp =>
    rw [hp] at hf
    exact hf
  | @marks fileSuccess totalCount hp saved =>
    rw [hp] at hf
    have hwork : p.shared.InWork job m₀ := hf
    cases fileSuccess with
    | false => exact inWork_save hwork saved
    | true =>
      have hmarked := StateMarker.marked_completeFileProcessing p.shared.now totalCount hwork.1.2
      refine ⟨⟨fun f => ?_, fun f => ?_, ?_, ?_, ?_, ?_, hmarked.tallied⟩, fun m hm => ?_⟩
      · exact (hmarked.completed f).trans (by rw [hwork.1.1.completed])
      · exact (hmarked.known f).trans (hwork.1.1.known f)
      · exact hmarked.processing.trans hwork.1.1.processing
      · exact hmarked.started.trans hwork.1.1.started
      · exact hmarked.overall.trans hwork.1.1.overall
      · exact hmarked.download.trans hwork.1.1.download
      · cases saved with
        | false => exact hwork.2 m hm
        | true =>
          cases hm
          rfl
  | _ =>
    exact hf

theorem frame_start (s : Shared) : Frame job (start cfg job s).shared (start cfg job s) where
  grown := grown_refl _ _
  tally dt := by simp [start, Tasks.spawn]
  marker := by
    have hstarted : (start cfg job s).shared.marker.fileStarted job.fileName :=
      StateMarker.fileStarted_startFileProcessing s.now
    exact ⟨⟨StateMarker.Agrees.refl _, hstarted⟩, fun m hm => by
      cases hm
      exact ⟨StateMarker.Agrees.refl _, hstarted⟩⟩

theorem frame_move {base : List Attempt} (h : Move cfg job p q) (hs : Sound job base p)
    (hf : Frame job s p) : Frame job s q where
  grown := grown_move h hs hf.grown
  tally dt := tally_move h (hf.tally dt)
  marker := markerFrame_move h hs.joined hf.marker

end Pipeline

end MusicbrainzIngestion
