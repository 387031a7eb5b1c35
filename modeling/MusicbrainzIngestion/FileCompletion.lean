import MusicbrainzIngestion.Pipeline.Frame

/-! File completion is sound: along every interleaving of the parser, the batcher and
the publisher, with every timing and every failure, a file that ends up marked as
processed was confirmed whole, once, in order, before its completion was announced. -/

namespace MusicbrainzIngestion
open Base

namespace Pipeline

variable {cfg : PipelineConfig} {job : Job} {s : Shared} {p q : Pipeline}

/-- What holds of a file's pipeline at every point of every run. -/
structure Invariant (job : Job) (s : Shared) (p : Pipeline) : Prop where
  sound : Sound job s.log p
  frame : Frame job s p

theorem invariant_start (s : Shared) :
    Invariant job (start cfg job s).shared (start cfg job s) where
  sound := sound_start s
  frame := frame_start s

theorem invariant_step {l : Label} (h : step cfg job p l = some q) (hi : Invariant job s p) :
    Invariant job s q where
  sound := sound_move (step_move h) hi.sound
  frame := frame_move (step_move h) hi.sound hi.frame

theorem invariant_run {ls : List Label} (h : (machine cfg job).run p ls = some q)
    (hi : Invariant job s p) : Invariant job s q :=
  (machine cfg job).run_preserves (c := fun _ _ => True)
    (fun _ _ _ _ hp hstep => invariant_step hstep hp)
    ((machine cfg job).along_of_forall (fun _ _ => trivial) p _) hi h

/-- A file marked as processed with `n` records was delivered with `n` records. -/
theorem delivered_of_finished (hi : Invariant job s p) {n : Nat} {saved : Bool}
    (hm : p.tasks.main = .finished true n saved) :
    Delivered job s.log p.shared.log n ∧
      p.shared.marker.completedRecords job.fileName = some n := by
  refine ⟨(hi.sound.announced n (by rw [hm]; rfl)).1, ?_⟩
  have hf := hi.frame.marker
  rw [hm] at hf
  rw [hf.1.completed, if_pos rfl]

end Pipeline

/-- For every dump file, every way its three tasks interleave, every timeout, answer of the
broker, failure and panic: if the file is marked as processed, then in this attempt exactly its
records were published and confirmed, in file order, then its completion was announced and
confirmed, and the announced and the marked count are the number of records confirmed. -/
theorem file_completion_sound (cfg : PipelineConfig) (env : Externals) (path fileName : String)
    (dt : DataType) (map : Option JsonlParser.DiscogsMap) (dumpVersion : String) (s : Shared)
    (ls : List Pipeline.Label) (p : Pipeline) (n : Nat) (saved : Bool)
    (hrun : (Pipeline.machine cfg (.ofFile env path fileName dt map dumpVersion)).run
      (Pipeline.start cfg (.ofFile env path fileName dt map dumpVersion) s) ls = some p)
    (hmarked : p.tasks.main = .finished true n saved) :
    ∃ attempts announcement, p.shared.log = s.log ++ (attempts ++ [announcement]) ∧
      Burst dt ((JsonlParser.parseMbJsonlFile env path dt none map dumpVersion).1.map .data)
        attempts ∧
      announcement.exchange = dt ∧ announcement.confirmed ∧
      (∃ timestamp, announcement.message = .fileComplete {
        dataType := dt.asStr, timestamp, totalProcessed := attempts.length, file := fileName }) ∧
      p.shared.marker.completedRecords fileName = some attempts.length ∧
      (JsonlParser.parseMbJsonlFile env path dt none map dumpVersion).2 = .ok attempts.length := by
  have hinv := Pipeline.invariant_run hrun (Pipeline.invariant_start s)
  obtain ⟨⟨attempts, announcement, hlog, hburst, hexch, hconf, hmsg, hresult⟩, hrecords⟩ :=
    Pipeline.delivered_of_finished hinv hmarked
  have hcount : n = attempts.length := by
    rw [Pipeline.length_records hresult, ← List.length_map (f := Message.data), ← hburst.1,
      List.length_map]
  subst hcount
  rw [Job.records, Job.sequential_ofFile] at hburst
  rw [Job.sequential_ofFile] at hresult
  exact ⟨attempts, announcement, hlog, hburst, hexch, hconf, hmsg, hrecords, hresult⟩

/-! ## A label file of one record -/

section Labels
open JsonlParser

def labelPath : String := "/musicbrainz-data/20260101-000000/label.jsonl"

def labelLine : String := "\x7b\"id\":\"l1\",\"name\":\"Warp\"\x7d"

def labelRecord : Base.Json.Value := .json [("id", .string "l1"), ("name", .string "Warp")]

def labelExternals : Externals := singleLine labelPath labelLine labelRecord (fun _ => "") id

def labelJob : Job := .ofFile labelExternals labelPath "label.jsonl" .labels none "20260101-000000"

/-- The run of one record through batches of one, everything going well. -/
def labelRun : List Pipeline.Label := [
  .parserOpen none, .parserRead none, .parserSend, .batcherRecv, .parserRead none, .batcherFlush,
  .publisherRecv none, .publisherPublish (.confirmation true none), .batcherRecv, .batcherSave true,
  .publisherRecv none, .join, .join, .join, .sendFileComplete (.confirmation true none),
  .markFile true]

def oneByOne : PipelineConfig where
  batchSize := 1
  queueSize := 1
  stateSaveInterval := 5000
  exchangePrefix := "groovemap-musicbrainz"

def freshRun : Shared where
  now := 0
  disk := none
  log := []
  marker := (StateMarker.new "20260101-000000" 0).startProcessing 4 0
  progress := {}

theorem labelJob_opened : labelJob.opened = .ok [.ok labelLine] := by
  have hlines : (Text.Stream.mk labelLine.toByteArray.data.toList none).lines = [.ok labelLine] :=
    Text.lines_toByteArray (by decide) (by decide)
  rw [← hlines]
  rfl

/-! ## And one of two -/

def otherLine : String := "\x7b\"id\":\"l2\",\"name\":\"Skam\"\x7d"

def otherRecord : Base.Json.Value := .json [("id", .string "l2"), ("name", .string "Skam")]

def labelsExternals : Externals :=
  { labelExternals with
    openFile := fun path =>
      if path = labelPath then
        .ok ⟨(labelLine ++ "\n" ++ otherLine).toByteArray.data.toList, none⟩
      else .error "No such file or directory (os error 2)"
    fromStr := fun line =>
      if line = otherLine then .ok otherRecord else labelExternals.fromStr line }

def labelsJob : Job :=
  .ofFile labelsExternals labelPath "label.jsonl" .labels none "20260101-000000"

/-- The second record is read while the first is not yet published. -/
def labelsRun : List Pipeline.Label := [
  .parserOpen none, .parserRead none, .parserSend, .batcherRecv, .parserRead none, .batcherFlush,
  .parserSend, .publisherRecv none, .batcherRecv, .batcherFlush, .parserRead none,
  .publisherPublish (.confirmation true none), .publisherRecv none,
  .publisherPublish (.confirmation true none), .batcherRecv, .batcherSave true, .publisherRecv none,
  .join, .join, .join, .sendFileComplete (.confirmation true none), .markFile true]

def Main.marks (n : Nat) : Main → Bool
  | .finished true totalCount true => decide (totalCount = n)
  | _ => false

theorem Main.eq_of_marks {n : Nat} {main : Main} (h : main.marks n = true) :
    main = .finished true n true := by
  unfold Main.marks at h
  split at h
  · rw [of_decide_eq_true h]
  · cases h

theorem file_completion_sound_labels : ∃ p attempts announcement,
    (Pipeline.machine oneByOne labelsJob).run (Pipeline.start oneByOne labelsJob freshRun) labelsRun =
      some p ∧
    p.shared.log = attempts ++ [announcement] ∧ attempts.length = 2 ∧ Burst .labels
      ((parseMbJsonlFile labelsExternals labelPath .labels none none "20260101-000000").1.map .data)
        attempts ∧
    (parseMbJsonlFile labelsExternals labelPath .labels none none "20260101-000000").1.map
      DataMessage.id = ["l1", "l2"] ∧
    p.shared.marker.completedRecords "label.jsonl" = some 2 := by
  have hany : ((Pipeline.machine oneByOne labelsJob).run
      (Pipeline.start oneByOne labelsJob freshRun) labelsRun).any
        (fun p => p.tasks.main.marks 2) = true := by decide +kernel
  obtain ⟨p, hrun, hmarks⟩ := (Option.any_eq_true _ _).mp hany
  have hmarked := Main.eq_of_marks hmarks
  obtain ⟨attempts, announcement, hlog, hburst, -, -, -, hrecords, hresult⟩ :=
    file_completion_sound oneByOne labelsExternals labelPath "label.jsonl" .labels none
      "20260101-000000" freshRun labelsRun p 2 true hrun hmarked
  have htwo : p.shared.marker.completedRecords "label.jsonl" = some 2 :=
    (Pipeline.delivered_of_finished (Pipeline.invariant_run hrun (Pipeline.invariant_start _))
      hmarked).2
  have hlength : attempts.length = 2 := Option.some.inj (hrecords.symm.trans htwo)
  exact ⟨p, attempts, announcement, hrun, hlog, hlength, hburst, by decide +kernel, htwo⟩

end Labels

end MusicbrainzIngestion
