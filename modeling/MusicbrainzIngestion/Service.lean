import MusicbrainzIngestion.Pipeline

/-! Runs over one dump version. The disk keeps the dump files and the marker, the
broker every publish; a run reads the marker, decides, processes the files the
marker does not show as completed, announces the version and finalises. The process
may be killed between any two steps, files may disappear, the marker may be lost.

Beside the program's own state the model keeps the lineage of a marker: where in the
history of publishes it began as a fresh marker, when its processing was first
started, and what each file it shows as completed was computed from. -/

namespace MusicbrainzIngestion
open Base

/-- The dump set of a version: its directory and the file of each data type. -/
structure DumpSet where
  version : String
  directory : String
  fileName : DataType → String
  fileName_injective : Function.Injective fileName

namespace DumpSet

def path (d : DumpSet) (dt : DataType) : String := d.directory ++ "/" ++ d.fileName dt

theorem path_injective (d : DumpSet) : Function.Injective d.path := fun a b h => by
  have hl := congrArg String.toList h
  simp only [path, String.toList_append, List.append_cancel_left_eq] at hl
  exact d.fileName_injective (String.toList_injective hl)

end DumpSet

structure ServiceConfig where
  pipeline : PipelineConfig
  externals : Externals
  dump : DumpSet

inductive ExtractionStatus where
  | idle
  | running
  | completed
  | waiting
  | failed
deriving DecidableEq, Repr

abbrev Files := String → Option (List UInt8)

/-- What a file is processed from: its bytes, and the map its relations are enriched with. -/
structure Source where
  bytes : Option (List UInt8)
  map : JsonlParser.DiscogsMap

/-- The history of a marker since it was fresh. -/
structure Lineage where
  since : Nat
  started : Option DateTime
  processed : DataType → Option Source

/-- The lineage of a fresh marker. -/
def Lineage.fresh (published : Nat) : Lineage where
  since := published
  started := none
  processed _ := none

/-- What a run keeps in memory beside the marker and the tally. `loaded` is the marker a
run that was not forced read from disk, `publishedBefore` the publishes made before it. -/
structure Run where
  force : Bool
  extractionStartedAt : DateTime
  publishedBefore : Nat
  dumpFiles : List DataType
  loaded : Option StateMarker
  lineage : Lineage
  processingStartedAt : DateTime
  artistDiscogsMap : JsonlParser.DiscogsMap
  recordCounts : Table String Nat
  success : Bool

inductive Phase where
  | idle
  | entry
  | downloading
  | downloaded
  | discovering
  | deciding
  | connecting
  | declaring (rest : List DataType)
  | starting
  | mapping
  | looping (rest : List DataType)
  | processing (dt : DataType) (rest : List DataType) (source : Source) (tasks : Tasks)
  | announcing (message : ExtractionCompleteMessage) (rest : List DataType) (errors : List String)
  | finalising
  | reporting

structure Service where
  shared : Shared
  files : Files
  shutdown : Bool
  status : ExtractionStatus
  phase : Phase
  run : Run
  diskLineage : Lineage
  outcome : Option (Except Error Bool)

/-- The environment of the parsers when these files are on disk. -/
def Externals.withFiles (env : Externals) (files : Files) : Externals :=
  { env with openFile := fun path => match files path with
      | some bytes => .ok ⟨bytes, none⟩
      | none => .error "No such file or directory (os error 2)" }

namespace ServiceConfig

/-- The job of a file of the dump, processed from a source. Only artists are enriched. -/
def job (cfg : ServiceConfig) (dt : DataType) (source : Source) : Job :=
  .ofFile (cfg.externals.withFiles fun _ => source.bytes) (cfg.dump.path dt) (cfg.dump.fileName dt) dt
    (if dt = .artists then some source.map else none) cfg.dump.version

/-- The first pass over the artists: an empty map when the dump has none. -/
def discogsMap (cfg : ServiceConfig) (files : Files) (dumpFiles : List DataType) :
    Except Error JsonlParser.DiscogsMap :=
  if DataType.artists ∈ dumpFiles then
    JsonlParser.buildMbidDiscogsMapFromFile (cfg.externals.withFiles files)
      (cfg.dump.path .artists) "artist"
  else .ok ∅

end ServiceConfig

namespace Service

inductive Label where
  | tick (elapsed : Nat)
  | requestShutdown
  | crash
  | loseMarker
  | removeFile (dt : DataType)
  | begin (force : Bool)
  | checkShutdown
  | download (fetched : DataType → Option (List UInt8)) (fault : Option Error)
  | discover (found : Except Error (List DataType))
  | decide (readable : Bool)
  | connect (fault : Option Error)
  | declareExchange (fault : Option Error)
  | startPhase (saved : Bool)
  | buildMap (fault : Option Error)
  | nextFile (saved : Bool)
  | pipeline (l : Pipeline.Label)
  | fileDone
  | announce (reply : Reply)
  | announced
  | finalise (saved : Bool)
  | report

variable (cfg : ServiceConfig)

/-! ## Small steps of the state -/

def goto (s : Service) (phase : Phase) : Service := { s with phase := phase }

/-- The run is over. -/
def finish (s : Service) (outcome : Except Error Bool) : Service :=
  { s with phase := .idle, outcome := some outcome }

def saveFailed : Error := ["Failed to write state marker temp file"]

/-- Save the marker and go on, or fail the run. -/
def saveThen (s : Service) (saved : Bool) (phase : Phase) : Service :=
  let t := { s with shared := s.shared.save saved }
  if saved then { t with diskLineage := t.run.lineage, phase := phase }
  else t.finish (.error saveFailed)

def setMarker (s : Service) (marker : StateMarker) : Service :=
  { s with shared := { s.shared with marker := marker } }

/-- The dump files that exist. -/
def present (s : Service) (dt : DataType) : Bool := (s.files (cfg.dump.path dt)).isSome

/-! ## Before the files -/

def begin (s : Service) (force : Bool) : Option Service :=
  match s.phase with
  | .idle => some {
      s with
      phase := .entry
      run := {
        force := force
        extractionStartedAt := s.shared.now
        publishedBefore := s.shared.log.length
        dumpFiles := []
        loaded := none
        lineage := s.diskLineage
        processingStartedAt := s.shared.now
        artistDiscogsMap := ∅
        recordCounts := ∅
        success := true } }
  | _ => none

/-- The flag is read before the run resets its state, and again after the download. -/
def checkShutdown (s : Service) : Option Service :=
  match s.phase with
  | .entry =>
    if s.shutdown then some (s.finish (.ok false))
    else some {
      s with
      shared := { s.shared with progress := {} }
      status := .running
      phase := .downloading }
  | .downloaded => if s.shutdown then some (s.finish (.ok false)) else some (s.goto .discovering)
  | _ => none

/-- A file that is present is kept and not requested. -/
def fetchMissing (files : Files) (fetched : DataType → Option (List UInt8)) : Files := fun path =>
  match files path with
  | some bytes => some bytes
  | none => (DataType.musicbrainz.find? fun dt => cfg.dump.path dt = path).bind fetched

/-- A download that returns without an error leaves all four present. -/
def download (s : Service) (fetched : DataType → Option (List UInt8)) (fault : Option Error) :
    Option Service :=
  match s.phase with
  | .downloading =>
    let t := { s with files := fetchMissing cfg s.files fetched }
    match fault with
    | some e => some (t.finish (.error e))
    | none => if DataType.musicbrainz.all (t.present cfg) then some (t.goto .downloaded) else none
  | _ => none

/-- The files found, in the order in which the map of them happens to iterate. -/
def discover (s : Service) (found : Except Error (List DataType)) : Option Service :=
  match s.phase with
  | .discovering =>
    match found with
    | .error e => some (s.finish (.error e))
    | .ok dumpFiles =>
      if dumpFiles.Perm (DataType.musicbrainz.filter (s.present cfg)) then
        if dumpFiles = [] then some ({ s with status := .completed }.finish (.ok true))
        else some { s with run := { s.run with dumpFiles := dumpFiles }, phase := .deciding }
      else none
  | _ => none

/-- Start over with a fresh marker. -/
def freshMarker (s : Service) : Service :=
  { s.setMarker (.new cfg.dump.version s.shared.now) with
    run := { s.run with lineage := .fresh s.shared.log.length } }

/-- Load the marker of the version; one that is missing or cannot be read starts fresh. -/
def loadMarker (s : Service) (readable : Bool) : Service :=
  if s.run.force then s.freshMarker cfg
  else match s.shared.disk, readable with
    | some m, true => { s.setMarker m with
        run := { s.run with loaded := some m, lineage := s.diskLineage } }
    | _, _ => s.freshMarker cfg

def decide (s : Service) (readable : Bool) : Option Service :=
  match s.phase with
  | .deciding =>
    let t := s.loadMarker cfg readable
    match t.shared.marker.shouldProcess with
    | .skip => some ({ t with status := .completed }.finish (.ok true))
    | .reprocess => some ((t.freshMarker cfg).goto .connecting)
    | .continue => some (t.goto .connecting)
  | _ => none

def connect (s : Service) (fault : Option Error) : Option Service :=
  match s.phase with
  | .connecting =>
    match fault with
    | some e => some (s.finish (.error ("Failed to connect to message queue for MusicBrainz" :: e)))
    | none => some (s.goto (.declaring DataType.musicbrainz))
  | _ => none

def declareExchange (s : Service) (fault : Option Error) : Option Service :=
  match s.phase with
  | .declaring (_ :: rest) =>
    match fault with
    | some e => some (s.finish (.error e))
    | none => some (s.goto (match rest with
        | [] => .starting
        | rest => .declaring rest))
  | _ => none

/-- The counter of a file that the marker shows as completed. -/
def rehydrateFile (m : StateMarker) (progress : ExtractionProgress) (dt : DataType) :
    ExtractionProgress :=
  match m.completedRecords (cfg.dump.fileName dt) with
  | some records => progress.add dt records
  | none => progress

def rehydrate (m : StateMarker) (progress : ExtractionProgress) (dumpFiles : List DataType) :
    ExtractionProgress :=
  dumpFiles.foldl (rehydrateFile cfg m) progress

/-- The start time every later message of the run carries. -/
def resolveStart (s : Service) : Service :=
  { s with run := { s.run with
      processingStartedAt :=
        s.shared.marker.processingPhase.startedAt.getD s.run.extractionStartedAt } }

/-- Start the processing phase, or resume it. -/
def startPhase (s : Service) (saved : Bool) : Option Service :=
  match s.phase with
  | .starting =>
    let m := s.shared.marker
    let count := s.run.dumpFiles.length
    match m.processingPhase.status with
    | .pending =>
      let lineage := { s.run.lineage with started := s.run.lineage.started.orElse fun _ => s.shared.now }
      let t := { s.setMarker (m.startProcessing count s.shared.now) with
        run := { s.run with lineage := lineage } }
      some (t.resolveStart.saveThen saved .mapping)
    | .inProgress =>
      let m := { m with processingPhase := { m.processingPhase with filesTotal := count } }
      let t := (s.setMarker m).resolveStart.saveThen saved .mapping
      some (if saved then
          { t with shared := { t.shared with
              progress := rehydrate cfg m t.shared.progress s.run.dumpFiles } }
        else t)
    | _ => some (s.resolveStart.goto .mapping)
  | _ => none

def buildMap (s : Service) (fault : Option Error) : Option Service :=
  match s.phase with
  | .mapping =>
    match fault, cfg.discogsMap s.files s.run.dumpFiles with
    | some e, _ => some (s.finish (.error e))
    | none, .error e => some (s.finish (.error e))
    | none, .ok map =>
      some ({ s with run := { s.run with artistDiscogsMap := map } }.goto
        (.looping s.run.dumpFiles))
  | _ => none

/-! ## The files -/

def countRecords (s : Service) (dt : DataType) (records : Nat) : Service :=
  { s with run := { s.run with recordCounts := s.run.recordCounts.insert dt.asStr records } }

/-- The announcement of the version. -/
def extractionComplete (s : Service) : ExtractionCompleteMessage where
  version := cfg.dump.version
  timestamp := s.shared.now
  startedAt := s.run.processingStartedAt
  recordCounts := s.run.recordCounts

/-- One turn of the loop over the files; leaving the loop decides on the announcement. -/
def nextFile (s : Service) (saved : Bool) : Option Service :=
  match s.phase with
  | .looping [] =>
    some (s.goto (if s.run.success then .announcing (s.extractionComplete cfg) DataType.musicbrainz []
      else .finalising))
  | .looping (dt :: rest) =>
    if s.shutdown then some ({ s with run := { s.run with success := false } }.goto .finalising)
    else match s.shared.marker.completedRecords (cfg.dump.fileName dt) with
      | some records => some ((s.countRecords dt records).goto (.looping rest))
      | none =>
        let t := s.setMarker
          (s.shared.marker.startFileProcessing (cfg.dump.fileName dt) s.shared.now)
        let source := { bytes := s.files (cfg.dump.path dt), map := s.run.artistDiscogsMap }
        some (t.saveThen saved (.processing dt rest source (Tasks.spawn cfg.pipeline)))
  | _ => none

/-- The lineage once a file was marked as processed from `source`. -/
def Lineage.mark (l : Lineage) (dt : DataType) (source : Source) : Lineage :=
  { l with processed := fun dt' => if dt' = dt then some source else l.processed dt' }

/-- Marking a file extends the lineage in memory, and on disk when it was saved. -/
def settleLineage (s : Service) (dt : DataType) (source : Source) (before after : Main) : Service :=
  match before, after with
  | .marking _ _, .finished true _ saved =>
    let lineage := Lineage.mark s.run.lineage dt source
    { s with
      run := { s.run with lineage := lineage }
      diskLineage := if saved then lineage else s.diskLineage }
  | _, _ => s

def pipeline (s : Service) (l : Pipeline.Label) : Option Service :=
  match s.phase with
  | .processing dt rest source tasks =>
    (Pipeline.step cfg.pipeline (cfg.job dt source) ⟨s.shared, tasks⟩ l).map fun p =>
      { s with shared := p.shared, phase := .processing dt rest source p.tasks }.settleLineage
        dt source tasks.main p.tasks.main
  | _ => none

def fileDone (s : Service) : Option Service :=
  match s.phase with
  | .processing dt rest _ tasks =>
    match tasks.main with
    | .finished fileSuccess totalCount saved =>
      if saved then
        let t := s.countRecords dt totalCount
        some { t with
          run := { t.run with success := t.run.success && fileSuccess }
          phase := .looping rest }
      else some (s.finish (.error saveFailed))
    | _ => none
  | _ => none

/-! ## The version -/

def collectError (errors : List String) (dt : DataType) : Except Error Unit → List String
  | .ok () => errors
  | .error e => errors ++ [announceError dt e]

/-- Every exchange is attempted, whatever became of the ones before it. -/
def announce (s : Service) (reply : Reply) : Option Service :=
  match s.phase with
  | .announcing message (dt :: rest) errors =>
    some { s with
      shared := s.shared.publish dt (.extractionComplete message) reply
      phase := .announcing message rest (collectError errors dt
        (publishResult (exchangeName cfg.pipeline.exchangePrefix dt) reply)) }
  | _ => none

def announced (s : Service) : Option Service :=
  match s.phase with
  | .announcing _ [] errors =>
    match announceResult errors with
    | .ok () => some (s.goto .finalising)
    | .error _ => some ({ s with run := { s.run with success := false } }.goto .finalising)
  | _ => none

def finalise (s : Service) (saved : Bool) : Option Service :=
  match s.phase with
  | .finalising =>
    let m := s.shared.marker
    let t := s.setMarker (if s.run.success then (m.completeProcessing s.shared.now).completeExtraction
      else m)
    some (t.saveThen saved .reporting)
  | _ => none

def report (s : Service) : Option Service :=
  match s.phase with
  | .reporting =>
    some ({ s with status := if s.run.success then .completed else .failed }.finish
      (.ok s.run.success))
  | _ => none

/-! ## The machine -/

/-- A killed process: what was in memory is gone. -/
def crash (s : Service) : Service :=
  { s with
    shared := { s.shared with progress := {} }
    shutdown := false
    status := .idle
    phase := .idle
    outcome := none }

def step (s : Service) : Label → Option Service
  | .tick elapsed => some { s with shared := { s.shared with now := s.shared.now + elapsed } }
  | .requestShutdown => some { s with shutdown := true }
  | .crash => some s.crash
  | .loseMarker => some { s with shared := { s.shared with disk := none } }
  | .removeFile dt =>
    some { s with files := fun path => if path = cfg.dump.path dt then none else s.files path }
  | .begin force => s.begin force
  | .checkShutdown => s.checkShutdown
  | .download fetched fault => s.download cfg fetched fault
  | .discover found => s.discover cfg found
  | .decide readable => s.decide cfg readable
  | .connect fault => s.connect fault
  | .declareExchange fault => s.declareExchange fault
  | .startPhase saved => s.startPhase cfg saved
  | .buildMap fault => s.buildMap cfg fault
  | .nextFile saved => s.nextFile cfg saved
  | .pipeline l => s.pipeline cfg l
  | .fileDone => s.fileDone
  | .announce reply => s.announce cfg reply
  | .announced => s.announced
  | .finalise saved => s.finalise saved
  | .report => s.report

/-- A process that has not run yet, over whatever files are on disk. -/
def initial (files : Files) (now : DateTime) : Service where
  shared := { now, disk := none, log := [], marker := .new cfg.dump.version now, progress := {} }
  files := files
  shutdown := false
  status := .idle
  phase := .idle
  run := {
    force := false
    extractionStartedAt := now
    publishedBefore := 0
    dumpFiles := []
    loaded := none
    lineage := .fresh 0
    processingStartedAt := now
    artistDiscogsMap := ∅
    recordCounts := ∅
    success := true }
  diskLineage := .fresh 0
  outcome := none

def machine : Machine Service Label where
  init s := ∃ files now, s = initial cfg files now
  step := step cfg

end Service

end MusicbrainzIngestion
