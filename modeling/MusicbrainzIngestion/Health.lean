import Mathlib.Data.Finset.Card
import MusicbrainzIngestion.Base.Watch
import MusicbrainzIngestion.LoopStatus
import MusicbrainzIngestion.WireFormat

/-! The health server and the state it reads. Beside the progress and the status, which the
service carries, the tasks keep what was completed, what is in work, what failed and when
the last record came; three handlers tell it. No statement of a run reads any of it, so it
is watched: each step of the loop brings it up to date. -/

namespace MusicbrainzIngestion
open Base Base.Json

/-- The rest of the state shared across the extractor. -/
structure Gauges where
  lastExtractionTime : Table DataType DateTime
  completedFiles : Finset String
  activeConnections : Table DataType String
  errorCount : Nat

/-- The gauges, and how much had been published when they were last reset. -/
structure Watcher where
  gauges : Gauges
  since : Nat

namespace Gauges

/-- As the process starts, and as every run does. -/
def reset : Gauges where
  lastExtractionTime := ∅
  completedFiles := ∅
  activeConnections := ∅
  errorCount := 0

/-! ## What the tasks of a file record -/

/-- The batcher has received a record. -/
def batcher (g : Gauges) (dt : DataType) (now : DateTime) (before after : Batcher) : Gauges :=
  if before.totalRecords < after.totalRecords then
    { g with lastExtractionTime := g.lastExtractionTime.insert dt now }
  else g

/-- The publisher has failed on a batch. A panic is not counted. -/
def publisher (g : Gauges) (before after : Publisher) : Gauges :=
  match before, after with
  | .done _, _ => g
  | _, .done (.failed _) => { g with errorCount := g.errorCount + 1 }
  | _, _ => g

def tasks (g : Gauges) (dt : DataType) (now : DateTime) (before after : Tasks) : Gauges :=
  (g.batcher dt now before.batcher after.batcher).publisher before.publisher after.publisher

/-! ## What the run records -/

def startFile (g : Gauges) (dt : DataType) (fileName : String) : Gauges :=
  { g with activeConnections := g.activeConnections.insert dt fileName }

def endFile (g : Gauges) (dt : DataType) (fileName : String) (fileSuccess : Bool) : Gauges :=
  { g with
    completedFiles := if fileSuccess then insert fileName g.completedFiles else g.completedFiles
    activeConnections := g.activeConnections.erase dt }

end Gauges

namespace Watcher

variable (cfg : ServiceConfig)

/-- A file whose marker cannot be saved ends the run before anything is recorded of it. -/
def service (s : Service) (l : Service.Label) (t : Service) (w : Watcher) : Watcher :=
  match l, s.phase, t.phase with
  | .checkShutdown, _, .downloading => ⟨.reset, s.shared.log.length⟩
  | .nextFile _, _, .processing dt _ _ _ =>
    { w with gauges := w.gauges.startFile dt (cfg.dump.fileName dt) }
  | .pipeline _, .processing dt _ _ before, .processing _ _ _ after =>
    { w with gauges := w.gauges.tasks dt s.shared.now before after }
  | .fileDone, .processing dt _ _ tasks, .looping _ =>
    match tasks.main with
    | .finished fileSuccess _ _ =>
      { w with gauges := w.gauges.endFile dt (cfg.dump.fileName dt) fileSuccess }
    | _ => w
  | _, _, _ => w

def loop (s : RunLoop) (l : RunLoop.Label) (t : RunLoop) (w : Watcher) : Watcher :=
  match l with
  | .service l => w.service cfg s.service l t.service
  | _ => w

end Watcher

/-- The process with the state its health server reads. -/
def RunLoop.monitored (cfg : ServiceConfig) (forceReprocess : Bool) :
    Machine (RunLoop × Watcher) RunLoop.Label :=
  (RunLoop.machine cfg forceReprocess).watched (Watcher.loop cfg) fun s =>
    ⟨.reset, s.service.shared.log.length⟩

/-! ## The handlers -/

def ExtractionStatus.asStr : ExtractionStatus → String
  | .idle => "idle"
  | .running => "running"
  | .completed => "completed"
  | .waiting => "waiting"
  | .failed => "failed"

end MusicbrainzIngestion
