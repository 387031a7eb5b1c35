import MusicbrainzIngestion.Base.DurableDir
import MusicbrainzIngestion.Base.Machine
import MusicbrainzIngestion.Types

/-! The downloader of a dump version. Each entity's tarball is streamed through the xz
decoder, the tar reader and the xz encoder into a temporary sibling of its final file;
the stream is drained so that all of it is hashed, and the sibling is renamed when the
hash is the published one. A label carries what the network, the file system and the
clock do, so a run may be killed, or the power lost, between any two steps. -/

namespace MusicbrainzIngestion
open Base

/-! ## Names -/

def entityKeyword : DataType → String
  | .artists => "artist"
  | .labels => "label"
  | .releaseGroups => "release-group"
  | .releases => "release"

def mbEntities : List DataType := [.artists, .labels, .releaseGroups, .releases]

def bareName (dt : DataType) : String := entityKeyword dt ++ ".jsonl"

def outName (dt : DataType) : String := entityKeyword dt ++ ".jsonl.xz"

def tmpDownloadName (name : String) : String := name ++ ".tmp"

def tarballName (dt : DataType) : String := entityKeyword dt ++ ".tar.xz"

/-- The entity exists under one of its final names. -/
def entityIsComplete (present : String → Bool) (dt : DataType) : Bool :=
  present (bareName dt) || present (outName dt)

def isVersionComplete (isDir : Bool) (present : String → Bool) : Bool :=
  isDir && mbEntities.all (entityIsComplete present)

def mbFilePatterns : DataType → List String
  | .artists => ["artist.jsonl.xz", "mbdump-artist.jsonl.xz", "artist.jsonl"]
  | .labels => ["label.jsonl.xz", "mbdump-label.jsonl.xz", "label.jsonl"]
  | .releaseGroups =>
    ["release-group.jsonl.xz", "mbdump-release-group.jsonl.xz", "release-group.jsonl"]
  | .releases => ["release.jsonl.xz", "mbdump-release.jsonl.xz", "release.jsonl"]

def fuzzyMatch (dt : DataType) (name : String) : Bool :=
  Text.contains name (entityKeyword dt) &&
    !(dt == .releases && Text.contains name "release-group") &&
    (Text.endsWith name ".jsonl.xz" || Text.endsWith name ".jsonl")

/-- The file of one entity: an exact name, else the first listed name that fits. -/
def discoverEntity (present : String → Bool) (entries : List String) (dt : DataType) :
    Option String :=
  ((mbFilePatterns dt).find? present).or (entries.find? (fuzzyMatch dt))

/-- `listing` are the regular files, none when the directory is missing. A listing that failed
otherwise is an error only when the exact names found nothing. -/
def discoverMbDumpFiles (root : String) (present : String → Bool)
    (listing : Except Error (List String)) : Except Error (List (DataType × String)) :=
  let entries := match listing with
    | .ok names => names
    | .error _ => []
  let found := mbEntities.filterMap fun dt =>
    (discoverEntity present entries dt).map fun name => (dt, name)
  match found, listing with
  | [], .error e => .error (("Failed to read MusicBrainz dump directory " ++ root) :: e)
  | found, _ => .ok found

/-! ## Checksums -/

/-- `hash  filename` or `hash *filename`. -/
def sumsLine (line : List Char) : Option (String × String) :=
  let line := Text.trimChars line
  match line.dropWhile (!Text.isWhitespace ·) with
  | [] => none
  | _ :: rest =>
    some (String.ofList ((Text.trimChars rest).dropWhile (· == '*')),
      String.ofList (line.takeWhile (!Text.isWhitespace ·)))

def parseSha256sums (content : String) : Table String String :=
  ((content.toList.splitOn '\n').filterMap sumsLine).foldl
    (fun sums (filename, hash) => sums.insert filename hash) ∅

/-! ## Extraction -/

/-- One entry of an archive: its path, and what reading it gives, piece by piece. -/
structure TarEntry where
  path : Except Error String
  chunks : List (Except Error (List UInt8))

/-- The decoders, the encoder and the hash. -/
structure DownloadExternals where
  entries : Text.Stream → Except Error (List (Except Error TarEntry))
  xzEncode : List UInt8 → List UInt8
  sha256Hex : List UInt8 → String

def pathComponents (path : String) : List String :=
  ((path.toList.splitOn '/').map String.ofList).filter fun c => c ≠ "" ∧ c ≠ "."

/-- `Path::ends_with`, component by component. -/
def pathEndsWith (path suffix : String) : Bool :=
  decide (pathComponents suffix <:+ pathComponents path)

def targetSuffix (dt : DataType) : String := "mbdump/" ++ entityKeyword dt

/-- All that is read before an empty read. -/
def readAll : List (Except Error (List UInt8)) → Option (List UInt8)
  | [] => some []
  | .error _ :: _ => none
  | .ok chunk :: rest => if chunk = [] then some [] else (readAll rest).map (chunk ++ ·)

def extractedFrom (env : DownloadExternals) (dt : DataType) :
    List (Except Error TarEntry) → Option (List UInt8)
  | [] => none
  | .error _ :: _ => none
  | .ok entry :: rest =>
    match entry.path with
    | .error _ => none
    | .ok path =>
      if pathEndsWith path (targetSuffix dt) then (readAll entry.chunks).map env.xzEncode
      else extractedFrom env dt rest

/-- What a successful extraction of the entity from this response writes. -/
def extracted (env : DownloadExternals) (dt : DataType) (response : Text.Stream) :
    Option (List UInt8) :=
  match env.entries response with
  | .error _ => none
  | .ok entries => extractedFrom env dt entries

/-! ## The state -/

namespace Downloader

/-- The entity being acquired, the ones after it, and the number of the attempt. -/
structure Acquisition where
  entity : DataType
  rest : List DataType
  expected : String
  attempt : Nat

/-- Where an attempt is. The response is kept while it is read. -/
inductive Stage where
  | preparing
  | requesting
  | scanning (response : Text.Stream) (entries : List (Except Error TarEntry))
  | creating (response : Text.Stream) (chunks : List (Except Error (List UInt8)))
  | copying (response : Text.Stream) (inode : Nat) (chunks : List (Except Error (List UInt8)))
    (content : List UInt8)
  | finishing (response : Text.Stream) (inode : Nat) (content : List UInt8)
  | syncing (response : Text.Stream) (inode : Nat)
  | draining (response : Text.Stream) (inode : Nat)
  | renaming (inode : Nat)
  | syncingDir
  | discarding (e : Error)
  | cleaning (e : Error)

/-- The stages that run in the blocking task, which may panic. -/
def Stage.blocking : Stage → Bool
  | .preparing | .requesting | .renaming _ | .syncingDir | .cleaning _ => false
  | _ => true

inductive Phase where
  | idle
  | indexing
  | checking
  | summing
  | makingDir (sums : String)
  | entities (sums : String) (rest : List DataType)
  | acquiring (sums : String) (job : Acquisition) (stage : Stage)

end Downloader

inductive MbDownloadResult where
  | alreadyCurrent
  | downloaded
deriving DecidableEq

/-- A finished extraction, of a response whose bytes all had the published hash. -/
structure Verified where
  entity : DataType
  sums : String
  response : Text.Stream
  content : List UInt8

/-- The directory of one version and the run at work on it; `verified` is the history of the
finished extractions. -/
structure Downloader where
  volume : Volume String (List UInt8)
  isDir : Bool
  phase : Downloader.Phase
  verified : List Verified
  outcome : Option (Except Error MbDownloadResult)

namespace Downloader

inductive Label where
  | begin
  | index (fault : Option Error)
  | check
  | sums (reply : Except Error String)
  | makeDir (fault : Option Error)
  | nextEntity
  | prepare (removed : Bool)
  | request (reply : Except Error Text.Stream)
  | scan
  | create (created encoder : Bool)
  | copy (written : List UInt8) (fault : Bool)
  | finish (garbage : Option (List UInt8))
  | sync (fault : Bool)
  | drain
  | rename (fault : Bool)
  | syncDir (synced : Bool)
  | discard (removed : Bool)
  | clean (removed : Bool)
  | panic
  | kill
  | powerLoss (dirKept : Bool) (kept : List (Update String)) (garbled : Nat → List UInt8)

variable (env : DownloadExternals)

def present (d : Downloader) (name : String) : Bool := (d.volume.visible name).isSome

def goto (d : Downloader) (phase : Phase) : Downloader := { d with phase := phase }

def finished (d : Downloader) (outcome : Except Error MbDownloadResult) : Downloader :=
  { d with phase := .idle, outcome := some outcome }

def MB_MAX_DOWNLOAD_RETRIES : Nat := 3

/-- The next attempt, or the last error when there is none left. -/
def retry (d : Downloader) (sums : String) (job : Acquisition) (e : Error) : Downloader :=
  if job.attempt < MB_MAX_DOWNLOAD_RETRIES then
    d.goto (.acquiring sums { job with attempt := job.attempt + 1 } .preparing)
  else d.finished (.error e)

def tmpName (job : Acquisition) : String := tmpDownloadName (outName job.entity)

/-- Remove the temporary file, best effort. -/
def removeTmp (d : Downloader) (job : Acquisition) (removed : Bool) : Downloader :=
  if removed then { d with volume := d.volume.remove (tmpName job) } else d

/-! ## A run -/

def begin (d : Downloader) : Option Downloader :=
  match d.phase with
  | .idle => some { d with phase := .indexing, outcome := none }
  | _ => none

/-- The index names the version; the directory is the version's. -/
def index (d : Downloader) (fault : Option Error) : Option Downloader :=
  match d.phase with
  | .indexing =>
    match fault with
    | some e => some (d.finished (.error e))
    | none => some (d.goto .checking)
  | _ => none

def check (d : Downloader) : Option Downloader :=
  match d.phase with
  | .checking =>
    if isVersionComplete d.isDir d.present then some (d.finished (.ok .alreadyCurrent))
    else some (d.goto .summing)
  | _ => none

def fetchSums (d : Downloader) (reply : Except Error String) : Option Downloader :=
  match d.phase with
  | .summing =>
    match reply with
    | .error e => some (d.finished (.error e))
    | .ok sums => some (d.goto (.makingDir sums))
  | _ => none

def makeDir (d : Downloader) (fault : Option Error) : Option Downloader :=
  match d.phase with
  | .makingDir sums =>
    match fault with
    | some e => some (d.finished (.error e))
    | none => some ({ d with isDir := true }.goto (.entities sums mbEntities))
  | _ => none

/-- An entity that is present is not requested, whether or not it has a checksum. -/
def nextEntity (d : Downloader) : Option Downloader :=
  match d.phase with
  | .entities _ [] => some (d.finished (.ok .downloaded))
  | .entities sums (dt :: rest) =>
    if entityIsComplete d.present dt then some (d.goto (.entities sums rest))
    else match (parseSha256sums sums).lookup (tarballName dt) with
      | none => some (d.finished (.error
          ["No SHA256 checksum found for " ++ tarballName dt ++ " in SHA256SUMS"]))
      | some expected => some (d.goto (.acquiring sums ⟨dt, rest, expected, 1⟩ .requesting))
  | _ => none

/-! ## An attempt -/

def prepare (d : Downloader) (removed : Bool) : Option Downloader :=
  match d.phase with
  | .acquiring sums job .preparing =>
    some ((d.removeTmp job removed).goto (.acquiring sums job .requesting))
  | _ => none

def request (d : Downloader) (reply : Except Error Text.Stream) : Option Downloader :=
  match d.phase with
  | .acquiring sums job .requesting =>
    match reply with
    | .error e => some (d.retry sums job e)
    | .ok response =>
      match env.entries response with
      | .error e => some (d.goto (.acquiring sums job (.cleaning ("Failed to read tar entries" :: e))))
      | .ok entries => some (d.goto (.acquiring sums job (.scanning response entries)))
  | _ => none

/-- What looking at the next entry leads to. -/
def scanned (dt : DataType) (response : Text.Stream) : List (Except Error TarEntry) → Stage
  | [] => .discarding ["Entry '" ++ targetSuffix dt ++ "' not found in archive"]
  | .error e :: _ => .cleaning ("Failed to read tar entry" :: e)
  | .ok entry :: rest =>
    match entry.path with
    | .error e => .cleaning ("Failed to read entry path" :: e)
    | .ok path =>
      if pathEndsWith path (targetSuffix dt) then .creating response entry.chunks
      else .scanning response rest

def scan (d : Downloader) : Option Downloader :=
  match d.phase with
  | .acquiring sums job (.scanning response entries) =>
    some (d.goto (.acquiring sums job (scanned job.entity response entries)))
  | _ => none

def create (d : Downloader) (created encoder : Bool) : Option Downloader :=
  match d.phase with
  | .acquiring sums job (.creating response chunks) =>
    if created then
      let t := { d with volume := d.volume.create (tmpName job) [] }
      if encoder then
        some (t.goto (.acquiring sums job
          (.copying response (d.volume.opened (tmpName job)) chunks [])))
      else some (t.goto (.acquiring sums job
        (.cleaning ["Failed to initialise multi-threaded xz encoder"])))
    else some (d.goto (.acquiring sums job (.cleaning ["Failed to create output file"])))
  | _ => none

/-- Read a piece and hand it to the encoder; `written` is what the file holds after that. -/
def copy (d : Downloader) (written : List UInt8) (fault : Bool) : Option Downloader :=
  match d.phase with
  | .acquiring sums job (.copying response inode chunks content) =>
    match chunks with
    | [] => some (d.goto (.acquiring sums job (.finishing response inode content)))
    | .error e :: _ => some (d.goto (.acquiring sums job
        (.discarding (("Failed to read " ++ entityKeyword job.entity ++ " from tarball") :: e))))
    | .ok chunk :: rest =>
      if chunk = [] then some (d.goto (.acquiring sums job (.finishing response inode content)))
      else
        let t := { d with volume := d.volume.write inode written }
        some (t.goto (.acquiring sums job (if fault then
            .discarding ["Failed to write compressed " ++ entityKeyword job.entity]
          else .copying response inode rest (content ++ chunk))))
  | _ => none

/-- Finish the encoding: all of it is in the file, or something else when that fails. -/
def finish (d : Downloader) (garbage : Option (List UInt8)) : Option Downloader :=
  match d.phase with
  | .acquiring sums job (.finishing response inode content) =>
    match garbage with
    | some data => some ({ d with volume := d.volume.write inode data }.goto
        (.acquiring sums job (.discarding ["Failed to finalize XZ compression"])))
    | none => some ({ d with volume := d.volume.write inode (env.xzEncode content) }.goto
        (.acquiring sums job (.syncing response inode)))
  | _ => none

def sync (d : Downloader) (fault : Bool) : Option Downloader :=
  match d.phase with
  | .acquiring sums job (.syncing response inode) =>
    if fault then some (d.goto (.acquiring sums job (.discarding ["Failed to fsync"])))
    else some ({ d with volume := d.volume.fsync inode }.goto
      (.acquiring sums job (.draining response inode)))
  | _ => none

/-- Read the rest of the response, so that the hash is over all of it, and compare. -/
def drain (d : Downloader) : Option Downloader :=
  match d.phase with
  | .acquiring sums job (.draining response inode) =>
    match response.failure with
    | some e => some (d.goto (.acquiring sums job
        (.cleaning ["Failed to drain compressed stream: " ++ e])))
    | none =>
      let actual := env.sha256Hex response.bytes
      if actual ≠ job.expected then
        some (d.goto (.acquiring sums job (.discarding
          ["SHA256 mismatch for " ++ entityKeyword job.entity ++ ": expected " ++ job.expected ++
            ", got " ++ actual])))
      else
        let verified : Verified := ⟨job.entity, sums, response, d.volume.data inode⟩
        some ({ d with verified := d.verified ++ [verified] }.goto
          (.acquiring sums job (.renaming inode)))
  | _ => none

def rename (d : Downloader) (fault : Bool) : Option Downloader :=
  match d.phase with
  | .acquiring sums job (.renaming _) =>
    if fault then some (d.goto (.acquiring sums job (.cleaning ["Failed to atomically rename"])))
    else some ({ d with volume := d.volume.rename (tmpName job) (outName job.entity) }.goto
      (.acquiring sums job .syncingDir))
  | _ => none

/-- Best effort: a directory that cannot be synced is only logged. -/
def syncDir (d : Downloader) (synced : Bool) : Option Downloader :=
  match d.phase with
  | .acquiring sums job .syncingDir =>
    let t := if synced then { d with volume := d.volume.fsyncDir } else d
    some (t.goto (.entities sums job.rest))
  | _ => none

/-- The extraction removes what it wrote. -/
def discard (d : Downloader) (removed : Bool) : Option Downloader :=
  match d.phase with
  | .acquiring sums job (.discarding e) =>
    some ((d.removeTmp job removed).goto (.acquiring sums job (.cleaning e)))
  | _ => none

/-- A failed attempt removes what is left of it. -/
def clean (d : Downloader) (removed : Bool) : Option Downloader :=
  match d.phase with
  | .acquiring sums job (.cleaning e) => some ((d.removeTmp job removed).retry sums job e)
  | _ => none

/-- A panic of the blocking task ends the run without another attempt. -/
def panicked (d : Downloader) : Option Downloader :=
  match d.phase with
  | .acquiring _ _ stage =>
    if stage.blocking then some (d.finished (.error ["Streaming extraction task panicked"]))
    else none
  | _ => none

/-! ## The machine -/

def kill (d : Downloader) : Downloader := { d with phase := .idle, outcome := none }

def step (d : Downloader) : Label → Option Downloader
  | .begin => d.begin
  | .index fault => d.index fault
  | .check => d.check
  | .sums reply => d.fetchSums reply
  | .makeDir fault => d.makeDir fault
  | .nextEntity => d.nextEntity
  | .prepare removed => d.prepare removed
  | .request reply => d.request env reply
  | .scan => d.scan
  | .create created encoder => d.create created encoder
  | .copy written fault => d.copy written fault
  | .finish garbage => d.finish env garbage
  | .sync fault => d.sync fault
  | .drain => d.drain env
  | .rename fault => d.rename fault
  | .syncDir synced => d.syncDir synced
  | .discard removed => d.discard removed
  | .clean removed => d.clean removed
  | .panic => d.panicked
  | .kill => some d.kill
  | .powerLoss dirKept kept garbled =>
    if kept.Sublist d.volume.pending then
      let volume := d.volume.powerLoss kept garbled
      some { d.kill with
        isDir := d.isDir && dirKept, volume := if dirKept then volume else volume.emptied }
    else none

/-- No run has been at work, and the directory holds no file this downloader writes. -/
def machine : Machine Downloader Label where
  init d := d.phase = .idle ∧ d.outcome = none ∧ d.verified = [] ∧ d.volume.pending = [] ∧
    ∀ dt, d.volume.durable (outName dt) = none ∧
      d.volume.durable (tmpDownloadName (outName dt)) = none
  step := step env

end Downloader

end MusicbrainzIngestion
