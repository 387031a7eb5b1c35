import MusicbrainzIngestion.Base.Json
import MusicbrainzIngestion.Base.Table
import MusicbrainzIngestion.Base.Text

/-! The messages and the per-type tallies shared by every stage. Times are
nanoseconds since the epoch, counters are unbounded. -/

namespace MusicbrainzIngestion
open Base Base.Json

abbrev DateTime := Nat

/-- An error with its contexts, outermost first. -/
abbrev Error := List String

/-- What the program takes from its dependencies: opening and decompressing a file,
reading and printing JSON, hashing a text to hexadecimal, Unicode upper case. -/
structure Externals where
  openFile : String → Except String Text.Stream
  xzDecode : Text.Stream → Text.Stream
  fromStr : String → Except String Value
  serialize : Value → String
  sha256Hex : String → String
  toUppercase : String → String

/-- Entity types represented in MusicBrainz extraction state. -/
inductive DataType where
  | artists
  | labels
  | releaseGroups
  | releases
deriving DecidableEq, Repr

namespace DataType

def musicbrainz : List DataType := [.artists, .labels, .releaseGroups, .releases]

def asStr : DataType → String
  | .artists => "artists"
  | .labels => "labels"
  | .releaseGroups => "release-groups"
  | .releases => "releases"

theorem mem_musicbrainz (dt : DataType) : dt ∈ musicbrainz := by cases dt <;> decide

theorem nodup_musicbrainz : musicbrainz.Nodup := by decide

theorem asStr_injective : Function.Injective asStr := by
  intro a b h
  cases a <;> cases b <;> first | rfl | exact absurd h (by decide)

end DataType

/-- Progress tracking for extraction. -/
structure ExtractionProgress where
  artists : Nat := 0
  labels : Nat := 0
  releaseGroups : Nat := 0
  releases : Nat := 0
deriving DecidableEq, Repr

namespace ExtractionProgress

def add (p : ExtractionProgress) (dt : DataType) (count : Nat) : ExtractionProgress :=
  match dt with
  | .artists => { p with artists := p.artists + count }
  | .labels => { p with labels := p.labels + count }
  | .releaseGroups => { p with releaseGroups := p.releaseGroups + count }
  | .releases => { p with releases := p.releases + count }

def increment (p : ExtractionProgress) (dt : DataType) : ExtractionProgress := p.add dt 1

def get (p : ExtractionProgress) : DataType → Nat
  | .artists => p.artists
  | .labels => p.labels
  | .releaseGroups => p.releaseGroups
  | .releases => p.releases

def total (p : ExtractionProgress) : Nat := p.artists + p.labels + p.releaseGroups + p.releases

@[simp] theorem get_default (dt : DataType) : ({} : ExtractionProgress).get dt = 0 := by
  cases dt <;> rfl

theorem get_add (p : ExtractionProgress) (dt dt' : DataType) (n : Nat) :
    (p.add dt n).get dt' = p.get dt' + if dt = dt' then n else 0 := by
  cases dt <;> cases dt' <;> rfl

theorem total_eq_sum (p : ExtractionProgress) :
    p.total = (DataType.musicbrainz.map p.get).sum := by
  simp only [total, DataType.musicbrainz, List.map_cons, List.map_nil, List.sum_cons,
    List.sum_nil, get]
  omega

end ExtractionProgress

def Externals.calculateContentHash (env : Externals) (data : Value) : String :=
  env.sha256Hex (env.serialize data)

/-- A parsed record. `data` is flattened into the message, `rawXml` is never sent. -/
structure DataMessage where
  id : String
  sha256 : String
  dumpVersion : String
  data : Value
  rawXml : Option (List UInt8)

structure FileCompleteMessage where
  dataType : String
  timestamp : DateTime
  totalProcessed : Nat
  file : String
deriving DecidableEq, Repr

/-- Sent once after all files finish processing. -/
structure ExtractionCompleteMessage where
  version : String
  timestamp : DateTime
  startedAt : DateTime
  recordCounts : Table String Nat

inductive Message where
  | data (m : DataMessage)
  | fileComplete (m : FileCompleteMessage)
  | extractionComplete (m : ExtractionCompleteMessage)

end MusicbrainzIngestion
