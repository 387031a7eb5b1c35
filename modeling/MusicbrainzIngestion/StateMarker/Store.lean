import MusicbrainzIngestion.Base.DurableDir
import MusicbrainzIngestion.Base.Machine
import MusicbrainzIngestion.StateMarker.Json

/-! The file of a state marker. A save writes a temporary sibling, syncs it, renames it and syncs
the directory; each of these may fail, and the process or the power may end between any two. -/

namespace MusicbrainzIngestion
open Base Base.Json

theorem StateMarker.Bounded.stamped {m : StateMarker} (h : m.Bounded) (now : DateTime) :
    (m.stamped now).Bounded := ⟨h.download, h.processing, h.publishing, h.summary⟩

/-- A marker whose counters fit their types, and whose duration is whole seconds. -/
structure TypedMarker where
  marker : StateMarker
  bounded : marker.Bounded

def TypedMarker.stamped (m : TypedMarker) (now : DateTime) : TypedMarker :=
  ⟨m.marker.stamped now, m.bounded.stamped now⟩

namespace MarkerStore

/-- Where a save is: the bytes still to be written, and those written to the temporary file. -/
inductive Stage where
  | idle
  | creating (json : List UInt8)
  | writing (inode : Nat) (written rest : List UInt8)
  | renaming
  | syncingDir

inductive Label where
  | call (m : TypedMarker) (now : DateTime)
  | create (fault : Option String)
  | write (n : Nat) (fault : Option String)
  | sync (fault : Option (String × List UInt8))
  | rename (fault : Option String)
  | syncDir (synced : Bool)
  | kill
  | powerLoss (kept : List (Update String)) (garbled : Nat → List UInt8)

end MarkerStore

/-- The directory of a marker and the save at work in it. `begun` are the markers of all saves so
far and `acked` is how many of them had begun when one last returned `Ok`. -/
structure MarkerStore where
  volume : Volume String (List UInt8)
  begun : List TypedMarker
  acked : Nat
  stage : MarkerStore.Stage
  outcome : Option (Except Error Unit)

namespace MarkerStore

variable (f : MarkerFormat) (path : String)

def tmpPath : String := Text.withExtension path "json.tmp"

def contents (m : StateMarker) : List UInt8 := (f.text.print (m.toValue f)).toByteArray.data.toList

/-! ## Loading -/

/-- Content that is not UTF-8 or not a marker is no marker. -/
def parse (bytes : List UInt8) : Option StateMarker :=
  match Text.decodeUtf8 bytes with
  | .error _ => none
  | .ok text => (f.text.read text).bind (StateMarker.ofValue f)

def finished (s : MarkerStore) (outcome : Except Error Unit) : MarkerStore :=
  { s with stage := .idle, outcome := some outcome }

def call (s : MarkerStore) (m : TypedMarker) (now : DateTime) : Option MarkerStore :=
  match s.stage with
  | .idle => some { s with
      begun := s.begun ++ [m.stamped now]
      stage := .creating (contents f (m.stamped now).marker)
      outcome := none }
  | _ => none

def create (s : MarkerStore) (fault : Option String) : Option MarkerStore :=
  match s.stage with
  | .creating json =>
    match fault with
    | some e => some (s.finished (.error ["Failed to create state marker temp file", e]))
    | none => some { s with
        volume := s.volume.create (tmpPath path) []
        stage := .writing (s.volume.opened (tmpPath path)) [] json }
  | _ => none

/-- One write of up to `n` bytes; what it wrote before a fault stays in the file. -/
def write (s : MarkerStore) (n : Nat) (fault : Option String) : Option MarkerStore :=
  match s.stage with
  | .writing inode written rest =>
    let written := written ++ rest.take n
    let s := { s with volume := s.volume.write inode written }
    match fault with
    | some e => some (s.finished (.error ["Failed to write state marker temp file", e]))
    | none => some { s with stage := .writing inode written (rest.drop n) }
  | _ => none

/-- Writes go on in the background; one that failed shows here, with what is then in the file. -/
def sync (s : MarkerStore) (fault : Option (String × List UInt8)) : Option MarkerStore :=
  match s.stage with
  | .writing inode _ [] =>
    match fault with
    | some (e, left) =>
      let s := { s with volume := s.volume.write inode left }
      some (s.finished (.error ["Failed to fsync state marker temp file", e]))
    | none => some { s with volume := s.volume.fsync inode, stage := .renaming }
  | _ => none

def rename (s : MarkerStore) (fault : Option String) : Option MarkerStore :=
  match s.stage with
  | .renaming =>
    match fault with
    | some e => some (s.finished (.error ["Failed to rename state marker temp file", e]))
    | none => some { s with volume := s.volume.rename (tmpPath path) path, stage := .syncingDir }
  | _ => none

/-- Best effort: a directory that cannot be synced does not fail the save. -/
def syncDir (s : MarkerStore) (synced : Bool) : Option MarkerStore :=
  match s.stage with
  | .syncingDir =>
    let volume := if synced then s.volume.fsyncDir else s.volume
    some ({ s with volume := volume, acked := s.begun.length }.finished (.ok ()))
  | _ => none

def kill (s : MarkerStore) : MarkerStore := { s with stage := .idle, outcome := none }

def step (s : MarkerStore) : Label → Option MarkerStore
  | .call m now => s.call f m now
  | .create fault => s.create path fault
  | .write n fault => s.write n fault
  | .sync fault => s.sync fault
  | .rename fault => s.rename path fault
  | .syncDir synced => s.syncDir synced
  | .kill => some s.kill
  | .powerLoss kept garbled =>
    if kept.Sublist s.volume.pending then
      some { s.kill with volume := s.volume.powerLoss kept garbled }
    else none

/-- Before the first save: nothing in flight, what lies under the marker's name is on disk, and the
temporary name does not lead to it. -/
structure Settled (volume : Volume String (List UInt8)) : Prop where
  pending : volume.pending = []
  bounded : ∀ name i, volume.durable name = some i → i < volume.next
  synced : ∀ i, volume.durable path = some i → volume.synced i = true
  apart : ∀ i, volume.durable (tmpPath path) = some i → volume.durable path ≠ some i

def start (volume : Volume String (List UInt8)) : MarkerStore := ⟨volume, [], 0, .idle, none⟩

def machine : Machine MarkerStore Label where
  init s := ∃ volume, Settled path volume ∧ s = start volume
  step := step f path

/-! ## What a step does -/

/-- The step ends the save and leaves the file as it was. -/
structure Stopped (s t : MarkerStore) : Prop where
  volume : t.volume = s.volume
  begun : t.begun = s.begun
  acked : t.acked = s.acked
  stage : t.stage = .idle

inductive Move (s : MarkerStore) : Label → MarkerStore → Prop where
  | stopped {l : Label} {t : MarkerStore} (h : Stopped s t) : Move s l t
  | called (m : TypedMarker) (now : DateTime) :
    Move s (.call m now) { s with
      begun := s.begun ++ [m.stamped now]
      stage := .creating (contents f (m.stamped now).marker)
      outcome := none }
  | created {json : List UInt8} (h : s.stage = .creating json) :
    Move s (.create none) { s with
      volume := s.volume.create (tmpPath path) []
      stage := .writing (s.volume.opened (tmpPath path)) [] json }
  | wrote {inode n : Nat} {written rest : List UInt8} (h : s.stage = .writing inode written rest) :
    Move s (.write n none) { s with
      volume := s.volume.write inode (written ++ rest.take n)
      stage := .writing inode (written ++ rest.take n) (rest.drop n) }
  | spoiled {l : Label} {inode : Nat} {written rest left : List UInt8} {outcome : Except Error Unit}
    (h : s.stage = .writing inode written rest) :
    Move s l ({ s with volume := s.volume.write inode left }.finished outcome)
  | synced {inode : Nat} {written : List UInt8} (h : s.stage = .writing inode written []) :
    Move s (.sync none) { s with volume := s.volume.fsync inode, stage := .renaming }
  | renamed (h : s.stage = .renaming) :
    Move s (.rename none)
      { s with volume := s.volume.rename (tmpPath path) path, stage := .syncingDir }
  | dirSynced (h : s.stage = .syncingDir) (synced : Bool) :
    Move s (.syncDir synced)
      ({ s with
        volume := if synced then s.volume.fsyncDir else s.volume
        acked := s.begun.length }.finished (.ok ()))
  | lost {kept : List (Update String)} {garbled : Nat → List UInt8}
    (hk : kept.Sublist s.volume.pending) :
    Move s (.powerLoss kept garbled) { s.kill with volume := s.volume.powerLoss kept garbled }

variable {f path} {s t : MarkerStore} {l : Label}

theorem step_move (h : step f path s l = some t) : Move f path s l t := by
  cases l with
  | call m now =>
    simp only [step, call] at h
    split at h
    · cases h
      exact .called m now
    · cases h
  | create fault =>
    simp only [step, create] at h
    split at h
    · rename_i json hstage
      cases fault with
      | some e =>
        cases h
        exact .stopped ⟨rfl, rfl, rfl, rfl⟩
      | none =>
        cases h
        exact .created hstage
    · cases h
  | write n fault =>
    simp only [step, write] at h
    split at h
    · rename_i inode written rest hstage
      cases fault with
      | some e =>
        cases h
        exact .spoiled hstage
      | none =>
        cases h
        exact .wrote hstage
    · cases h
  | sync fault =>
    simp only [step, sync] at h
    split at h
    · rename_i inode written hstage
      cases fault with
      | some fault =>
        cases h
        exact .spoiled hstage
      | none =>
        cases h
        exact .synced hstage
    · cases h
  | rename fault =>
    simp only [step, rename] at h
    split at h
    · rename_i hstage
      cases fault with
      | some e =>
        cases h
        exact .stopped ⟨rfl, rfl, rfl, rfl⟩
      | none =>
        cases h
        exact .renamed hstage
    · cases h
  | syncDir synced =>
    simp only [step, syncDir] at h
    split at h
    · rename_i hstage
      cases h
      exact .dirSynced hstage synced
    · cases h
  | kill =>
    cases h
    exact .stopped ⟨rfl, rfl, rfl, rfl⟩
  | powerLoss kept garbled =>
    simp only [step] at h
    split at h
    · rename_i hk
      cases h
      exact .lost hk
    · cases h

end MarkerStore

end MusicbrainzIngestion
