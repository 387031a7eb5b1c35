import Mathlib.Data.Rat.Denumerable
import MusicbrainzIngestion.StateMarker.Store

/-! Saves are atomic and durable: whatever stops them, what is loaded is the whole marker of a save
that is no older than the last one that returned `Ok`. -/

namespace MusicbrainzIngestion
open Base Base.Json

namespace MarkerStore

variable {f : MarkerFormat} {path : String} {first : Volume String (List UInt8)}
  {s t : MarkerStore} {l : Label}

/-! ## Names and contents -/

theorem tmpPath_ne (path : String) : tmpPath path ≠ path :=
  Text.withExtension_ne (by decide)

/-- Where the marker is staged and published. -/
def staging (path : String) : Staging Unit String where
  tmp _ := tmpPath path
  final _ := path
  tmp_injective _ _ _ := rfl
  final_injective _ _ _ := rfl
  disjoint _ _ := tmpPath_ne path

/-- The content of a save that began no earlier than the last one that returned `Ok`; without such
a one, that of the file before all saves is not older either. -/
def Recent (f : MarkerFormat) (path : String) (first : Volume String (List UInt8)) (s : MarkerStore)
    (bytes : List UInt8) : Prop :=
  (s.acked = 0 ∧ ∃ i, first.visible path = some i ∧ first.data i = bytes) ∨
    ∃ j m, s.acked ≤ j + 1 ∧ s.begun[j]? = some m ∧ bytes = contents f m.marker

/-- The save at work is the last one that began. -/
def Current (f : MarkerFormat) (s : MarkerStore) (json : List UInt8) : Prop :=
  ∃ m, s.begun.getLast? = some m ∧ json = contents f m.marker

/-- How far the save at work has come. -/
def StageOk (f : MarkerFormat) (path : String) (s : MarkerStore) : Stage → Prop
  | .idle => True
  | .creating json => Current f s json
  | .writing inode written rest => s.volume.visible (tmpPath path) = some inode ∧
    s.volume.data inode = written ∧ Current f s (written ++ rest)
  | .renaming => ∃ inode, s.volume.visible (tmpPath path) = some inode ∧
    s.volume.synced inode = true ∧ Current f s (s.volume.data inode)
  | .syncingDir => ∃ inode, s.volume.visible path = some inode ∧ Current f s (s.volume.data inode)

/-- Whenever a save has returned `Ok` there is a marker, and it is a recent one. -/
structure Safe (f : MarkerFormat) (path : String) (first : Volume String (List UInt8))
    (s : MarkerStore) : Prop where
  published : Staging.Published (staging path) (fun _ => Recent f path first s) s.volume
  holds : 0 < s.acked ∨ (∃ i, first.visible path = some i) → s.volume.Holds path
  acked_le : s.acked ≤ s.begun.length
  stage : StageOk f path s s.stage

theorem Safe.stageOk (h : Safe f path first s) {stage : Stage} (hs : s.stage = stage) :
    StageOk f path s stage := hs ▸ h.stage

/-! ## What a step preserves -/

theorem Current.recent {json : List UInt8} (h : Current f s json) (hle : s.acked ≤ s.begun.length) :
    Recent f path first s json := by
  obtain ⟨m, hlast, rfl⟩ := h
  rw [List.getLast?_eq_getElem?] at hlast
  exact Or.inr ⟨_, m, by omega, hlast, rfl⟩

theorem Recent.congr {bytes : List UInt8} (h : Recent f path first s bytes)
    (hacked : t.acked = s.acked) (hbegun : s.begun <+: t.begun) : Recent f path first t bytes := by
  rcases h with ⟨hzero, hfirst⟩ | ⟨j, m, hle, hj, hbytes⟩
  · exact Or.inl ⟨hacked.trans hzero, hfirst⟩
  · obtain ⟨later, hlater⟩ := hbegun
    refine Or.inr ⟨j, m, hacked ▸ hle, ?_, hbytes⟩
    obtain ⟨hlt, -⟩ := List.getElem?_eq_some_iff.mp hj
    rw [← hlater, List.getElem?_append_left hlt]
    exact hj

/-- A step that moves on in the same save. -/
theorem Safe.within (h : Safe f path first s) (hacked : t.acked = s.acked) (hbegun : t.begun = s.begun)
    (hpublished : Staging.Published (staging path) (fun _ => Recent f path first s) t.volume)
    (hholds : s.volume.Holds path → t.volume.Holds path) (hstage : StageOk f path t t.stage) :
    Safe f path first t where
  published := hpublished.mono fun _ _ hb => hb.congr hacked (hbegun ▸ List.prefix_refl _)
  holds hkept := hholds (h.holds (hacked ▸ hkept))
  acked_le := by
    rw [hacked, hbegun]
    exact h.acked_le
  stage := hstage

theorem Safe.stopped (h : Safe f path first s) (hstop : Stopped s t) : Safe f path first t := by
  refine h.within hstop.acked hstop.begun ?_ ?_ ?_
  · rw [hstop.volume]
    exact h.published
  · rw [hstop.volume]
    exact id
  · rw [hstop.stage]
    trivial

theorem Current.congr {json : List UInt8} (h : Current f s json) (hbegun : t.begun = s.begun) :
    Current f t json := by
  obtain ⟨m, hlast, hjson⟩ := h
  exact ⟨m, hbegun ▸ hlast, hjson⟩

theorem Safe.called (h : Safe f path first s) (m : TypedMarker) (now : DateTime) :
    Safe f path first { s with
      begun := s.begun ++ [m.stamped now]
      stage := .creating (contents f (m.stamped now).marker)
      outcome := none } where
  published := h.published.mono fun _ _ hb => hb.congr rfl (List.prefix_append _ _)
  holds := h.holds
  acked_le := by
    have hle := h.acked_le
    simp only [List.length_append]
    omega
  stage := ⟨m.stamped now, List.getLast?_concat .., rfl⟩

/-- A file left behind by an earlier save is emptied. -/
theorem Safe.created {json : List UInt8} (h : Safe f path first s) (hs : s.stage = .creating json) :
    Safe f path first { s with
      volume := s.volume.create (tmpPath path) []
      stage := .writing (s.volume.opened (tmpPath path)) [] json } := by
  have hcurrent : Current f s json := h.stageOk hs
  refine h.within rfl rfl (h.published.create () []) (fun hh => hh.create _ _) ⟨?_, ?_, ?_⟩
  · rw [Volume.visible_create, Function.update_self]
  · exact Volume.data_create ..
  · exact hcurrent.congr rfl

theorem Safe.wrote {inode n : Nat} {written rest : List UInt8} (h : Safe f path first s)
    (hs : s.stage = .writing inode written rest) :
    Safe f path first { s with
      volume := s.volume.write inode (written ++ rest.take n)
      stage := .writing inode (written ++ rest.take n) (rest.drop n) } := by
  obtain ⟨hvisible, -, hcurrent⟩ := h.stageOk hs
  have hpublished := Staging.Published.write (k := ()) h.published hvisible (written ++ rest.take n)
  refine h.within rfl rfl hpublished id ⟨hvisible, Function.update_self .., ?_⟩
  rw [List.append_assoc, List.take_append_drop]
  exact hcurrent.congr rfl

/-- Whatever a fault leaves in the temporary file, no marker is made of it. -/
theorem Safe.spoiled {inode : Nat} {written rest left : List UInt8} {outcome : Except Error Unit}
    (h : Safe f path first s) (hs : s.stage = .writing inode written rest) :
    Safe f path first ({ s with volume := s.volume.write inode left }.finished outcome) := by
  obtain ⟨hvisible, -, -⟩ := h.stageOk hs
  exact h.within rfl rfl (Staging.Published.write (k := ()) h.published hvisible left) id trivial

theorem Safe.synced {inode : Nat} {written : List UInt8} (h : Safe f path first s)
    (hs : s.stage = .writing inode written []) :
    Safe f path first { s with volume := s.volume.fsync inode, stage := .renaming } := by
  obtain ⟨hvisible, hdata, hcurrent⟩ := h.stageOk hs
  refine h.within rfl rfl (h.published.fsync inode) id ⟨inode, hvisible, Function.update_self .., ?_⟩
  have hwritten : (s.volume.fsync inode).data inode = written ++ [] := by
    rw [List.append_nil]
    exact hdata
  rw [hwritten]
  exact hcurrent.congr rfl

theorem Safe.renamed (h : Safe f path first s) (hs : s.stage = .renaming) :
    Safe f path first
      { s with volume := s.volume.rename (tmpPath path) path, stage := .syncingDir } := by
  obtain ⟨inode, hvisible, hsynced, hcurrent⟩ := h.stageOk hs
  have hpublished := Staging.Published.rename (k := ()) h.published hvisible hsynced
    (hcurrent.recent h.acked_le)
  refine h.within rfl rfl hpublished (fun hh => hh.rename) ⟨inode, ?_, ?_⟩
  · rw [Volume.visible_rename hvisible, Function.update_self]
  · have hdata : (s.volume.rename (tmpPath path) path).data inode = s.volume.data inode := by
      rw [Volume.rename, hvisible]
      rfl
    rw [hdata]
    exact hcurrent.congr rfl

/-- Once the directory is synced, the name leads to the save at work and to nothing else. -/
theorem Safe.dirSynced (h : Safe f path first s) (hs : s.stage = .syncingDir) :
    Safe f path first
      ({ s with volume := s.volume.fsyncDir, acked := s.begun.length }.finished (.ok ())) := by
  obtain ⟨inode, hvisible, m, hlast, hdata⟩ := h.stageOk hs
  refine ⟨?_, fun _ => Volume.Holds.fsyncDir hvisible, Nat.le_refl _, trivial⟩
  refine h.published.fsyncDir.redescribe fun d hd _ i hi => ?_
  rw [Volume.outcome_fsyncDir hd] at hi
  have hi : s.volume.visible path = some i := hi
  rw [hvisible] at hi
  cases hi
  exact Current.recent ⟨m, hlast, hdata⟩ (Nat.le_refl _)

theorem Safe.lost (h : Safe f path first s) {kept : List (Update String)}
    {garbled : Nat → List UInt8} (hk : kept.Sublist s.volume.pending) :
    Safe f path first { s.kill with volume := s.volume.powerLoss kept garbled } :=
  h.within rfl rfl (h.published.powerLoss hk garbled) (fun hh => hh.powerLoss hk garbled) trivial

theorem Safe.move (h : Safe f path first s) (hl : l ≠ .syncDir false) (hm : Move f path s l t) :
    Safe f path first t := by
  cases hm with
  | stopped hstop => exact h.stopped hstop
  | called m now => exact h.called m now
  | created hs => exact h.created hs
  | wrote hs => exact h.wrote hs
  | spoiled hs => exact h.spoiled hs
  | synced hs => exact h.synced hs
  | renamed hs => exact h.renamed hs
  | dirSynced hs synced =>
    cases synced with
    | true => exact h.dirSynced hs
    | false => exact absurd rfl hl
  | lost hk => exact h.lost hk

/-! ## Every run -/

/-- The steps of a save that nothing stops. -/
def faultless (f : MarkerFormat) (m : TypedMarker) (now : DateTime) : List Label :=
  [.call m now, .create none, .write (contents f (m.stamped now).marker).length none, .sync none,
    .rename none, .syncDir true]

/-- 2026-01-01T00:00:00Z. -/
def midnight : DateTime := 1767225600000000000

def newMarker : TypedMarker where
  marker := StateMarker.new "20260101-000000" midnight
  bounded := by
    refine ⟨⟨?_, ?_, ?_, ?_⟩, ⟨?_, ?_, ?_, ?_⟩, ⟨?_, ?_⟩, ?_⟩
    all_goals first | decide | (intro _ _ h; cases h) | (intro _ h; cases h)

/-- The first save returns; the power goes while the second writes, and its bytes come back as
zeros. -/
def interrupted (f : MarkerFormat) : List Label :=
  faultless f newMarker midnight ++
    [.call newMarker (midnight + 1000000000), .create none, .write 8 none,
      .powerLoss [] fun _ => [0, 0, 0, 0]]

end MarkerStore

end MusicbrainzIngestion
