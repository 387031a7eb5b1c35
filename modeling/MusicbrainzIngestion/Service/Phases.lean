import MusicbrainzIngestion.FileCompletion
import MusicbrainzIngestion.Service.Lineage

/-! What holds in each phase of a run: what the marker in memory says of the publishes,
what the tallies say of the marker, and what was already announced. -/

namespace MusicbrainzIngestion
open Base

/-- How far the marking of a file got, in memory and on disk. -/
def Main.marked : Main → Bool
  | .finished true _ _ => true
  | _ => false

def Main.markSaved : Main → Bool
  | .finished true _ saved => saved
  | _ => false

/-- The second state came from the first without a step of the program. -/
structure Shared.Later (s s' : Shared) : Prop where
  clock : s.now ≤ s'.now
  log : s'.log = s.log
  marker : s'.marker = s.marker
  progress : s'.progress = s.progress
  disk : ∀ m, s'.disk = some m → s.disk = some m

theorem Shared.Later.refl (s : Shared) : Shared.Later s s :=
  ⟨Nat.le_refl _, rfl, rfl, rfl, fun _ hm => hm⟩

section Phases

variable (cfg : ServiceConfig)

/-- Of a file the loaded marker shows as completed no record is published in the run. -/
structure Unrepeated (run : Run) (log : List Attempt) : Prop where
  before : run.publishedBefore ≤ log.length
  skipped : ∀ m, run.loaded = some m → ∀ a ∈ log.drop run.publishedBefore, a.isData = true →
    m.completedRecords (cfg.dump.fileName a.exchange) = none

/-- What the loaded marker shows as completed the one in memory still does. -/
def Resumed (run : Run) (m : StateMarker) : Prop :=
  ∀ loaded, run.loaded = some loaded → ∀ f,
    (loaded.completedRecords f).isSome = true → (m.completedRecords f).isSome = true

/-- The run has not read a marker and not published anything. -/
structure Untouched (run : Run) (log : List Attempt) : Prop where
  unpublished : run.publishedBefore = log.length
  unread : run.loaded = none

/-- The tallies when the files of `rest` are left to do. -/
structure Counted (run : Run) (s : Shared) (rest : List DataType) : Prop where
  suffix : rest <:+ run.dumpFiles
  nodup : run.dumpFiles.Nodup
  todo : ∀ dt ∈ rest,
    s.progress.get dt = (s.marker.completedRecords (cfg.dump.fileName dt)).getD 0
  done : run.success = true → ∀ dt ∈ run.dumpFiles, dt ∉ rest → ∃ n,
    s.marker.completedRecords (cfg.dump.fileName dt) = some n ∧
    run.recordCounts.lookup dt.asStr = some n ∧ s.progress.get dt = n
  keys : ∀ k ∈ run.recordCounts, ∃ dt ∈ run.dumpFiles, k = dt.asStr

/-- A marker was chosen and no phase was started. -/
structure Ready (run : Run) (s : Shared) : Prop where
  lineage : LineageOk cfg run.lineage s.now s.log s.marker
  unfinished : s.marker.summary.overallStatus ≠ .completed
  resumed : Resumed run s.marker
  unrepeated : Unrepeated cfg run s.log
  untold : s.progress = {}
  uncounted : run.recordCounts = ∅
  nodup : run.dumpFiles.Nodup

/-- Processing goes on and no file is in work. -/
structure Between (l : Lineage) (run : Run) (s : Shared) (rest : List DataType) : Prop where
  lineage : LineageOk cfg l s.now s.log s.marker
  running : s.marker.processingPhase.status = .inProgress
  begun : l.started = some run.processingStartedAt
  resumed : Resumed run s.marker
  unrepeated : Unrepeated cfg run s.log
  counted : Counted cfg run s rest

/-- A file is in work since `s₁`, under the lineage `l`. -/
structure InFile (s : Service) (dt : DataType) (rest : List DataType) (source : Source)
    (tasks : Tasks) (s₁ : Shared) (l : Lineage) : Prop where
  before : Between cfg l s.run s₁ (dt :: rest)
  pending : s₁.marker.completedRecords (cfg.dump.fileName dt) = none
  pipeline : Pipeline.Invariant (cfg.job dt source) s₁ ⟨s.shared, tasks⟩
  lineage : s.run.lineage = if tasks.main.marked then Service.Lineage.mark l dt source else l
  disk : s.diskLineage = if tasks.main.markSaved then Service.Lineage.mark l dt source else l

/-- The version is being announced, all files done. -/
structure Announcing (run : Run) (s : Shared) (e : ExtractionCompleteMessage)
    (rest : List DataType) (errors : List String) : Prop where
  between : Between cfg run.lineage run s []
  success : run.success = true
  version : e.version = cfg.dump.version
  started : e.startedAt = run.processingStartedAt
  counts : e.recordCounts = run.recordCounts
  split : ∃ before burst, s.log = before ++ burst ∧ run.lineage.since ≤ before.length ∧
    run.publishedBefore ≤ before.length ∧
    Recorded cfg run.lineage s.marker (before.drop run.lineage.since) ∧
    burst.map Attempt.exchange ++ rest = DataType.musicbrainz ∧
    ∀ a ∈ burst, a.message = .extractionComplete e ∧ (errors = [] → a.confirmed)

def PhaseOk (s : Service) : Prop :=
  match s.phase with
  | .idle | .reporting => True
  | .entry => Untouched s.run s.shared.log ∧ s.run.recordCounts = ∅
  | .downloading | .downloaded | .discovering =>
    Untouched s.run s.shared.log ∧ s.run.recordCounts = ∅ ∧ s.shared.progress = {}
  | .deciding => Untouched s.run s.shared.log ∧ s.run.recordCounts = ∅ ∧
    s.shared.progress = {} ∧ s.run.dumpFiles.Nodup
  | .connecting | .declaring _ | .starting => Ready cfg s.run s.shared
  | .mapping =>
    Between cfg s.run.lineage s.run s.shared s.run.dumpFiles ∧ s.diskLineage = s.run.lineage
  | .looping rest =>
    Between cfg s.run.lineage s.run s.shared rest ∧ s.diskLineage = s.run.lineage
  | .processing dt rest source tasks => ∃ s₁ l, InFile cfg s dt rest source tasks s₁ l
  | .announcing e rest errors =>
    Announcing cfg s.run s.shared e rest errors ∧ s.diskLineage = s.run.lineage
  | .finalising => (∃ rest, Between cfg s.run.lineage s.run s.shared rest) ∧
    s.diskLineage = s.run.lineage ∧
    (s.run.success = true → ∃ e, Announcing cfg s.run s.shared e [] [])

/-- The marker on disk, if there is one, is backed by the publishes. -/
def DiskOk (s : Service) : Prop :=
  ∀ m, s.shared.disk = some m → LineageOk cfg s.diskLineage s.shared.now s.shared.log m ∧
    s.diskLineage.started.isSome = true

end Phases

variable {cfg : ServiceConfig} {l : Lineage} {run : Run} {s s' s₁ : Shared} {sv : Service}
  {dt : DataType} {rest : List DataType} {source : Source} {tasks : Tasks} {log : List Attempt}

/-! ## Without a step of the program -/

theorem LineageOk.later {m : StateMarker} (h : LineageOk cfg l s.now s.log m)
    (hl : Shared.Later s s') : LineageOk cfg l s'.now s'.log m := by
  rw [hl.log]
  exact h.tick hl.clock

theorem Counted.congr (h : Counted cfg run s rest) (hm : s'.marker = s.marker)
    (hp : s'.progress = s.progress) : Counted cfg run s' rest where
  suffix := h.suffix
  nodup := h.nodup
  todo := by rw [hm, hp]; exact h.todo
  done := by rw [hm, hp]; exact h.done
  keys := h.keys

theorem Ready.later (h : Ready cfg run s) (hl : Shared.Later s s') : Ready cfg run s' where
  lineage := by rw [hl.marker]; exact h.lineage.later hl
  unfinished := by rw [hl.marker]; exact h.unfinished
  resumed := by rw [hl.marker]; exact h.resumed
  unrepeated := by rw [hl.log]; exact h.unrepeated
  untold := hl.progress.trans h.untold
  uncounted := h.uncounted
  nodup := h.nodup

theorem Between.later (h : Between cfg l run s rest) (hl : Shared.Later s s') :
    Between cfg l run s' rest where
  lineage := by rw [hl.marker]; exact h.lineage.later hl
  running := by rw [hl.marker]; exact h.running
  begun := h.begun
  resumed := by rw [hl.marker]; exact h.resumed
  unrepeated := by rw [hl.log]; exact h.unrepeated
  counted := h.counted.congr hl.marker hl.progress

theorem Announcing.later {e : ExtractionCompleteMessage} {errors : List String}
    (h : Announcing cfg run s e rest errors) (hl : Shared.Later s s') :
    Announcing cfg run s' e rest errors where
  between := h.between.later hl
  success := h.success
  version := h.version
  started := h.started
  counts := h.counts
  split := by rw [hl.log, hl.marker]; exact h.split

theorem Shared.InWork.later {job : Job} {m₀ : StateMarker} (h : s.InWork job m₀)
    (hl : Shared.Later s s') : s'.InWork job m₀ :=
  ⟨by rw [hl.marker]; exact h.1, fun m hm => h.2 m (hl.disk m hm)⟩

theorem Pipeline.MarkerFrame.later {job : Job} {m₀ : StateMarker} {main : Main}
    (h : Pipeline.MarkerFrame job m₀ main s) (hl : Shared.Later s s') :
    Pipeline.MarkerFrame job m₀ main s' := by
  cases main with
  | finished fileSuccess totalCount saved =>
    cases fileSuccess with
    | false => exact Shared.InWork.later h hl
    | true =>
      refine ⟨by rw [hl.marker]; exact h.1, fun m hm => ?_⟩
      rw [hl.marker]
      exact h.2 m (hl.disk m hm)
  | _ => exact Shared.InWork.later h hl

theorem Pipeline.Invariant.later {job : Job} (h : Pipeline.Invariant job s₁ ⟨s, tasks⟩)
    (hl : Shared.Later s s') : Pipeline.Invariant job s₁ ⟨s', tasks⟩ where
  sound := {
    wired := h.sound.wired
    flow := fun hh hm => by
      obtain ⟨hd, ho, hc⟩ := h.sound.flow hh hm
      exact ⟨by rw [show s'.log = s.log from hl.log]; exact hd, ho, hc⟩
    joined := h.sound.joined
    announced := by
      intro n hn
      rw [show s'.log = s.log from hl.log]
      exact h.sound.announced n hn }
  frame := {
    grown := ⟨le_trans h.frame.grown.clock hl.clock, by
      rw [show s'.log = s.log from hl.log]
      exact h.frame.grown.log⟩
    tally := by
      rw [show s'.progress = s.progress from hl.progress]
      exact h.frame.tally
    marker := Pipeline.MarkerFrame.later h.frame.marker hl }

end MusicbrainzIngestion
