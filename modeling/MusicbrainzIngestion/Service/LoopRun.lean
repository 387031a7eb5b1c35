import MusicbrainzIngestion.Service.FileSteps
import MusicbrainzIngestion.Service.Invariant

/-! One run of the loop over the files, from its first file to the end of the run, with no
shutdown and no failing save: which files are started, in which order, what becomes of each, and
what that makes of the version. -/

namespace MusicbrainzIngestion
open Base

/-- Nothing stops the program from outside, the marker is not lost and its saves succeed. -/
def Service.Label.calm : Service.Label → Bool
  | .requestShutdown => false
  | .crash => false
  | .loseMarker => false
  | .begin _ => false
  | .decide readable => readable
  | .startPhase saved => saved
  | .nextFile saved => saved
  | .pipeline (.markFile saved) => saved
  | .finalise saved => saved
  | _ => true

/-- The files that the marker does not show as completed. -/
def ServiceConfig.pending (cfg : ServiceConfig) (m : StateMarker) (files : List DataType) :
    List DataType := files.filter fun dt => !m.fileCompleted (cfg.dump.fileName dt)

/-- A run is about to take the first of its files. -/
structure LoopEntry (s : Service) : Prop where
  phase : s.phase = .looping s.run.dumpFiles
  nodup : s.run.dumpFiles.Nodup
  success : s.run.success = true
  running : s.shutdown = false

section Loop

variable (cfg : ServiceConfig) (s₀ : Service)

/-- What is done of the files of `s₀`: `rest` is left to do and `current` is in work. -/
structure Looped (h : List FileEvent) (current : Option DataType) (rest : List DataType) (run : Run) :
    Prop where
  files : run.dumpFiles = s₀.run.dumpFiles
  suffix : current.toList ++ rest <:+ s₀.run.dumpFiles
  order : History.started h ++ cfg.pending s₀.shared.marker rest =
    cfg.pending s₀.shared.marker s₀.run.dumpFiles
  unseen : ∀ dt, dt ∉ History.started h → History.Unseen h dt
  verdict : ∀ dt ∈ History.started h, some dt ≠ current →
    ((History.completion h dt).isSome = true ↔ .faulted dt ∉ h)
  counts : ∀ dt ∈ s₀.run.dumpFiles, dt ∉ current.toList ++ rest →
    run.recordCounts.lookup dt.asStr = (History.totalCount h dt).or
      (s₀.shared.marker.completedRecords (cfg.dump.fileName dt))
  keys : ∀ k, (∀ dt ∈ s₀.run.dumpFiles, k ≠ dt.asStr) →
    run.recordCounts.lookup k = s₀.run.recordCounts.lookup k

/-- No file that was dealt with failed. -/
def Flawless (h : List FileEvent) (current : Option DataType) : Prop :=
  ∀ dt ∈ History.started h, some dt ≠ current → .faulted dt ∉ h

/-- All files are done and the version was announced, or is not going to be. -/
structure Over (h : List FileEvent) (run : Run) : Prop where
  looped : Looped cfg s₀ h none [] run
  announced : History.deliveries h ≠ [] ↔ Flawless h none
  success : run.success = true ↔ Flawless h none ∧ ∀ delivered ∈ History.deliveries h, delivered = true

/-- The marker that ends the run. -/
def Finalised (h : List FileEvent) (success : Bool) (marker : StateMarker) : Prop :=
  ∃ m now finished, Image cfg.dump s₀.shared.marker h m ∧
    marker = (if success then (m.completeProcessing finished).completeExtraction else m).stamped now

def LoopPhase (s : Service) (h : List FileEvent) : Prop :=
  match s.phase with
  | .looping rest => Looped cfg s₀ h none rest s.run ∧
    Image cfg.dump s₀.shared.marker h s.shared.marker ∧
    (s.run.success = true ↔ Flawless h none) ∧ History.deliveries h = []
  | .processing dt rest source tasks => Looped cfg s₀ h (some dt) rest s.run ∧
    Pipeline.Told cfg s₀.shared.marker dt h s.shared tasks ∧ Pipeline.Judged tasks ∧
    tasks.main.unsaved = false ∧
    (∃ s₁, Pipeline.Invariant (cfg.job dt source) s₁ ⟨s.shared, tasks⟩) ∧
    (s.run.success = true ↔ Flawless h (some dt)) ∧ History.deliveries h = []
  | .announcing _ rest errors => Looped cfg s₀ h none [] s.run ∧
    Image cfg.dump s₀.shared.marker h s.shared.marker ∧ s.run.success = true ∧ Flawless h none ∧
    (History.deliveries h).length + rest.length = DataType.musicbrainz.length ∧
    (errors = [] ↔ ∀ delivered ∈ History.deliveries h, delivered = true)
  | .finalising => Over cfg s₀ h s.run ∧ Image cfg.dump s₀.shared.marker h s.shared.marker
  | .reporting => Over cfg s₀ h s.run ∧ Finalised cfg s₀ h s.run.success s.shared.marker ∧
    s.shared.disk = some s.shared.marker
  | .idle => Over cfg s₀ h s.run ∧ Finalised cfg s₀ h s.run.success s.shared.marker ∧
    s.shared.disk = some s.shared.marker ∧ s.outcome = some (.ok s.run.success)
  | _ => False

structure LoopInv (s : Service) (h : List FileEvent) : Prop where
  running : s.shutdown = false
  phase : LoopPhase cfg s₀ s h

end Loop

variable {cfg : ServiceConfig} {s₀ s t : Service} {h : List FileEvent} {run run' : Run}
  {dt : DataType} {rest : List DataType}

/-! ## The history grows -/

theorem Looped.congr {current : Option DataType} (hl : Looped cfg s₀ h current rest run)
    (hfiles : run'.dumpFiles = run.dumpFiles) (hcounts : run'.recordCounts = run.recordCounts) :
    Looped cfg s₀ h current rest run' :=
  ⟨hfiles.trans hl.files, hl.suffix, hl.order, hl.unseen, hl.verdict,
    by rw [hcounts]; exact hl.counts, by rw [hcounts]; exact hl.keys⟩

theorem loopInv_entry (he : LoopEntry s) : LoopInv cfg s s [] where
  running := he.running
  phase := by
    unfold LoopPhase
    rw [he.phase]
    exact ⟨⟨rfl, List.suffix_refl _, rfl, (fun _ _ _ he => nomatch he), (fun _ hdt => nomatch hdt),
      fun dt hdt hnot => absurd hdt hnot, fun _ _ => rfl⟩, .refl _,
      iff_of_true he.success (fun _ hdt => nomatch hdt), rfl⟩

/-- A step tells only of the file in work. -/
structure FileEvent.Inside (dt : DataType) (e : FileEvent) : Prop where
  about : e.about = some dt
  file : e.file = none
  ending : ∀ dt', e.ending dt' = none
  delivery : e.delivery = none

theorem FileEvent.Inside.of_recorded {c : Prop} [Decidable c] {e e' : FileEvent} (hin : e'.Inside dt)
    (he : e ∈ if c then [e'] else []) : e.Inside dt := by
  rw [List.mem_singleton.mp (List.mem_ite_nil_right.mp he).2]
  exact hin

theorem Tasks.inside_of_events {t t' : Tasks} {l : Pipeline.Label} {e : FileEvent}
    (he : e ∈ t.events dt l t') : e.Inside dt := by
  unfold Tasks.events at he
  rcases List.mem_append.mp he with he | he
  · rcases List.mem_append.mp he with he | he
    · exact .of_recorded ⟨rfl, rfl, fun _ => rfl, rfl⟩ he
    · exact .of_recorded ⟨rfl, rfl, fun _ => rfl, rfl⟩ he
  · split at he
    · rw [List.mem_singleton.mp he]
      exact ⟨rfl, rfl, fun _ => rfl, rfl⟩
    · cases he

theorem FileEvent.completion_of_about {e : FileEvent} (h : e.about ≠ some dt) : e.completion dt = none := by
  cases e <;> simp only [FileEvent.completion]
  exact if_neg fun heq => h (congrArg some heq)

theorem History.faulted_snoc {e : FileEvent} (he : e.about ≠ some dt) :
    .faulted dt ∈ h ++ [e] ↔ .faulted dt ∈ h := by
  rw [List.mem_append, List.mem_singleton, or_iff_left]
  rintro rfl
  exact he rfl

theorem History.started_of_file {e : FileEvent} (he : e.file = none) :
    History.started (h ++ [e]) = History.started h := by
  rw [History.started_snoc, he, Option.toList_none, List.append_nil]

theorem Flawless.snoc {current : Option DataType} {e : FileEvent} (hfile : e.file = none)
    (habout : ∀ dt, e.about = some dt → some dt = current) :
    Flawless (h ++ [e]) current ↔ Flawless h current := by
  unfold Flawless
  rw [History.started_of_file hfile]
  refine forall_congr' fun dt => imp_congr_right fun _ => imp_congr_right fun hne => ?_
  rw [History.faulted_snoc fun he => hne (habout dt he)]

namespace Looped

/-- What is told of the file in work, or of none, leaves the others as they were. -/
theorem snoc {current : Option DataType} {e : FileEvent} (hl : Looped cfg s₀ h current rest run)
    (hfile : e.file = none) (hending : ∀ dt, e.ending dt = none)
    (habout : ∀ dt, e.about = some dt → some dt = current ∧ dt ∈ History.started h) :
    Looped cfg s₀ (h ++ [e]) current rest run := by
  have hstarted := History.started_of_file (h := h) hfile
  refine ⟨hl.files, hl.suffix, by rw [hstarted]; exact hl.order, fun dt hdt => ?_,
    fun dt hdt hne => ?_, fun dt hdt hnot => ?_, hl.keys⟩
  · rw [hstarted] at hdt
    exact (hl.unseen dt hdt).snoc fun he => hdt (habout dt he).2
  · rw [hstarted] at hdt
    have he : e.about ≠ some dt := fun he => hne (habout dt he).1
    rw [History.completion_snoc, FileEvent.completion_of_about he, History.faulted_snoc he]
    exact hl.verdict dt hdt hne
  · rw [History.totalCount_snoc, hending]
    exact hl.counts dt hdt hnot

theorem inside (hl : Looped cfg s₀ h (some dt) rest run) (hdt : dt ∈ History.started h)
    {es : List FileEvent} (hes : ∀ e ∈ es, e.Inside dt) : Looped cfg s₀ (h ++ es) (some dt) rest run ∧
      (Flawless (h ++ es) (some dt) ↔ Flawless h (some dt)) ∧
      History.deliveries (h ++ es) = History.deliveries h := by
  induction es generalizing h with
  | nil =>
    rw [List.append_nil]
    exact ⟨hl, Iff.rfl, rfl⟩
  | cons e es ih =>
    have he := hes e List.mem_cons_self
    have hmine : ∀ dt', e.about = some dt' → some dt' = some dt := fun dt' h' =>
      h'.symm.trans he.about
    have hsnoc := hl.snoc he.file he.ending fun dt' h' =>
      ⟨hmine dt' h', by rw [Option.some.inj (hmine dt' h')]; exact hdt⟩
    have hdt' : dt ∈ History.started (h ++ [e]) := by
      rw [History.started_of_file he.file]
      exact hdt
    rw [show h ++ e :: es = (h ++ [e]) ++ es by simp]
    obtain ⟨hnext, hflawless, hdeliveries⟩ := ih hsnoc hdt' fun e' he' =>
      hes e' (List.mem_cons_of_mem _ he')
    refine ⟨hnext, hflawless.trans (Flawless.snoc he.file hmine), hdeliveries.trans ?_⟩
    rw [History.deliveries_snoc, he.delivery, Option.toList_none, List.append_nil]

/-- The next file was not started before. -/
theorem fresh (hl : Looped cfg s₀ h none (dt :: rest) run) (hn : s₀.run.dumpFiles.Nodup) :
    dt ∉ History.started h := fun hdt => by
  have hnodup : (cfg.pending s₀.shared.marker s₀.run.dumpFiles).Nodup := hn.filter _
  rw [← hl.order] at hnodup
  have hpending : dt ∈ cfg.pending s₀.shared.marker s₀.run.dumpFiles := by
    rw [← hl.order]
    exact List.mem_append_left _ hdt
  have hmem : dt ∈ cfg.pending s₀.shared.marker (dt :: rest) :=
    List.mem_filter.mpr ⟨List.mem_cons_self, (List.mem_filter.mp hpending).2⟩
  exact (List.disjoint_of_nodup_append hnodup) hdt hmem

theorem skip {n : Nat} (hl : Looped cfg s₀ h none (dt :: rest) run)
    (hn : s₀.run.dumpFiles.Nodup)
    (hc : s₀.shared.marker.completedRecords (cfg.dump.fileName dt) = some n) :
    Looped cfg s₀ h none rest { run with recordCounts := run.recordCounts.insert dt.asStr n } := by
  have hdone : s₀.shared.marker.fileCompleted (cfg.dump.fileName dt) = true := by
    rw [StateMarker.fileCompleted_eq, hc]
    rfl
  have hmem : dt ∈ s₀.run.dumpFiles := hl.suffix.subset (by simp)
  refine ⟨hl.files, (List.suffix_cons dt rest).trans hl.suffix, ?_, hl.unseen, hl.verdict,
    fun dt' hdt' hnot => ?_, fun k hk => ?_⟩
  · rw [← hl.order]
    unfold ServiceConfig.pending
    rw [List.filter_cons_of_neg (by simp [hdone])]
  · by_cases heq : dt' = dt
    · rw [heq, AList.lookup_insert, (hl.unseen dt (hl.fresh hn)).totalCount, hc]
      rfl
    · rw [AList.lookup_insert_ne fun hk => heq (DataType.asStr_injective hk)]
      exact hl.counts dt' hdt' (List.not_mem_cons_of_ne_of_not_mem heq hnot)
  · rw [AList.lookup_insert_ne (hk dt hmem)]
    exact hl.keys k hk

theorem start (hl : Looped cfg s₀ h none (dt :: rest) run)
    (hc : s₀.shared.marker.fileCompleted (cfg.dump.fileName dt) = false) :
    Looped cfg s₀ (h ++ [.started dt]) (some dt) rest run := by
  have hstarted : History.started (h ++ [.started dt]) = History.started h ++ [dt] :=
    History.started_snoc h _
  refine ⟨hl.files, hl.suffix, ?_, fun dt' hdt' => ?_, fun dt' hdt' hne => ?_,
    fun dt' hdt' hnot => ?_, hl.keys⟩
  · rw [hstarted, ← hl.order]
    unfold ServiceConfig.pending
    rw [List.filter_cons_of_pos (by simp [hc]), List.append_assoc]
    rfl
  · rw [hstarted, List.mem_append, List.mem_singleton, not_or] at hdt'
    exact (hl.unseen dt' hdt'.1).snoc fun he => hdt'.2 (Option.some.inj he).symm
  · have hne' : dt' ≠ dt := fun heq => hne (congrArg some heq)
    rw [hstarted, List.mem_append, List.mem_singleton, or_iff_left hne'] at hdt'
    have habout : (FileEvent.started dt).about ≠ some dt' := fun he => hne' (Option.some.inj he).symm
    rw [History.completion_snoc, FileEvent.completion_of_about habout, History.faulted_snoc habout]
    exact hl.verdict dt' hdt' (by simp)
  · rw [History.totalCount_snoc]
    exact hl.counts dt' hdt' hnot

theorem finish {n : Nat} (hl : Looped cfg s₀ h (some dt) rest run)
    (hdt : dt ∈ History.started h)
    (hverdict : (History.completion h dt).isSome = true ↔ .faulted dt ∉ h) :
    Looped cfg s₀ (h ++ [.ended dt n]) none rest
      { run with recordCounts := run.recordCounts.insert dt.asStr n } := by
  have hstarted : History.started (h ++ [.ended dt n]) = History.started h :=
    History.started_of_file rfl
  have hmem : dt ∈ s₀.run.dumpFiles := hl.suffix.subset (by simp)
  refine ⟨hl.files, (List.suffix_cons dt rest).trans hl.suffix, by rw [hstarted]; exact hl.order,
    fun dt' hdt' => ?_, fun dt' hdt' _ => ?_, fun dt' hdt' hnot => ?_, fun k hk => ?_⟩
  · rw [hstarted] at hdt'
    exact (hl.unseen dt' hdt').snoc fun he => hdt' (Option.some.inj he ▸ hdt)
  · rw [hstarted] at hdt'
    rw [History.completion_snoc, show FileEvent.completion dt' (.ended dt n) = none from rfl]
    have hfaulted : .faulted dt' ∈ h ++ [FileEvent.ended dt n] ↔ .faulted dt' ∈ h := by simp
    rw [hfaulted]
    by_cases heq : dt' = dt
    · rw [heq]
      exact hverdict
    · exact hl.verdict dt' hdt' fun hc => heq (Option.some.inj hc)
  · rw [History.totalCount_snoc]
    by_cases heq : dt' = dt
    · rw [heq, AList.lookup_insert, FileEvent.ending, if_pos rfl]
      rfl
    · rw [AList.lookup_insert_ne fun hk => heq (DataType.asStr_injective hk), FileEvent.ending,
        if_neg (Ne.symm heq)]
      exact hl.counts dt' hdt' (List.not_mem_cons_of_ne_of_not_mem heq hnot)
  · rw [AList.lookup_insert_ne (hk dt hmem)]
    exact hl.keys k hk

end Looped

/-! ## One step of the run -/

theorem Pipeline.told_start (himage : Image cfg.dump s₀.shared.marker h s.shared.marker)
    (hu : History.Unseen h dt) (source : Source) :
    Told cfg s₀.shared.marker dt (h ++ [.started dt])
      (Pipeline.start cfg.pipeline (cfg.job dt source) s.shared).shared (Tasks.spawn cfg.pipeline) where
  image := (himage.start hu _).stamped _
  last := by
    rw [History.started_snoc]
    simp [FileEvent.file]
  faulted := by
    refine iff_of_false (fun hf => ?_) (by simp [Tasks.spawn, Tasks.healthy, Parser.healthy,
      Batcher.healthy, Publisher.healthy, Main.rejected])
    rcases List.mem_append.mp hf with hf | hf
    · exact hu.not_faulted hf
    · cases List.mem_singleton.mp hf
  counted := by
    rw [History.counts_snoc, hu.counts]
    rfl
  returned hr := nomatch hr
  completion := by
    rw [History.completion_snoc, hu.completion]
    rfl

/-- Settling the lineage leaves the run otherwise as it was. -/
theorem Service.settleLineage_run (s : Service) (dt : DataType) (source : Source)
    (before after : Main) :
    (s.settleLineage dt source before after).run.dumpFiles = s.run.dumpFiles ∧
      (s.settleLineage dt source before after).run.recordCounts = s.run.recordCounts ∧
      (s.settleLineage dt source before after).run.success = s.run.success ∧
      (s.settleLineage dt source before after).shutdown = s.shutdown := by
  unfold settleLineage
  split <;> exact ⟨rfl, rfl, rfl, rfl⟩

theorem collectError_eq_nil {errors : List String} {exchange : String} {reply : Reply} :
    Service.collectError errors dt (publishResult exchange reply) = [] ↔
      errors = [] ∧ reply.delivered = true := by
  refine ⟨Service.collectError_nil, fun ⟨hnone, hr⟩ => ?_⟩
  rw [(publishResult_ok _ _).mpr hr]
  exact hnone

theorem loopPhase_of_same {t : Service} (hi : LoopPhase cfg s₀ s h) (hrun : t.run = s.run)
    (hphase : t.phase = s.phase) (houtcome : t.outcome = s.outcome)
    (hshared : Shared.Later s.shared t.shared) (hdisk : t.shared.disk = s.shared.disk) :
    LoopPhase cfg s₀ t h := by
  unfold LoopPhase at hi ⊢
  rw [hphase, hrun, hshared.marker, houtcome, hdisk]
  cases hp : s.phase with
  | processing dt rest source tasks =>
    rw [hp] at hi
    obtain ⟨hl, ht, hg, hsaved, ⟨s₁, hs₁⟩, hrest⟩ := hi
    exact ⟨hl, ⟨by rw [hshared.marker]; exact ht.image, ht.last, ht.faulted, ht.counted, ht.returned,
      ht.completion⟩, hg, hsaved, ⟨s₁, hs₁.later hshared⟩, hrest⟩
  | _ =>
    rw [hp] at hi
    exact hi

namespace LoopInv

open Service

variable {l : Pipeline.Label} {source : Source} {tasks : Tasks} {p : Pipeline}

theorem startsFile (he : LoopEntry s₀) (hi : LoopInv cfg s₀ s h)
    (hp : s.phase = .looping (dt :: rest))
    (hc : s.shared.marker.completedRecords (cfg.dump.fileName dt) = none) :
    LoopInv cfg s₀ ((s.setMarker (s.shared.marker.startFileProcessing (cfg.dump.fileName dt)
      s.shared.now)).saveThen true (.processing dt rest
        { bytes := s.files (cfg.dump.path dt), map := s.run.artistDiscogsMap }
        (Tasks.spawn cfg.pipeline))) (h ++ [.started dt]) := by
  have hphase := hi.phase
  unfold LoopPhase at hphase
  rw [hp] at hphase
  obtain ⟨hl, himage, hsuccess, hdeliveries⟩ := hphase
  have hunseen := hl.unseen dt (hl.fresh he.nodup)
  have hpending : s₀.shared.marker.fileCompleted (cfg.dump.fileName dt) = false := by
    rw [StateMarker.fileCompleted_eq, StateMarker.completedRecords,
      ← himage.untouched hunseen.not_started]
    exact congrArg Option.isSome hc
  refine ⟨hi.running, hl.start hpending, Pipeline.told_start himage hunseen
    { bytes := s.files (cfg.dump.path dt), map := s.run.artistDiscogsMap }, trivial, rfl,
    ⟨_, Pipeline.invariant_start s.shared⟩, hsuccess.trans ?_, ?_⟩
  · have habout : ∀ dt', dt' ≠ dt → (FileEvent.started dt).about ≠ some dt' := fun dt' hne heq =>
      hne (Option.some.inj heq).symm
    unfold Flawless
    rw [History.started_snoc]
    constructor
    · intro hall dt' hdt' hne
      have hne' : dt' ≠ dt := fun heq => hne (congrArg some heq)
      rw [History.faulted_snoc (habout dt' hne')]
      exact hall dt' (by simpa [FileEvent.file, hne'] using hdt') (by simp)
    · intro hall dt' hdt' _
      have hne' : dt' ≠ dt := fun heq => hunseen.not_started (heq ▸ hdt')
      have hnext := hall dt' (List.mem_append_left _ hdt') fun hs => hne' (Option.some.inj hs)
      rwa [History.faulted_snoc (habout dt' hne')] at hnext
  · rw [History.deliveries_snoc]
    simpa [FileEvent.delivery] using hdeliveries

theorem pipelineMoves (hi : LoopInv cfg s₀ s h) (hp : s.phase = .processing dt rest source tasks)
    (hl : l ≠ .markFile false)
    (hm : Pipeline.step cfg.pipeline (cfg.job dt source) ⟨s.shared, tasks⟩ l = some p) :
    LoopInv cfg s₀ ({ s with
      shared := p.shared
      phase := .processing dt rest source p.tasks }.settleLineage dt source tasks.main p.tasks.main)
      (h ++ tasks.events dt l p.tasks) := by
  have hphase := hi.phase
  unfold LoopPhase at hphase
  rw [hp] at hphase
  obtain ⟨hlooped, htold, hjudged, hsaved, ⟨s₁, hs₁⟩, hsuccess, hdeliveries⟩ := hphase
  obtain ⟨hinside, hflawless, hsilent⟩ := hlooped.inside htold.started fun e he =>
    Tasks.inside_of_events he
  have hmove := Pipeline.step_move hm
  have hfile : Pipeline.FileStep (cfg.job dt source) dt ⟨s.shared, tasks⟩ p (tasks.events dt l p.tasks) :=
    Pipeline.fileStep hm hjudged
  have htold' := htold.step hfile rfl hs₁.sound.joined hjudged
    fun n hn => (hs₁.sound.announced n hn).2
  obtain ⟨hsettled, -, hshared⟩ := settleLineage_outside
    { s with shared := p.shared, phase := .processing dt rest source p.tasks } dt source tasks.main
    p.tasks.main
  obtain ⟨hfiles, hcounts, hkept, hshutdown⟩ := settleLineage_run
    { s with shared := p.shared, phase := .processing dt rest source p.tasks } dt source tasks.main
    p.tasks.main
  refine ⟨hshutdown.trans hi.running, ?_⟩
  unfold LoopPhase
  rw [hsettled, hshared, hkept]
  exact ⟨hinside.congr hfiles hcounts, htold', Pipeline.judged_move hmove hs₁.sound.joined hjudged,
    Pipeline.saved_kept hm hl hsaved, ⟨s₁, Pipeline.invariant_step hm hs₁⟩, hsuccess.trans hflawless.symm,
    hsilent.trans hdeliveries⟩

theorem fileEnds {fileSuccess : Bool} {totalCount : Nat} (hi : LoopInv cfg s₀ s h)
    (hp : s.phase = .processing dt rest source tasks)
    (hm : tasks.main = .finished fileSuccess totalCount true) :
    LoopInv cfg s₀ {
      s.countRecords dt totalCount with
      run := { (s.countRecords dt totalCount).run with success := s.run.success && fileSuccess }
      phase := .looping rest } (h ++ [.ended dt totalCount]) := by
  have hphase := hi.phase
  unfold LoopPhase at hphase
  rw [hp] at hphase
  obtain ⟨hlooped, htold, hjudged, -, -, hsuccess, hdeliveries⟩ := hphase
  have hfaulted : .faulted dt ∈ h ↔ fileSuccess = false := by
    rw [htold.faulted, hm]
    rw [Pipeline.Judged, hm] at hjudged
    cases fileSuccess with
    | false => simp [Main.rejected]
    | true => simp [Main.rejected, hjudged rfl]
  have hverdict : (History.completion h dt).isSome = true ↔ .faulted dt ∉ h := by
    rw [htold.completion, hm, hfaulted]
    cases fileSuccess <;> simp [Main.completion]
  refine ⟨hi.running, ?_, ?_, ?_, ?_⟩
  · exact (hlooped.finish htold.started hverdict).congr rfl rfl
  · exact htold.image.silent rfl (fun _ => rfl) (fun _ => rfl) fun _ _ => rfl
  · show (s.run.success && fileSuccess) = true ↔ _
    have hsame : ∀ dt', .faulted dt' ∈ h ++ [FileEvent.ended dt totalCount] ↔ .faulted dt' ∈ h := by simp
    unfold Flawless at hsuccess ⊢
    rw [Bool.and_eq_true, hsuccess, History.started_of_file rfl]
    constructor
    · rintro ⟨hothers, hmine⟩ dt' hdt' -
      rw [hsame]
      by_cases heq : dt' = dt
      · rw [heq, hfaulted, hmine]
        simp
      · exact hothers dt' hdt' fun hs => heq (Option.some.inj hs)
    · intro hall
      refine ⟨fun dt' hdt' _ => (hsame dt').not.mp (hall dt' hdt' (by simp)), ?_⟩
      have hmine := (hsame dt).not.mp (hall dt htold.started (by simp))
      rwa [hfaulted, Bool.not_eq_false] at hmine
  · rw [History.deliveries_snoc]
    simpa [FileEvent.delivery] using hdeliveries

theorem announces {message : ExtractionCompleteMessage} {errors : List String}
    (hi : LoopInv cfg s₀ s h) (hp : s.phase = .announcing message (dt :: rest) errors)
    (reply : Reply) : LoopInv cfg s₀ { s with
      shared := s.shared.publish dt (.extractionComplete message) reply
      phase := .announcing message rest (collectError errors dt
        (publishResult (exchangeName cfg.pipeline.exchangePrefix dt) reply)) }
      (h ++ [.announced reply.delivered]) := by
  have hphase := hi.phase
  unfold LoopPhase at hphase
  rw [hp] at hphase
  obtain ⟨hlooped, himage, hsuccess, hflawless, hlength, herrors⟩ := hphase
  refine ⟨hi.running, hlooped.snoc rfl (fun _ => rfl) (fun _ he => by cases he),
    himage.silent rfl (fun _ => rfl) (fun _ => rfl) fun _ _ => rfl, hsuccess,
    (Flawless.snoc rfl fun _ he => by cases he).mpr hflawless, ?_, ?_⟩
  · rw [History.deliveries_snoc, ← hlength]
    simp only [FileEvent.delivery, Option.toList_some, List.length_append, List.length_cons,
      List.length_nil]
    omega
  · rw [collectError_eq_nil, herrors, History.deliveries_snoc]
    simp only [FileEvent.delivery, Option.toList_some, List.mem_append, List.mem_singleton]
    constructor
    · rintro ⟨hall, hr⟩ delivered (hd | rfl)
      · exact hall delivered hd
      · exact hr
    · intro hall
      exact ⟨fun delivered hd => hall delivered (Or.inl hd), hall _ (Or.inr rfl)⟩

theorem over_of_announced {message : ExtractionCompleteMessage} {errors : List String}
    (hi : LoopInv cfg s₀ s h) (hp : s.phase = .announcing message [] errors)
    (hfiles : run.dumpFiles = s.run.dumpFiles) (hcounts : run.recordCounts = s.run.recordCounts)
    (hsuccess : run.success = true ↔ errors = []) : Over cfg s₀ h run := by
  have hphase := hi.phase
  unfold LoopPhase at hphase
  rw [hp] at hphase
  obtain ⟨hlooped, -, -, hflawless, hlength, herrors⟩ := hphase
  refine ⟨hlooped.congr hfiles hcounts, iff_of_true (fun hnone => ?_) hflawless,
    hsuccess.trans (herrors.trans (and_iff_right hflawless).symm)⟩
  rw [hnone] at hlength
  cases hlength

theorem finalises (hi : LoopInv cfg s₀ s h) (hp : s.phase = .finalising) :
    LoopInv cfg s₀ ((s.setMarker (if s.run.success then
      (s.shared.marker.completeProcessing s.shared.now).completeExtraction
      else s.shared.marker)).saveThen true .reporting) h := by
  have hphase := hi.phase
  unfold LoopPhase at hphase
  rw [hp] at hphase
  exact ⟨hi.running, hphase.1, ⟨s.shared.marker, s.shared.now, s.shared.now, hphase.2, rfl⟩, rfl⟩

/-- Each step of a calm run keeps what is known of the loop. -/
theorem step {label : Service.Label} (he : LoopEntry s₀) (hcalm : label.calm = true)
    (hi : LoopInv cfg s₀ s h) (hmove : Move cfg s label t) :
    LoopInv cfg s₀ t (h ++ s.events label t) := by
  have hphase := hi.phase
  unfold LoopPhase at hphase
  have hrunning := hi.running
  cases hmove with
  | shutdownRequested | crashes | markerLost | begins => cases hcalm
  | ticks elapsed =>
    have hevents : s.events (.tick elapsed) { s with
        shared := { s.shared with now := s.shared.now + elapsed } } = [] := by
      unfold Service.events
      cases s.phase <;> rfl
    rw [hevents, List.append_nil]
    exact ⟨hrunning, loopPhase_of_same hi.phase rfl rfl rfl
      ⟨Nat.le_add_right _ _, rfl, rfl, rfl, fun _ hm => hm⟩ rfl⟩
  | fileRemoved dt =>
    have hevents : s.events (.removeFile dt) { s with
        files := fun path => if path = cfg.dump.path dt then none else s.files path } = [] := by
      unfold Service.events
      cases s.phase <;> rfl
    rw [hevents, List.append_nil]
    exact ⟨hrunning, loopPhase_of_same hi.phase rfl rfl rfl (.refl _) rfl⟩
  | stops hp hs => exact Bool.noConfusion (hrunning.symm.trans hs)
  | enters hp | goesOn hp | downloadFails hp | downloads hp | discoverFails hp | findsNone hp
  | discovers hp | skips hp | reprocesses hp | continues hp | connectFails hp | connects hp
  | declareFails hp | declares hp | declaresLast hp | starts hp | resumeFails hp | resumes hp
  | phaseOver hp | mapFails hp | maps hp =>
    rw [hp] at hphase
    exact hphase.elim
  | interrupted hp hs => exact Bool.noConfusion (hrunning.symm.trans hs)
  | loopEnds hp hs =>
    rw [hp] at hphase
    obtain ⟨hlooped, himage, hsuccess, hdeliveries⟩ := hphase
    simp only [Service.events, hp, goto, List.append_nil]
    refine ⟨hrunning, hlooped, himage, hs, hsuccess.mp hs, ?_, ?_⟩
    · rw [hdeliveries]
      rfl
    · rw [hdeliveries]
      exact iff_of_true rfl fun _ hd => nomatch hd
  | loopEndsFailed hp hs =>
    rw [hp] at hphase
    obtain ⟨hlooped, himage, hsuccess, hdeliveries⟩ := hphase
    have hflawed : ¬ Flawless h none := fun hall => Bool.noConfusion (hs.symm.trans (hsuccess.mpr hall))
    simp only [Service.events, hp, goto, List.append_nil]
    refine ⟨hrunning, ⟨hlooped, iff_of_false (not_not.mpr hdeliveries) hflawed, ?_⟩, himage⟩
    exact iff_of_false (by rw [hs]; simp) fun hall => hflawed hall.1
  | @skipsFile saved dt rest records hp hs hc =>
    rw [hp] at hphase
    obtain ⟨hlooped, himage, hsuccess, hdeliveries⟩ := hphase
    have hbefore : s₀.shared.marker.completedRecords (cfg.dump.fileName dt) = some records := by
      rw [StateMarker.completedRecords, ← himage.untouched (hlooped.fresh he.nodup)]
      exact hc
    simp only [Service.events, hp, goto, List.append_nil]
    exact ⟨hrunning, hlooped.skip he.nodup hbefore, himage, hsuccess, hdeliveries⟩
  | @startsFile saved dt rest hp hs hc =>
    have hsaved : saved = true := hcalm
    subst hsaved
    simp only [Service.events, hp, saveThen, if_true]
    exact startsFile he hi hp hc
  | @pipelineMoves l dt rest source tasks p hp hm =>
    have hl : l ≠ .markFile false := fun heq => by
      rw [heq] at hcalm
      cases hcalm
    obtain ⟨hsettled, -, -⟩ := settleLineage_outside
      { s with shared := p.shared, phase := .processing dt rest source p.tasks } dt source tasks.main
      p.tasks.main
    simp only [Service.events, hp, hsettled]
    exact pipelineMoves hi hp hl hm
  | fileEnds hp hm =>
    simp only [Service.events, hp, hm]
    exact fileEnds hi hp hm
  | fileFails hp hm =>
    rw [hp] at hphase
    obtain ⟨-, -, -, hsaved, -⟩ := hphase
    rw [hm] at hsaved
    cases hsaved
  | announces hp =>
    simp only [Service.events, hp]
    exact announces hi hp _
  | announced hp =>
    have hsuccess := hphase
    rw [hp] at hsuccess
    simp only [Service.events, hp, goto, List.append_nil]
    exact ⟨hrunning, over_of_announced hi hp rfl rfl (iff_of_true hsuccess.2.2.1 rfl), hsuccess.2.1⟩
  | announcingFails hp hne =>
    rw [hp] at hphase
    simp only [Service.events, hp, goto, List.append_nil]
    exact ⟨hrunning, over_of_announced hi hp rfl rfl
      (iff_of_false (fun hs => Bool.noConfusion hs) hne), hphase.2.1⟩
  | @finalises saved hp =>
    have hsaved : saved = true := hcalm
    subst hsaved
    simp only [Service.events, hp, List.append_nil]
    exact finalises hi hp
  | reports hp =>
    rw [hp] at hphase
    simp only [Service.events, hp, List.append_nil]
    exact ⟨hrunning, hphase.1, hphase.2.1, hphase.2.2, rfl⟩

end LoopInv

end MusicbrainzIngestion
