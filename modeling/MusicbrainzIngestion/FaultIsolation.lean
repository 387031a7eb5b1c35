import MusicbrainzIngestion.Downloader
import MusicbrainzIngestion.Service.LoopEntry
import MusicbrainzIngestion.Service.NextRun
import MusicbrainzIngestion.VersionCompletion

/-! One run of the loop over the files, whichever of them fail and in whatever order they come: a
failure keeps only its own file from being completed, and the next run attempts just those. Two
orders with the same results leave the same marker but for the totals of its phases. -/

namespace MusicbrainzIngestion
open Base

section Runs

variable (cfg : ServiceConfig) (s t : Service)

/-- What a run did to its files. -/
def Service.history (labels : List Service.Label) : List FileEvent :=
  (Service.machine cfg).observed Service.events s labels

/-- The loop about to take its files in another order. -/
def Service.reordered (order : List DataType) : Service :=
  { s with run := { s.run with dumpFiles := order }, phase := .looping order }

/-- From `s` to `t` no file was kept from being completed by the failure of another, and what
failed is what the next run attempts. -/
structure Isolated (h : List FileEvent) : Prop where
  completed : ∃ m, t.shared.disk = some m ∧ ∀ f, m.fileCompleted f = true ↔
    s.shared.marker.fileCompleted f = true ∨
      ∃ dt ∈ s.run.dumpFiles, f = cfg.dump.fileName dt ∧ dt ∉ History.failed h
  attempted : History.started h = cfg.pending s.shared.marker s.run.dumpFiles
  once : (History.started h).Nodup
  announced : History.deliveries h ≠ [] ↔ History.failed h = []
  outcome : ∃ success, t.outcome = some (.ok success) ∧
    (success = true ↔ History.failed h = [] ∧ ∀ delivered ∈ History.deliveries h, delivered = true)
  next : ∀ labels u, (Service.machine cfg).run t (.begin false :: labels) = some u →
    (∀ label ∈ labels, label.Same s.run.dumpFiles) → u.phase = .idle →
    (∃ success, u.outcome = some (.ok success)) →
    (History.started (t.history cfg (.begin false :: labels))).Perm (History.failed h)

end Runs

/-- The files failed alike, with the same counts, and the announcement went the same way. -/
structure SameResults (h h' : List FileEvent) : Prop where
  failed : ∀ dt, dt ∈ History.failed h ↔ dt ∈ History.failed h'
  counts : ∀ dt, History.counts h dt = History.counts h' dt
  totalCount : ∀ dt, History.totalCount h dt = History.totalCount h' dt
  delivered : (∀ delivered ∈ History.deliveries h, delivered = true) ↔
    ∀ delivered ∈ History.deliveries h', delivered = true

instance SameResults.decidable (h h' : List FileEvent) : Decidable (SameResults h h') :=
  decidable_of_iff ((∀ dt ∈ DataType.musicbrainz, (dt ∈ History.failed h ↔ dt ∈ History.failed h') ∧
      History.counts h dt = History.counts h' dt ∧ History.totalCount h dt = History.totalCount h' dt) ∧
    ((∀ delivered ∈ History.deliveries h, delivered = true) ↔
      ∀ delivered ∈ History.deliveries h', delivered = true))
    ⟨fun ⟨hfiles, hd⟩ => ⟨fun dt => (hfiles dt dt.mem_musicbrainz).1,
      fun dt => (hfiles dt dt.mem_musicbrainz).2.1, fun dt => (hfiles dt dt.mem_musicbrainz).2.2, hd⟩,
    fun hsame => ⟨fun dt _ => ⟨hsame.failed dt, hsame.counts dt, hsame.totalCount dt⟩,
      hsame.delivered⟩⟩

/-- The marker without its times, its current file and its tables. -/
def StateMarker.untimed (m : StateMarker) : StateMarker :=
  { m with
    lastUpdated := 0
    processingPhase := { m.processingPhase with
      completedAt := none
      currentFile := none
      progressByFile := ∅ }
    publishingPhase := { m.publishingPhase with lastAmqpHeartbeat := none }
    summary := { m.summary with totalDurationSeconds := none, filesByType := ∅ } }

/-- The markers are equal up to times and the current file. -/
structure Alike (m m' : StateMarker) : Prop where
  untimed : m.untimed = m'.untimed
  progress : ∀ f, (m.progress f).map FileProcessingStatus.untimed =
    (m'.progress f).map FileProcessingStatus.untimed
  types : ∀ k, m.summary.filesByType.lookup k = m'.summary.filesByType.lookup k

/-- The two runs leave the same marker and the same counts. -/
structure SameEnd (t t' : Service) : Prop where
  markers : ∃ m m', t.shared.disk = some m ∧ t'.shared.disk = some m' ∧ Alike m m'
  counts : ∀ k, t.run.recordCounts.lookup k = t'.run.recordCounts.lookup k

variable {cfg : ServiceConfig} {s t : Service} {h h' : List FileEvent} {m m' m₀ : StateMarker}
  {dt : DataType} {labels : List Service.Label}

/-! ## One run -/

theorem LoopEntry.reordered (he : LoopEntry s) {order : List DataType}
    (hperm : order.Perm s.run.dumpFiles) : LoopEntry (s.reordered order) :=
  ⟨rfl, hperm.nodup_iff.mpr he.nodup, he.success, he.running⟩

theorem loopInv_run (he : LoopEntry s) (hcalm : ∀ label ∈ labels, label.calm = true)
    (hrun : (Service.machine cfg).run s labels = some t) :
    LoopInv cfg s t (s.history cfg labels) := by
  have hinv := (Service.machine cfg).run_observed Service.events (P := LoopInv cfg s)
    (fun s t label h hlabel hi hstep => hi.step he hlabel (Service.step_move hstep)) hcalm
    (loopInv_entry he) hrun
  rwa [List.nil_append] at hinv

theorem History.mem_failed : dt ∈ failed h ↔ dt ∈ started h ∧ .faulted dt ∈ h := by
  unfold failed
  rw [List.mem_filter, decide_eq_true_iff]

theorem flawless_iff : Flawless h none ↔ History.failed h = [] := by
  unfold Flawless
  rw [List.eq_nil_iff_forall_not_mem]
  simp only [History.mem_failed, not_and]
  exact forall_congr' fun dt => imp_congr_right fun _ => imp_iff_right (by simp)

/-- The status of a file that was started. -/
theorem Image.fileCompleted (hi : Image cfg.dump m₀ h m) (hdt : dt ∈ History.started h) :
    m.fileCompleted (cfg.dump.fileName dt) = (History.completion h dt).isSome := by
  obtain ⟨status, hstatus, huntimed⟩ := Option.map_eq_some_iff.mp (hi.entries dt hdt)
  have hs := congrArg FileProcessingStatus.status huntimed
  unfold StateMarker.fileCompleted
  rw [hstatus]
  show decide (status.status = _) = _
  rw [show status.status = (History.entry cfg.dump m₀ h dt).status from hs]
  unfold History.entry
  cases (History.completion h dt).isSome <;> rfl

/-- Finalising leaves the table of files. -/
theorem Finalised.image {success : Bool} (hf : Finalised cfg s h success m) :
    ∃ m', Image cfg.dump s.shared.marker h m' ∧ (∀ f, m.progress f = m'.progress f) ∧
      m.downloadPhase = m'.downloadPhase ∧
      (m.summary.overallStatus = .completed → success = true ∨
        m'.summary.overallStatus = .completed) := by
  obtain ⟨m', now, finished, himage, rfl⟩ := hf
  refine ⟨m', himage, fun f => ?_, ?_, fun hc => ?_⟩
  · cases success <;> rfl
  · cases success <;> rfl
  · cases success with
    | false => exact Or.inr hc
    | true => exact Or.inl rfl

/-- What holds when the run is over. -/
theorem LoopInv.over (hi : LoopInv cfg s t h) (hidle : t.phase = .idle) :
    Over cfg s h t.run ∧ Finalised cfg s h t.run.success t.shared.marker ∧
      t.shared.disk = some t.shared.marker ∧ t.outcome = some (.ok t.run.success) := by
  have hphase := hi.phase
  unfold LoopPhase at hphase
  rwa [hidle] at hphase

theorem Over.started {run : Run} (ho : Over cfg s h run) :
    History.started h = cfg.pending s.shared.marker s.run.dumpFiles := by
  have horder := ho.looped.order
  rwa [show cfg.pending s.shared.marker [] = [] from rfl, List.append_nil] at horder

theorem ServiceConfig.mem_pending {files : List DataType} : dt ∈ cfg.pending m files ↔
    dt ∈ files ∧ m.fileCompleted (cfg.dump.fileName dt) = false := by
  unfold pending
  rw [List.mem_filter, Bool.not_eq_true']

/-- A file is completed in the end if it was before, or if it is a dump file that did not fail. -/
theorem completed_iff {success : Bool} (ho : Over cfg s h t.run) (hf : Finalised cfg s h success m)
    (f : String) : m.fileCompleted f = true ↔ s.shared.marker.fileCompleted f = true ∨
      ∃ dt ∈ s.run.dumpFiles, f = cfg.dump.fileName dt ∧ dt ∉ History.failed h := by
  obtain ⟨m', himage, hprogress, -⟩ := hf.image
  have hsame : ∀ f, m.fileCompleted f = m'.fileCompleted f := fun f => by
    unfold StateMarker.fileCompleted
    rw [hprogress]
  have hstarted := ho.started
  rw [hsame]
  by_cases hmine : ∃ dt ∈ History.started h, f = cfg.dump.fileName dt
  · obtain ⟨dt, hdt, rfl⟩ := hmine
    have hpending := hdt
    rw [hstarted, ServiceConfig.mem_pending] at hpending
    obtain ⟨hmem, hopen⟩ := hpending
    rw [himage.fileCompleted hdt, ho.looped.verdict dt hdt (by simp), hopen]
    constructor
    · intro hnot
      exact Or.inr ⟨dt, hmem, rfl, fun hfailed => hnot (History.mem_failed.mp hfailed).2⟩
    · rintro (hdone | ⟨dt', -, heq, hnot⟩)
      · cases hdone
      · rw [← cfg.dump.fileName_injective heq] at hnot
        exact fun hfaulted => hnot (History.mem_failed.mpr ⟨hdt, hfaulted⟩)
  · have hbefore : m'.progress f = s.shared.marker.progress f :=
      himage.others f fun dt hdt heq => hmine ⟨dt, hdt, heq⟩
    have heq : m'.fileCompleted f = s.shared.marker.fileCompleted f := by
      unfold StateMarker.fileCompleted
      rw [hbefore]
    rw [heq]
    refine ⟨Or.inl, ?_⟩
    rintro (hdone | ⟨dt, hmem, hname, -⟩)
    · exact hdone
    · by_contra hopen
      refine hmine ⟨dt, ?_, hname⟩
      rw [hstarted, ServiceConfig.mem_pending]
      exact ⟨hmem, by rw [← hname]; exact Bool.eq_false_iff.mpr hopen⟩

/-- The files that failed are those left to do. -/
theorem failed_eq_pending {success : Bool} (ho : Over cfg s h t.run)
    (hf : Finalised cfg s h success m) :
    History.failed h = cfg.pending m s.run.dumpFiles := by
  unfold History.failed
  rw [ho.started]
  unfold ServiceConfig.pending
  rw [List.filter_filter]
  refine List.filter_congr fun dt hdt => ?_
  have hiff := completed_iff ho hf (cfg.dump.fileName dt)
  have hfailed : dt ∈ History.failed h ↔
      s.shared.marker.fileCompleted (cfg.dump.fileName dt) = false ∧ .faulted dt ∈ h := by
    rw [History.mem_failed, ho.started, ServiceConfig.mem_pending]
    exact and_congr_left fun _ => and_iff_right hdt
  rw [Bool.eq_iff_iff, Bool.and_eq_true, decide_eq_true_iff, Bool.not_eq_true', Bool.not_eq_true',
    and_comm, ← hfailed, ← Bool.not_eq_true, hiff, not_or]
  constructor
  · intro hmem
    refine ⟨by simp [(hfailed.mp hmem).1], fun ⟨dt', _, heq, hnot⟩ => ?_⟩
    rw [← cfg.dump.fileName_injective heq] at hnot
    exact hnot hmem
  · rintro ⟨-, hnone⟩
    by_contra hnot
    exact hnone ⟨dt, hdt, rfl, hnot⟩

/-- A run of the loop keeps its failures apart. -/
theorem isolated_of_run (he : LoopEntry s)
    (hdownload : s.shared.marker.downloadPhase.status = .pending)
    (hopen : s.shared.marker.summary.overallStatus ≠ .completed)
    (hcalm : ∀ label ∈ labels, label.calm = true)
    (hrun : (Service.machine cfg).run s labels = some t) (hidle : t.phase = .idle) :
    Isolated cfg s t (s.history cfg labels) := by
  have hinv := loopInv_run he hcalm hrun
  obtain ⟨ho, hf, hdisk, houtcome⟩ := hinv.over hidle
  obtain ⟨m', himage, hprogress, hkept, hoverall⟩ := hf.image
  have hfailed := failed_eq_pending ho hf
  refine ⟨⟨_, hdisk, completed_iff ho hf⟩, ho.started, himage.nodup, ?_, ⟨_, houtcome, ?_⟩,
    fun labels' u hrun' hlabels hidle' hok => ?_⟩
  · rw [← flawless_iff]
    exact ho.announced
  · rw [← flawless_iff]
    exact ho.success
  · -- the next run reads the marker that this one left
    have hbefore : t.shared.marker.downloadPhase.status = .pending := by
      rw [hkept, himage.download]
      exact hdownload
    obtain ⟨v, hbegin, hrest⟩ := (Service.machine cfg).run_cons_some hrun'
    have hmove : Service.Move cfg t (.begin false) v := Service.step_move hbegin
    have hfirst : NextInv cfg t.shared.marker s.run.dumpFiles v [] := by
      cases hmove with
      | begins => exact ⟨hinv.running, rfl, hdisk, rfl, rfl⟩
    have hnext := (Service.machine cfg).run_observed Service.events
      (P := NextInv cfg t.shared.marker s.run.dumpFiles)
      (fun s' t' h label hlabel hi hstep => hi.step hbefore he.nodup hlabel (Service.step_move hstep))
      hlabels hfirst hrest
    rw [List.nil_append] at hnext
    have hhistory : t.history cfg (.begin false :: labels') = v.history cfg labels' := by
      have hquiet : t.events (.begin false) v = [] := by
        unfold Service.events
        rw [hidle]
      unfold Service.history
      rw [(Service.machine cfg).observed_cons_some _ hbegin, hquiet, List.nil_append]
    rw [hhistory]
    have hphase := hnext.phase
    unfold NextPhase at hphase
    rw [hidle'] at hphase
    obtain ⟨e, herror⟩ | ⟨hquiet, hdone⟩ | ⟨s₀, he₀, hperm, hsame, hloop⟩ := hphase
    · obtain ⟨success, hsuccess⟩ := hok
      rw [herror] at hsuccess
      cases hsuccess
    · have hnone : History.failed (s.history cfg labels) = [] := by
        rcases hdone with hdone | hempty
        · rcases hoverall hdone with hsuccess | hbefore'
          · exact flawless_iff.mp (ho.success.mp hsuccess).1
          · have hskeleton := congrArg (fun m => m.summary.overallStatus) himage.skeleton
            exact absurd (hskeleton.symm.trans hbefore') hopen
        · rw [hfailed, hempty]
          rfl
      show (History.started ((Service.machine cfg).observed Service.events v labels')).Perm _
      rw [hquiet, hnone]
      exact List.Perm.refl _
    · obtain ⟨ho', -, -, -⟩ := hloop.over hidle'
      show (History.started ((Service.machine cfg).observed Service.events v labels')).Perm _
      rw [ho'.started, hfailed]
      unfold ServiceConfig.pending
      simp only [hsame]
      exact hperm.filter _

/-! ## Two orders -/

namespace StateMarker

/-- A marker without times is what a run leaves of it, and the numbers that the run counts. -/
theorem untimed_congr (hskeleton : m.skeleton = m'.skeleton)
    (hprocessed : m.processingPhase.filesProcessed = m'.processingPhase.filesProcessed)
    (hstatus : m.publishingPhase.status = m'.publishingPhase.status)
    (htotals : ∀ c : Total, c.ofMarker m = c.ofMarker m') : m.untimed = m'.untimed := by
  have hfrom : ∀ m : StateMarker, m.untimed = { m.skeleton with
      processingPhase := { m.skeleton.processingPhase with
        completedAt := none
        filesProcessed := m.processingPhase.filesProcessed
        recordsExtracted := Total.records.ofMarker m }
      publishingPhase := { m.skeleton.publishingPhase with
        status := m.publishingPhase.status
        messagesPublished := Total.messages.ofMarker m
        batchesSent := Total.batches.ofMarker m }
      summary := { m.skeleton.summary with totalDurationSeconds := none } } := fun _ => rfl
  rw [hfrom m, hfrom m', hskeleton, hprocessed, hstatus, htotals, htotals, htotals]

/-- Completing a marker sets three statuses and times. -/
theorem untimed_completed (h : m.untimed = m'.untimed) (now now' : DateTime) :
    (m.completeProcessing now).completeExtraction.untimed =
      (m'.completeProcessing now').completeExtraction.untimed := by
  have hfrom : ∀ (m : StateMarker) (now : DateTime),
      (m.completeProcessing now).completeExtraction.untimed = { m.untimed with
        processingPhase := { m.untimed.processingPhase with status := .completed }
        publishingPhase := { m.untimed.publishingPhase with status := .completed }
        summary := { m.untimed.summary with overallStatus := .completed } } := fun _ _ => rfl
  rw [hfrom m, hfrom m', h]

end StateMarker

theorem Total.ofTable_congr (c : Total) (h : ∀ f, (m.progress f).map FileProcessingStatus.untimed =
    (m'.progress f).map FileProcessingStatus.untimed) : c.ofTable m = c.ofTable m' := by
  have huntimed : ∀ m : StateMarker, ∀ f, (m.progress f).map c.ofFile =
      ((m.progress f).map FileProcessingStatus.untimed).map c.ofFile := fun m f => by
    cases m.progress f <;> cases c <;> rfl
  refine Table.sumBy_congr c.ofFile fun f => ?_
  show (m.progress f).map c.ofFile = (m'.progress f).map c.ofFile
  rw [huntimed m, huntimed m', h]

/-- What the loop knows of two runs over the same files with the same results. -/
structure SameFiles (h h' : List FileEvent) : Prop where
  started : (History.started h').Perm (History.started h)
  completion : ∀ dt, (History.completion h dt).isSome = (History.completion h' dt).isSome
  counts : ∀ dt, History.counts h dt = History.counts h' dt

theorem sameFiles_of_over {t' : Service} {order : List DataType}
    (hperm : order.Perm s.run.dumpFiles) (ho : Over cfg s h t.run)
    (ho' : Over cfg (s.reordered order) h' t'.run) (hsame : SameResults h h') : SameFiles h h' := by
  have hstarted : (History.started h').Perm (History.started h) := by
    rw [ho.started, ho'.started]
    exact hperm.filter _
  refine ⟨hstarted, fun dt => ?_, hsame.counts⟩
  by_cases hdt : dt ∈ History.started h
  · have hdt' := hstarted.mem_iff.mpr hdt
    have hfailed := hsame.failed dt
    rw [History.mem_failed, History.mem_failed, and_iff_right hdt, and_iff_right hdt'] at hfailed
    rw [Bool.eq_iff_iff, ho.looped.verdict dt hdt (by simp), ho'.looped.verdict dt hdt' (by simp),
      hfailed]
  · rw [(ho.looped.unseen dt hdt).completion,
      (ho'.looped.unseen dt fun hdt' => hdt (hstarted.mem_iff.mp hdt')).completion]

theorem extractDataType_of_pattern {dt : DataType} {filename : String}
    (h : filename ∈ mbFilePatterns dt) : extractDataType filename = some dt.asStr := by
  have hall : ∀ dt, (mbFilePatterns dt).all (fun f => extractDataType f = some dt.asStr) = true := by
    intro dt
    cases dt <;> decide +kernel
  exact of_decide_eq_true (List.all_eq_true.mp (hall dt) _ h)

/-- The dump files have names from which their types can be read. -/
def DumpSet.Typed (dump : DumpSet) : Prop := ∀ dt, extractDataType (dump.fileName dt) = some dt.asStr

/-- A type that one file has at most does not depend on the order. -/
theorem DumpSet.Typed.lastNamed_perm {dump : DumpSet} (ht : dump.Typed) {files files' : List DataType}
    (hn : files.Nodup) (hperm : files'.Perm files) (k : String) :
    History.lastNamed dump k files' = History.lastNamed dump k files := by
  unfold History.lastNamed
  have hfiltered := hperm.filter fun dt => extractDataType (dump.fileName dt) = some k
  have hone : (files.filter fun dt => extractDataType (dump.fileName dt) = some k).Pairwise
      fun _ _ => False := by
    rw [List.pairwise_filter]
    refine hn.imp fun hne hdt hdt' => hne (DataType.asStr_injective (Option.some.inj ?_))
    rw [← ht, ← ht, of_decide_eq_true hdt, of_decide_eq_true hdt']
  cases hfiles : files.filter fun dt => extractDataType (dump.fileName dt) = some k with
  | nil =>
    rw [hfiles] at hfiltered
    rw [hfiltered.eq_nil]
  | cons dt rest =>
    rw [hfiles] at hfiltered hone
    cases rest with
    | nil => rw [List.perm_singleton.mp hfiltered]
    | cons dt' rest => exact ((List.pairwise_cons.mp hone).1 dt' (List.mem_cons_self ..)).elim

/-- Files with the known names have a type each, which no other file sets. -/
theorem SameFiles.fileType (hsame : SameFiles h h') (hn : (History.started h).Nodup)
    (hnames : ∀ dt, cfg.dump.fileName dt ∈ mbFilePatterns dt) (k : String) :
    History.fileType cfg.dump m₀ h k = History.fileType cfg.dump m₀ h' k := by
  have htyped : cfg.dump.Typed := fun dt => extractDataType_of_pattern (hnames dt)
  unfold History.fileType
  rw [htyped.lastNamed_perm hn hsame.started k]
  simp only [hsame.completion]

section Images

variable (hsame : SameFiles h h') (hi : Image cfg.dump m₀ h m) (hi' : Image cfg.dump m₀ h' m')

include hsame hi hi'

theorem SameFiles.progress (f : String) : (m.progress f).map FileProcessingStatus.untimed =
    (m'.progress f).map FileProcessingStatus.untimed := by
  by_cases hmine : ∃ dt ∈ History.started h, f = cfg.dump.fileName dt
  · obtain ⟨dt, hdt, rfl⟩ := hmine
    rw [hi.entries dt hdt, hi'.entries dt (hsame.started.mem_iff.mpr hdt)]
    unfold History.entry
    rw [hsame.counts, hsame.completion]
  · rw [hi.others f fun dt hdt heq => hmine ⟨dt, hdt, heq⟩,
      hi'.others f fun dt hdt heq => hmine ⟨dt, hsame.started.mem_iff.mp hdt, heq⟩]

theorem SameFiles.processed :
    m.processingPhase.filesProcessed = m'.processingPhase.filesProcessed := by
  rw [hi.processed, hi'.processed]
  unfold History.completed
  simp only [hsame.completion]
  rw [(hsame.started.filter fun dt => (History.completion h' dt).isSome).length_eq]

theorem SameFiles.publishing (hp : m₀.Publishing) :
    m.publishingPhase.status = m'.publishingPhase.status := by
  obtain ⟨hopen, hiff⟩ := hi.publishing hp
  obtain ⟨hopen', hiff'⟩ := hi'.publishing hp
  have hcounts : (∀ dt ∈ History.started h, (History.counts h dt).1 = 0) ↔
      ∀ dt ∈ History.started h', (History.counts h' dt).1 = 0 := by
    refine forall_congr' fun dt => ?_
    rw [hsame.started.mem_iff, hsame.counts]
  have hboth : m.publishingPhase.status = .pending ↔ m'.publishingPhase.status = .pending := by
    rw [hiff, hiff', hcounts]
  rcases hopen with hs | hs <;> rcases hopen' with hs' | hs'
  · rw [hs, hs']
  · rw [hboth.mp hs] at hs'
    cases hs'
  · rw [hboth.mpr hs'] at hs
    cases hs
  · rw [hs, hs']

/-- What a total holds beyond the table is all that it can differ in. -/
theorem SameFiles.total (c : Total) : c.ofMarker m = c.ofMarker m' ↔
    History.leftover cfg.dump m₀ h c = History.leftover cfg.dump m₀ h' c := by
  have htotal := hi.totals c
  have htotal' := hi'.totals c
  have htable := c.ofTable_congr (hsame.progress hi hi')
  constructor
  · intro heq
    omega
  · intro heq
    omega

end Images

theorem alike_iff {success : Bool} (hsame : SameFiles h h') (hp : s.shared.marker.Publishing)
    (hf : Finalised cfg s h success m) (hf' : Finalised cfg s h' success m') : Alike m m' ↔
      (∀ c, History.leftover cfg.dump s.shared.marker h c =
        History.leftover cfg.dump s.shared.marker h' c) ∧
      ∀ k, History.fileType cfg.dump s.shared.marker h k =
        History.fileType cfg.dump s.shared.marker h' k := by
  obtain ⟨m₁, now, finished, hi, rfl⟩ := hf
  obtain ⟨m₂, now', finished', hi', rfl⟩ := hf'
  have hprogress := hsame.progress hi hi'
  have htotals := fun c => hsame.total hi hi' c
  have hkept : ∀ (m : StateMarker) (now finished : DateTime) (c : Total), c.ofMarker ((if success then
      (m.completeProcessing finished).completeExtraction else m).stamped now).untimed =
        c.ofMarker m := fun _ _ _ c => by
    cases success <;> cases c <;> rfl
  constructor
  · intro halike
    refine ⟨fun c => (htotals c).mp ?_, fun k => ?_⟩
    · have heq := congrArg c.ofMarker halike.untimed
      rwa [hkept, hkept] at heq
    · rw [← hi.types, ← hi'.types]
      have heq := halike.types k
      cases success <;> exact heq
  · rintro ⟨hleft, htypes⟩
    have huntimed : m₁.untimed = m₂.untimed := StateMarker.untimed_congr
      (hi.skeleton.trans hi'.skeleton.symm) (hsame.processed hi hi') (hsame.publishing hi hi' hp)
      fun c => (htotals c).mpr (hleft c)
    refine ⟨?_, fun f => ?_, fun k => ?_⟩
    · cases success with
      | false => exact huntimed
      | true => exact StateMarker.untimed_completed huntimed finished finished'
    · have heq := hprogress f
      cases success <;> exact heq
    · have heq := htypes k
      rw [← hi.types, ← hi'.types] at heq
      cases success <;> exact heq

/-- The counts of the run, of the files it processed and of those it skipped. -/
theorem recordCounts_congr {t' : Service} {order : List DataType}
    (hperm : order.Perm s.run.dumpFiles) (ho : Over cfg s h t.run)
    (ho' : Over cfg (s.reordered order) h' t'.run) (hsame : SameResults h h') (k : String) :
    t.run.recordCounts.lookup k = t'.run.recordCounts.lookup k := by
  by_cases hmine : ∃ dt ∈ s.run.dumpFiles, k = dt.asStr
  · obtain ⟨dt, hdt, rfl⟩ := hmine
    rw [ho.looped.counts dt hdt (by simp),
      ho'.looped.counts dt (hperm.mem_iff.mpr hdt) (by simp), hsame.totalCount]
    rfl
  · rw [ho.looped.keys k fun dt hdt heq => hmine ⟨dt, hdt, heq⟩,
      ho'.looped.keys k fun dt hdt heq => hmine ⟨dt, hperm.mem_iff.mp hdt, heq⟩]
    rfl

theorem success_congr {t' : Service} {order : List DataType} (ho : Over cfg s h t.run)
    (ho' : Over cfg (s.reordered order) h' t'.run) (hsame : SameResults h h') :
    t.run.success = t'.run.success := by
  have hfailed : History.failed h = [] ↔ History.failed h' = [] := by
    rw [List.eq_nil_iff_forall_not_mem, List.eq_nil_iff_forall_not_mem]
    exact forall_congr' fun dt => (hsame.failed dt).not
  rw [Bool.eq_iff_iff, ho.success, ho'.success, flawless_iff, flawless_iff, hfailed, hsame.delivered]

/-- With the known names, over totals that hold what the table does and files that have no counts
yet, every two orders agree. -/
theorem orders_agree {t' : Service} {labels' : List Service.Label} {order : List DataType}
    (he : LoopEntry s) (hperm : order.Perm s.run.dumpFiles)
    (hcalm : ∀ label ∈ labels, label.calm = true) (hcalm' : ∀ label ∈ labels', label.calm = true)
    (hrun : (Service.machine cfg).run s labels = some t)
    (hrun' : (Service.machine cfg).run (s.reordered order) labels' = some t')
    (hidle : t.phase = .idle) (hidle' : t'.phase = .idle)
    (hsame : SameResults (s.history cfg labels) ((s.reordered order).history cfg labels'))
    (hnames : ∀ dt, cfg.dump.fileName dt ∈ mbFilePatterns dt)
    (htotals : ∀ c : Total, c.ofMarker s.shared.marker = c.ofTable s.shared.marker)
    (hold : ∀ dt ∈ cfg.pending s.shared.marker s.run.dumpFiles, ∀ c : Total,
      ((s.shared.marker.progress (cfg.dump.fileName dt)).map c.ofFile).getD 0 = 0) :
    (∀ c, History.leftover cfg.dump s.shared.marker (s.history cfg labels) c =
      History.leftover cfg.dump s.shared.marker ((s.reordered order).history cfg labels') c) ∧
    ∀ k, History.fileType cfg.dump s.shared.marker (s.history cfg labels) k =
      History.fileType cfg.dump s.shared.marker ((s.reordered order).history cfg labels') k := by
  obtain ⟨ho, hf, -, -⟩ := (loopInv_run he hcalm hrun).over hidle
  obtain ⟨ho', -, -, -⟩ := (loopInv_run (he.reordered hperm) hcalm' hrun').over hidle'
  obtain ⟨m, hi, -⟩ := hf.image
  have hfiles := sameFiles_of_over hperm ho ho' hsame
  refine ⟨fun c => ?_, fun k => hfiles.fileType hi.nodup hnames k⟩
  rw [History.leftover_eq_zero _ (htotals c) fun dt hdt => hold dt (ho.started ▸ hdt) c,
    History.leftover_eq_zero _ (htotals c) fun dt hdt =>
      hold dt (ho.started ▸ hfiles.started.mem_iff.mp hdt) c]

/-- For every marker that a run brings to its loop, every set of files that fail and every two
orders of the files, with no shutdown and no failing save: each run completes exactly the files that
were completed or did not fail, attempts every other file once, announces the version when none
failed, says whether that went well, and leaves the failed files to the next run. Two orders with
the same results moreover end with the same marker and counts exactly when their totals hold the
same beyond the table, and of each type the file that was started last came to the same. -/
theorem faults_isolated_orders_agree_iff (cfg : ServiceConfig) (s₀ s t t' : Service)
    (order : List DataType) (labels labels' : List Service.Label)
    (hreachable : (Service.machine cfg).Reachable s₀)
    (hentry : Service.step cfg s₀ (.buildMap none) = some s)
    (hloop : s.phase = .looping s.run.dumpFiles) (hrunning : s.shutdown = false)
    (hperm : order.Perm s.run.dumpFiles)
    (hcalm : ∀ label ∈ labels, label.calm = true) (hcalm' : ∀ label ∈ labels', label.calm = true)
    (hrun : (Service.machine cfg).run s labels = some t)
    (hrun' : (Service.machine cfg).run (s.reordered order) labels' = some t')
    (hidle : t.phase = .idle) (hidle' : t'.phase = .idle)
    (hsame : SameResults (s.history cfg labels) ((s.reordered order).history cfg labels')) :
    (Isolated cfg s t (s.history cfg labels) ∧
      Isolated cfg (s.reordered order) t' ((s.reordered order).history cfg labels') ∧
      SameEnd t t') ↔
    (∀ c, History.leftover cfg.dump s.shared.marker (s.history cfg labels) c =
      History.leftover cfg.dump s.shared.marker ((s.reordered order).history cfg labels') c) ∧
    ∀ k, History.fileType cfg.dump s.shared.marker (s.history cfg labels) k =
      History.fileType cfg.dump s.shared.marker ((s.reordered order).history cfg labels') k := by
  obtain ⟨he, hp, hopen, hdownload⟩ := Service.loopEntry_of_maps hreachable hentry hloop hrunning
  have he' := he.reordered hperm
  obtain ⟨ho, hf, hdisk, -⟩ := (loopInv_run he hcalm hrun).over hidle
  obtain ⟨ho', hf', hdisk', -⟩ := (loopInv_run he' hcalm' hrun').over hidle'
  rw [← success_congr ho ho' hsame] at hf'
  rw [← alike_iff (sameFiles_of_over hperm ho ho' hsame) hp hf hf']
  constructor
  · rintro ⟨-, -, ⟨m, m', hm, hm', halike⟩, -⟩
    rw [hdisk] at hm
    rw [hdisk'] at hm'
    cases hm
    cases hm'
    exact halike
  · intro halike
    exact ⟨isolated_of_run he hdownload hopen hcalm hrun hidle,
      isolated_of_run he' hdownload hopen hcalm' hrun' hidle',
      ⟨_, _, hdisk, hdisk', halike⟩, recordCounts_congr hperm ho ho' hsame⟩

/-! ## Two labels, refused by the broker -/

section TwoLabels

def twoLabels : Files := fun path =>
  if path = demoDump.path .labels then
    some (labelLine ++ "\n" ++ labelLine).toByteArray.data.toList
  else demoFiles path

def twoLabelState (labels : List Service.Label) : Option Service :=
  (Service.machine demoService).run (Service.initial demoService twoLabels 0) labels

def Phase.isIdle : Phase → Bool
  | .idle => true
  | _ => false

def Phase.isLooping (files : List DataType) : Phase → Bool
  | .looping rest => decide (rest = files)
  | _ => false

theorem Phase.eq_idle {phase : Phase} (h : phase.isIdle = true) : phase = .idle := by
  cases phase <;> first | rfl | cases h

theorem Phase.eq_looping {files : List DataType} {phase : Phase} (h : phase.isLooping files = true) :
    phase = .looping files := by
  cases phase with
  | looping rest => rw [of_decide_eq_true h]
  | _ => cases h

/-- Both labels are published, and the counts are saved. -/
def countedRun : List Pipeline.Label := [
  .parserOpen none, .parserRead none, .parserSend, .batcherRecv, .batcherFlush, .publisherRecv none,
  .publisherPublish (.confirmation true none), .parserRead none, .parserSend, .batcherRecv,
  .batcherFlush, .publisherRecv none, .publisherPublish (.confirmation true none), .parserRead none,
  .batcherRecv, .batcherSave true]

/-- The broker gives no channel for the first label, and the batcher cannot pass on the second. -/
def refusedRun : List Pipeline.Label := [
  .parserOpen none, .parserRead none, .parserSend, .batcherRecv, .batcherFlush,
  .publisherRecv (some "connection lost"), .parserRead none, .parserSend, .batcherRecv, .batcherFlush,
  .parserRead none, .join, .join, .join, .markFile true]

/-- The loop over these files, in which the labels fail. -/
def refusedLoop (files : List DataType) : List Service.Label :=
  files.flatMap (fun dt => if dt = .labels then
    [.nextFile true] ++ refusedRun.map .pipeline ++ [.fileDone] else fileRun dt) ++
  [.nextFile true, .finalise true, .report]

def lateOrder : List DataType := [.artists, .releaseGroups, .releases, .labels]

/-- Two runs of the loop from a state that is about to enter it, one of them in another order. -/
def compared (check : Service → Service → Service → Bool) (labels labels' : List Service.Label)
    (s₀ : Service) : Bool :=
  (Service.step demoService s₀ (.buildMap none)).any fun s =>
    s.phase.isLooping s.run.dumpFiles && !s.shutdown && decide (lateOrder.Perm s.run.dumpFiles) &&
    labels.all Service.Label.calm && labels'.all Service.Label.calm &&
    decide (SameResults (s.history demoService labels)
      ((s.reordered lateOrder).history demoService labels')) &&
    ((Service.machine demoService).run s labels).any (fun t => t.phase.isIdle &&
      ((Service.machine demoService).run (s.reordered lateOrder) labels').any fun t' =>
        t'.phase.isIdle && check s t t')

structure Compared (s₀ s t t' : Service) (labels labels' : List Service.Label) : Prop where
  reachable : (Service.machine demoService).Reachable s₀
  entry : Service.step demoService s₀ (.buildMap none) = some s
  loop : s.phase = .looping s.run.dumpFiles
  running : s.shutdown = false
  perm : lateOrder.Perm s.run.dumpFiles
  calm : ∀ label ∈ labels, label.calm = true
  calm' : ∀ label ∈ labels', label.calm = true
  run : (Service.machine demoService).run s labels = some t
  run' : (Service.machine demoService).run (s.reordered lateOrder) labels' = some t'
  idle : t.phase = .idle
  idle' : t'.phase = .idle
  same : SameResults (s.history demoService labels)
    ((s.reordered lateOrder).history demoService labels')

theorem exists_compared (check : Service → Service → Service → Bool)
    (before labels labels' : List Service.Label)
    (h : (twoLabelState before).any (compared check labels labels') = true) :
    ∃ s₀ s t t', Compared s₀ s t t' labels labels' ∧ check s t t' = true := by
  obtain ⟨s₀, hbefore, hcompared⟩ := (Option.any_eq_true _ _).mp h
  obtain ⟨s, hentry, hs⟩ := (Option.any_eq_true _ _).mp hcompared
  simp only [Bool.and_eq_true, decide_eq_true_eq, Bool.not_eq_true'] at hs
  obtain ⟨⟨⟨⟨⟨⟨hloop, hrunning⟩, hperm⟩, hcalm⟩, hcalm'⟩, hsame⟩, hruns⟩ := hs
  obtain ⟨t, hrun, ht⟩ := (Option.any_eq_true _ _).mp hruns
  obtain ⟨hidle, hrest⟩ := Bool.and_eq_true_iff.mp ht
  obtain ⟨t', hrun', ht'⟩ := (Option.any_eq_true _ _).mp hrest
  obtain ⟨hidle', hcheck⟩ := Bool.and_eq_true_iff.mp ht'
  exact ⟨s₀, s, t, t', ⟨⟨_, _, ⟨_, _, rfl⟩, fun _ _ => trivial, hbefore⟩, hentry,
    Phase.eq_looping hloop, hrunning, hperm, List.all_eq_true.mp hcalm, List.all_eq_true.mp hcalm',
    hrun, hrun', Phase.eq_idle hidle, Phase.eq_idle hidle', hsame⟩, hcheck⟩

/-- Nothing was counted for the files that are left to do. -/
def uncounted (s : Service) : Bool :=
  [Total.records, .messages, .batches].all fun c =>
    decide (c.ofMarker s.shared.marker = c.ofTable s.shared.marker) &&
    (demoService.pending s.shared.marker s.run.dumpFiles).all fun dt =>
      decide (((s.shared.marker.progress (demoDump.fileName dt)).map c.ofFile).getD 0 = 0)

theorem uncounted_total {s : Service} (h : uncounted s = true) (c : Total) :
    c.ofMarker s.shared.marker = c.ofTable s.shared.marker ∧
      ∀ dt ∈ demoService.pending s.shared.marker s.run.dumpFiles,
        ((s.shared.marker.progress (demoDump.fileName dt)).map c.ofFile).getD 0 = 0 := by
  have hc := List.all_eq_true.mp h c (by cases c <;> decide)
  obtain ⟨htotal, hfiles⟩ := Bool.and_eq_true_iff.mp hc
  exact ⟨of_decide_eq_true htotal, fun dt hdt =>
    of_decide_eq_true (List.all_eq_true.mp hfiles dt hdt)⟩

/-- The labels fail in either order, and nothing was counted for them before. -/
theorem faults_isolated_orders_agree_two_labels : ∃ s₀ s t t',
    Compared s₀ s t t' (refusedLoop DataType.musicbrainz) (refusedLoop lateOrder) ∧
    Isolated demoService s t (s.history demoService (refusedLoop DataType.musicbrainz)) ∧
    SameEnd t t' := by
  obtain ⟨s₀, s, t, t', hc, hcheck⟩ := exists_compared (fun s _ _ => uncounted s)
    entryRun.dropLast (refusedLoop DataType.musicbrainz) (refusedLoop lateOrder) (by decide +kernel)
  have hnames : ∀ dt, demoService.dump.fileName dt ∈ mbFilePatterns dt := by
    intro dt
    cases dt <;> decide
  have hentry := (Service.loopEntry_of_maps hc.reachable hc.entry hc.loop hc.running).1
  have hagree := orders_agree hentry hc.perm hc.calm hc.calm' hc.run hc.run' hc.idle hc.idle' hc.same
    hnames (fun c => (uncounted_total hcheck c).1) fun dt hdt c => (uncounted_total hcheck c).2 dt hdt
  obtain ⟨hisolated, -, hend⟩ := (faults_isolated_orders_agree_iff demoService s₀ s t t' _ _ _
    hc.reachable hc.entry hc.loop hc.running hc.perm hc.calm hc.calm' hc.run hc.run' hc.idle hc.idle'
    hc.same).mpr hagree
  exact ⟨s₀, s, t, t', hc, hisolated, hend⟩

/-- What the marker on disk counts in all. -/
def Service.diskRecords (s : Service) : Option Nat :=
  s.shared.disk.map fun m => m.processingPhase.recordsExtracted

/-- The labels fail over two that were counted before. After them the other files are processed in
one order, and nothing is in the other: the totals differ by the two. -/
theorem totals_depend_on_order : ∃ s₀ s t t',
    Compared s₀ s t t' (.nextFile true :: refusedLoop [.labels, .releaseGroups, .releases])
      (.nextFile true :: refusedLoop [.releaseGroups, .releases, .labels]) ∧
    t.diskRecords = some 0 ∧ t'.diskRecords = some 2 ∧ ¬ SameEnd t t' := by
  obtain ⟨s₀, s, t, t', hc, hcheck⟩ := exists_compared
    (fun _ t t' => decide (t.diskRecords = some 0 ∧ t'.diskRecords = some 2))
    (entryRun ++ fileRun .artists ++ [.nextFile true] ++ countedRun.map .pipeline ++ [.crash] ++
      entryRun.dropLast)
    (.nextFile true :: refusedLoop [.labels, .releaseGroups, .releases])
    (.nextFile true :: refusedLoop [.releaseGroups, .releases, .labels]) (by decide +kernel)
  obtain ⟨hzero, htwo⟩ := of_decide_eq_true hcheck
  refine ⟨s₀, s, t, t', hc, hzero, htwo, fun ⟨⟨m, m', hm, hm', halike⟩, _⟩ => ?_⟩
  have hrecords := congrArg Total.records.ofMarker halike.untimed
  unfold Service.diskRecords at hzero htwo
  rw [hm] at hzero
  rw [hm'] at htwo
  have hfew : Total.records.ofMarker m.untimed = 0 := Option.some.inj hzero
  have hmore : Total.records.ofMarker m'.untimed = 2 := Option.some.inj htwo
  omega

end TwoLabels

end MusicbrainzIngestion
