import MusicbrainzIngestion.VersionCompletion

/-! The counts agree when a version is finalised: what the announcement carries, what the
marker persists, what the tally shows and what the last completion of each file said. -/

namespace MusicbrainzIngestion
open Base

/-- The record count of the last confirmed completion of a file. -/
def lastFileComplete (log : List Attempt) (dt : DataType) : Option Nat :=
  (log.filterMap fun a => match a.message with
    | .fileComplete fc =>
      if a.exchange = dt ∧ a.reply.delivered = true then some fc.totalProcessed else none
    | _ => none).getLast?

/-- When every completion of the file carries one count and there is one, it is the last. -/
theorem lastFileComplete_eq {log : List Attempt} {dt : DataType} {n : Nat} {a : Attempt}
    {fc : FileCompleteMessage} (ha : a ∈ log) (hm : a.message = .fileComplete fc)
    (he : a.exchange = dt) (hc : a.confirmed)
    (hall : ∀ b ∈ log, ∀ fc, b.message = .fileComplete fc → b.exchange = dt →
      fc.totalProcessed = n) : lastFileComplete log dt = some n := by
  unfold lastFileComplete
  generalize hcounts : (log.filterMap _) = counts
  have hvalue : ∀ k ∈ counts, k = n := by
    intro k hk
    rw [← hcounts] at hk
    obtain ⟨b, hb, hsome⟩ := List.mem_filterMap.mp hk
    split at hsome
    · next fc' hfc =>
      split at hsome
      · next hfile =>
        cases hsome
        exact hall b hb fc' hfc hfile.1
      · cases hsome
    · cases hsome
  have hne : counts ≠ [] := by
    refine List.ne_nil_of_mem (a := fc.totalProcessed) ?_
    rw [← hcounts, List.mem_filterMap]
    exact ⟨a, ha, by simp only [hm]; exact if_pos ⟨he, hc⟩⟩
  rw [List.getLast?_eq_some_getLast hne, hvalue _ (List.getLast_mem hne)]

namespace StateMarker

/-- Once all files of the dump are completed, and there are no others, the phase total is
the sum of their records. -/
theorem recordsExtracted_eq_sum {m : StateMarker} {dump : DumpSet} {counts : DataType → Nat}
    (hcompleted : ∀ dt, m.completedRecords (dump.fileName dt) = some (counts dt))
    (hknown : ∀ f, (m.progress f).isSome = true → ∃ dt, f = dump.fileName dt)
    (hsettled : (∃ f, m.fileStarted f) ∨ m.Tallied) :
    m.processingPhase.recordsExtracted = (DataType.musicbrainz.map counts).sum := by
  have htallied : m.Tallied := by
    rcases hsettled with ⟨f, status, hf, hs⟩ | htallied
    · obtain ⟨dt, rfl⟩ := hknown f (by rw [hf]; rfl)
      have hnone := completedRecords_of_fileStarted ⟨status, hf, hs⟩
      rw [hcompleted] at hnone
      cases hnone
    · exact htallied
  have hnodup : (DataType.musicbrainz.map dump.fileName).Nodup :=
    DataType.nodup_musicbrainz.map dump.fileName_injective
  unfold Tallied at htallied
  rw [htallied, Table.sumBy_eq_sum _ hnodup _ (fun f hf => ?_), List.map_map]
  · refine congrArg _ (List.map_congr_left fun dt _ => ?_)
    have hdt := hcompleted dt
    unfold completedRecords progress at hdt
    obtain ⟨status, hlookup, hrecords⟩ := Option.bind_eq_some_iff.mp hdt
    simp only [Function.comp_apply, hlookup, Option.map_some, Option.getD_some]
    split at hrecords
    · exact Option.some.inj hrecords
    · cases hrecords
  · obtain ⟨dt, rfl⟩ := hknown f (AList.lookup_isSome.mpr hf)
    exact List.mem_map_of_mem (DataType.mem_musicbrainz dt)

end StateMarker

namespace Service

variable {cfg : ServiceConfig} {files : Files} {s : Service} {dt : DataType} {n : Nat}

/-- A completed file was processed from the dump, and so was every completion of it that was
ever published: they carry one count. -/
theorem lastFileComplete_of_completed (hsourced : Sourced cfg files s)
    (hrecorded : Recorded cfg s.run.lineage s.shared.marker
      (s.shared.log.drop s.run.lineage.since))
    (hcompleted : s.shared.marker.completedRecords (cfg.dump.fileName dt) = some n) :
    lastFileComplete s.shared.log dt = some n := by
  obtain ⟨source, hprocessed, ys, hys, attempts, announcement, hys', -, hexchange, hconfirmed,
    ⟨timestamp, hmessage⟩, hresult⟩ := hrecorded dt n hcompleted
  have hgenuine := hsourced.run dt source hprocessed
  have hmem : announcement ∈ s.shared.log := by
    refine List.mem_of_mem_drop (i := s.run.lineage.since) (hys.subset ?_)
    rw [hys']
    simp
  refine lastFileComplete_eq hmem hmessage hexchange hconfirmed fun b hb fc hfc hdt => ?_
  rcases hsourced.log b hb with ⟨e, he, -⟩ | ⟨source', hgenuine', hfile⟩
  · rw [hfc] at he
    cases he
  · rw [hdt] at hgenuine' hfile
    have hcounted := hfile.counted fc hfc
    rw [hgenuine'.unique hgenuine, hresult] at hcounted
    exact (Except.ok.inj hcounted).symm

end Service

/-- For every sequence of runs over one version whose dump files stay, with any order of the
files, crashes, failures and resumes: when a run that announced the version finalises the
marker, then for each data type the announced count, the marker's count of its file, the tally
and the count of the last confirmed completion of the file are one number; exactly the four types
are announced; and the phase total and the total of the tally are their sum. -/
theorem counts_agree_when_finalised (cfg : ServiceConfig) (files : Files) (now : DateTime)
    (labels : List Service.Label) (s t : Service)
    (hwhole : ∀ dt, (files (cfg.dump.path dt)).isSome = true)
    (hkept : ∀ label ∈ labels, ∀ dt, label ≠ .removeFile dt)
    (hrun : (Service.machine cfg).run (Service.initial cfg files now) labels = some s)
    (hsuccess : s.run.success = true) (hstep : Service.step cfg s (.finalise true) = some t) :
    ∃ (e : ExtractionCompleteMessage) (m : StateMarker) (counts : DataType → Nat),
      (∃ before burst, t.shared.log = before ++ burst ∧
        t.run.publishedBefore ≤ before.length ∧
        burst.map Attempt.exchange = DataType.musicbrainz ∧
        ∀ a ∈ burst, a.confirmed ∧ a.message = .extractionComplete e) ∧
      t.shared.disk = some m ∧ m.summary.overallStatus = .completed ∧
      (∀ dt, e.recordCounts.lookup dt.asStr = some (counts dt) ∧
        m.completedRecords (cfg.dump.fileName dt) = some (counts dt) ∧
        t.shared.progress.get dt = counts dt ∧
        lastFileComplete t.shared.log dt = some (counts dt)) ∧
      (∀ k, k ∈ e.recordCounts ↔ ∃ dt : DataType, k = dt.asStr) ∧
      m.processingPhase.recordsExtracted = (DataType.musicbrainz.map counts).sum ∧
      t.shared.progress.total = (DataType.musicbrainz.map counts).sum := by
  obtain ⟨hinv, hsourced⟩ := Service.sourced_run hwhole hkept hrun
  have hp := hinv.phase
  have hdump := hsourced.phase
  cases Service.step_move hstep with
  | finalises hphase =>
    simp only [PhaseOk, hphase] at hp
    simp only [Service.PhaseSourced, hphase] at hdump
    rw [hsuccess]
    obtain ⟨e, he⟩ := hp.2.2 hsuccess
    obtain ⟨before, burst, hlog, hsince, hbefore, -, hexchanges, hburst⟩ := he.split
    have hdone : ∀ dt : DataType, ∃ n,
        s.shared.marker.completedRecords (cfg.dump.fileName dt) = some n ∧
        s.run.recordCounts.lookup dt.asStr = some n ∧ s.shared.progress.get dt = n := fun dt =>
      he.between.counted.done hsuccess dt (hdump dt) List.not_mem_nil
    choose counts hcompleted hcounts htally using hdone
    refine ⟨e, _, counts, ⟨before, burst, hlog, hbefore, by simpa using hexchanges, fun a ha =>
      ⟨(hburst a ha).2 rfl, (hburst a ha).1⟩⟩, rfl, rfl, fun dt => ⟨?_, hcompleted dt, htally dt, ?_⟩,
      fun k => ⟨fun hk => ?_, ?_⟩, ?_, ?_⟩
    · rw [he.counts]
      exact hcounts dt
    · have hlast : lastFileComplete s.shared.log dt = some (counts dt) :=
        Service.lastFileComplete_of_completed hsourced he.between.lineage.recorded (hcompleted dt)
      exact hlast
    · rw [he.counts] at hk
      obtain ⟨dt, -, hkey⟩ := he.between.counted.keys k hk
      exact ⟨dt, hkey⟩
    · rintro ⟨dt, rfl⟩
      rw [he.counts, ← AList.lookup_isSome, hcounts]
      rfl
    · exact StateMarker.recordsExtracted_eq_sum hcompleted he.between.lineage.known
        he.between.lineage.settled
    · rw [ExtractionProgress.total_eq_sum]
      exact congrArg _ (List.map_congr_left fun dt _ => htally dt)

/-- The interrupted run finalises with one label and nothing else. -/
theorem counts_agree_when_finalised_interrupted : ∃ s t m,
    demoState (interruptedRun ++ announceRun) = some s ∧
    Service.step demoService s (.finalise true) = some t ∧ t.shared.disk = some m ∧
    m.processingPhase.recordsExtracted = t.shared.progress.total ∧
    lastFileComplete t.shared.log .labels = m.completedRecords "label.jsonl" := by
  have hfinalises : (demoState (interruptedRun ++ announceRun)).any (fun s =>
      s.run.success && (Service.step demoService s (.finalise true)).isSome) = true := by
    decide +kernel
  obtain ⟨s, hrun, hs⟩ := (Option.any_eq_true _ _).mp hfinalises
  obtain ⟨hsuccess, hsome⟩ := Bool.and_eq_true_iff.mp hs
  obtain ⟨t, hstep⟩ := Option.isSome_iff_exists.mp hsome
  have hkept : ∀ label ∈ interruptedRun ++ announceRun, ∀ dt, label ≠ .removeFile dt :=
    fun label hl => finishedRun_keeps label (List.mem_append_left _ hl)
  obtain ⟨e, m, counts, -, hdisk, -, hall, -, hphase, htotal⟩ :=
    counts_agree_when_finalised demoService demoFiles 0 _ s t demoFiles_whole hkept hrun hsuccess hstep
  exact ⟨s, t, m, hrun, hstep, hdisk, hphase.trans htotal.symm,
    (hall .labels).2.2.2.trans (hall .labels).2.1.symm⟩

end MusicbrainzIngestion
