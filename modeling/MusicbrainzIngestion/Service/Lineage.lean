import MusicbrainzIngestion.Pipeline.Frame
import MusicbrainzIngestion.Service

/-! What the publishes since a marker was fresh say about it: every file it shows as
completed was delivered whole, nothing was published before its start time, and if it
shows the version as completed then the version was announced after all of that. -/

namespace MusicbrainzIngestion
open Base

/-! ## Deliveries and announcements -/

section Deliveries

variable (cfg : ServiceConfig)

/-- Somewhere in `xs` the file was delivered whole: its records, then its completion. -/
def FileDelivered (dt : DataType) (source : Source) (n : Nat) (xs : List Attempt) : Prop :=
  ∃ ys, ys <:+: xs ∧ Pipeline.Delivered (cfg.job dt source) [] ys n

/-- Every file the marker shows as completed was delivered in `xs`. -/
def Recorded (l : Lineage) (m : StateMarker) (xs : List Attempt) : Prop :=
  ∀ dt n, m.completedRecords (cfg.dump.fileName dt) = some n →
    ∃ source, l.processed dt = some source ∧ FileDelivered cfg dt source n xs

/-- One announcement, confirmed on every exchange, after every completed file was delivered. -/
structure VersionAnnounced (l : Lineage) (m : StateMarker) (xs : List Attempt)
    (e : ExtractionCompleteMessage) : Prop where
  version : e.version = cfg.dump.version
  started : l.started = some e.startedAt
  counts : ∀ dt n, e.recordCounts.lookup dt.asStr = some n →
    m.completedRecords (cfg.dump.fileName dt) = some n
  split : ∃ before burst after, xs = before ++ (burst ++ after) ∧ Recorded cfg l m before ∧
    burst.map Attempt.exchange = DataType.musicbrainz ∧
    ∀ a ∈ burst, a.confirmed ∧ a.message = .extractionComplete e

/-- What holds of a marker and its lineage at a point of the history. -/
structure LineageOk (l : Lineage) (now : DateTime) (log : List Attempt) (m : StateMarker) :
    Prop where
  since : l.since ≤ log.length
  clock : ∀ t, l.started = some t → t ≤ now ∧ ∀ a ∈ log.drop l.since, t ≤ a.time
  fresh : l.started = none → log.drop l.since = [] ∧ ∀ f, m.progress f = none
  begun : m.processingPhase.startedAt = l.started
  pending : m.processingPhase.status = .pending ↔ l.started = none
  running : m.processingPhase.status ≠ .failed
  download : m.downloadPhase.status = .pending
  overall : m.summary.overallStatus = .completed ↔ m.processingPhase.status = .completed
  known : ∀ f, (m.progress f).isSome → ∃ dt, f = cfg.dump.fileName dt
  settled : (∃ f, m.fileStarted f) ∨ m.Tallied
  recorded : Recorded cfg l m (log.drop l.since)
  announced : m.summary.overallStatus = .completed →
    ∃ e, VersionAnnounced cfg l m (log.drop l.since) e

end Deliveries

variable {cfg : ServiceConfig} {l : Lineage} {m m' : StateMarker} {now now' : DateTime}
  {log xs ys more : List Attempt} {dt : DataType} {source : Source} {n : Nat}

theorem FileDelivered.mono (h : FileDelivered cfg dt source n xs) (hx : xs <:+: ys) :
    FileDelivered cfg dt source n ys := by
  obtain ⟨zs, hz, hd⟩ := h
  exact ⟨zs, hz.trans hx, hd⟩

theorem Recorded.mono (h : Recorded cfg l m xs) (hx : xs <:+: ys) : Recorded cfg l m ys := by
  intro dt n hc
  obtain ⟨source, hs, hd⟩ := h dt n hc
  exact ⟨source, hs, hd.mono hx⟩

theorem Recorded.agrees (h : Recorded cfg l m xs) (ha : StateMarker.Agrees m m') :
    Recorded cfg l m' xs :=
  fun dt n hc => h dt n (by rw [← ha.completed]; exact hc)

theorem VersionAnnounced.append {e : ExtractionCompleteMessage}
    (h : VersionAnnounced cfg l m xs e) (more : List Attempt) :
    VersionAnnounced cfg l m (xs ++ more) e := by
  obtain ⟨before, burst, after, hx, hrec, hexch, hall⟩ := h.split
  refine ⟨h.version, h.started, h.counts, before, burst, after ++ more, ?_, hrec, hexch, hall⟩
  rw [hx, List.append_assoc, List.append_assoc]

theorem VersionAnnounced.agrees {e : ExtractionCompleteMessage}
    (h : VersionAnnounced cfg l m xs e) (ha : StateMarker.Agrees m m') :
    VersionAnnounced cfg l m' xs e := by
  obtain ⟨before, burst, after, hx, hrec, hrest⟩ := h.split
  exact ⟨h.version, h.started, fun dt n hn => (ha.completed _).trans (h.counts dt n hn), before,
    burst, after, hx, hrec.agrees ha, hrest⟩

/-! ## Keeping the lineage -/

namespace LineageOk

theorem new (version : String) (now' now : DateTime) (log : List Attempt) :
    LineageOk cfg (.fresh log.length) now log (.new version now') where
  since := Nat.le_refl _
  clock _ ht := nomatch ht
  fresh _ := ⟨List.drop_length, fun _ => rfl⟩
  begun := rfl
  pending := ⟨fun _ => rfl, fun _ => rfl⟩
  running h := nomatch h
  download := rfl
  overall := iff_of_false (fun h => nomatch h) (fun h => nomatch h)
  known _ hf := nomatch hf
  settled := Or.inr rfl
  recorded _ _ hc := nomatch hc
  announced h := nomatch h

theorem drop_append (h : LineageOk cfg l now log m) (more : List Attempt) :
    (log ++ more).drop l.since = log.drop l.since ++ more :=
  List.drop_append_of_le_length h.since

/-- The clock moves on and more is published. -/
theorem grow (h : LineageOk cfg l now log m) (hnow : now ≤ now')
    (htime : ∀ a ∈ more, now ≤ a.time) (hs : l.started.isSome = true ∨ more = []) :
    LineageOk cfg l now' (log ++ more) m where
  since := le_trans h.since (by simp)
  clock t ht := by
    obtain ⟨hle, hall⟩ := h.clock t ht
    refine ⟨le_trans hle hnow, fun a ha => ?_⟩
    rw [h.drop_append] at ha
    rcases List.mem_append.mp ha with ha | ha
    · exact hall a ha
    · exact le_trans hle (htime a ha)
  fresh hf := by
    have hmore : more = [] := hs.resolve_left (by simp [hf])
    subst hmore
    rw [List.append_nil]
    exact h.fresh hf
  begun := h.begun
  pending := h.pending
  running := h.running
  download := h.download
  overall := h.overall
  known := h.known
  settled := h.settled
  recorded := by
    rw [h.drop_append]
    exact h.recorded.mono (List.prefix_append _ _).isInfix
  announced hc := by
    obtain ⟨e, he⟩ := h.announced hc
    rw [h.drop_append]
    exact ⟨e, he.append more⟩

theorem tick (h : LineageOk cfg l now log m) (hnow : now ≤ now') : LineageOk cfg l now' log m := by
  have hgrown : LineageOk cfg l now' (log ++ []) m := h.grow hnow (by simp) (Or.inr rfl)
  rwa [List.append_nil] at hgrown

/-- A marker that agrees carries the same lineage. -/
theorem agrees (h : LineageOk cfg l now log m) (ha : StateMarker.Agrees m m')
    (hsettled : (∃ f, m'.fileStarted f) ∨ m'.Tallied) : LineageOk cfg l now log m' where
  since := h.since
  clock := h.clock
  fresh hf := ⟨(h.fresh hf).1, fun f => by
    have hk := ha.known f
    rw [(h.fresh hf).2 f] at hk
    simpa using hk⟩
  begun := ha.started.trans h.begun
  pending := by rw [ha.processing]; exact h.pending
  running := by rw [ha.processing]; exact h.running
  download := ha.download.trans h.download
  overall := by rw [ha.overall, ha.processing]; exact h.overall
  known f hf := h.known f (by rw [← ha.known f]; exact hf)
  settled := hsettled
  recorded := h.recorded.agrees ha
  announced hc := by
    obtain ⟨e, he⟩ := h.announced (by rw [← ha.overall]; exact hc)
    exact ⟨e, he.agrees ha⟩

theorem stamped (h : LineageOk cfg l now log m) (time : DateTime) :
    LineageOk cfg l now log (m.stamped time) :=
  h.agrees (StateMarker.agrees_stamped time) h.settled

/-- A file that was delivered is marked as processed. -/
theorem mark (h : LineageOk cfg l now log m)
    (hm : StateMarker.Marked (cfg.dump.fileName dt) n m m')
    (hd : FileDelivered cfg dt source n (log.drop l.since)) (hs : l.started.isSome = true)
    (hc : m.summary.overallStatus ≠ .completed) :
    LineageOk cfg (Service.Lineage.mark l dt source) now log m' where
  since := h.since
  clock := h.clock
  fresh hf := by
    have hnone : l.started = none := hf
    rw [hnone] at hs
    cases hs
  begun := hm.started.trans h.begun
  pending := by rw [hm.processing]; exact h.pending
  running := by rw [hm.processing]; exact h.running
  download := hm.download.trans h.download
  overall := by rw [hm.overall, hm.processing]; exact h.overall
  known f hf := h.known f (by rw [← hm.known f]; exact hf)
  settled := Or.inr hm.tallied
  recorded dt' n' hn := by
    rw [hm.completed] at hn
    by_cases hdt : dt' = dt
    · subst hdt
      rw [if_pos rfl] at hn
      cases hn
      exact ⟨source, if_pos rfl, hd⟩
    · rw [if_neg (fun h => hdt (cfg.dump.fileName_injective h))] at hn
      obtain ⟨source', hs', hd'⟩ := h.recorded dt' n' hn
      exact ⟨source', by rw [← hs']; exact if_neg hdt, hd'⟩
  announced hc' := absurd (hm.overall.symm.trans hc') hc

/-- Processing is started on a marker that is fresh. -/
theorem startProcessing (h : LineageOk cfg l now log m) (hf : l.started = none) (count : Nat) :
    LineageOk cfg { l with started := some now } now log (m.startProcessing count now) where
  since := h.since
  clock t ht := by
    cases ht
    refine ⟨Nat.le_refl _, fun a ha => ?_⟩
    have hnone : a ∈ log.drop l.since := ha
    rw [(h.fresh hf).1] at hnone
    cases hnone
  fresh hn := nomatch hn
  begun := rfl
  pending := iff_of_false (fun h => nomatch h) (fun h => nomatch h)
  running h := nomatch h
  download := h.download
  overall := iff_of_false (fun h => nomatch h) (fun h => nomatch h)
  known f hk := h.known f hk
  settled := by
    refine Or.inr ?_
    have hempty : ∀ f ∈ m.processingPhase.progressByFile, f ∈ ([] : List String) := fun f hk => by
      have hsome := AList.lookup_isSome.mpr hk
      rw [show m.processingPhase.progressByFile.lookup f = none from (h.fresh hf).2 f] at hsome
      cases hsome
    exact (Table.sumBy_eq_sum _ List.nodup_nil _ hempty).symm
  recorded dt n hn := by
    rw [StateMarker.completedRecords, StateMarker.progress_startProcessing, (h.fresh hf).2] at hn
    cases hn
  announced hc := nomatch hc

/-- A file that is not marked as completed is started again. -/
theorem startFileProcessing (h : LineageOk cfg l now log m) (hs : l.started.isSome = true)
    (hn : m.completedRecords (cfg.dump.fileName dt) = none) (time : DateTime) :
    LineageOk cfg l now log (m.startFileProcessing (cfg.dump.fileName dt) time) where
  since := h.since
  clock := h.clock
  fresh hf := by
    rw [hf] at hs
    cases hs
  begun := (StateMarker.processing_startFileProcessing time).2.trans h.begun
  pending := by rw [(StateMarker.processing_startFileProcessing time).1]; exact h.pending
  running := by rw [(StateMarker.processing_startFileProcessing time).1]; exact h.running
  download := by rw [(StateMarker.overall_startFileProcessing time).2]; exact h.download
  overall := by
    rw [(StateMarker.processing_startFileProcessing time).1,
      (StateMarker.overall_startFileProcessing time).1]
    exact h.overall
  known f hk := by
    rw [StateMarker.progress_startFileProcessing] at hk
    split at hk
    · next heq => exact ⟨dt, heq⟩
    · exact h.known f hk
  settled := Or.inl ⟨_, StateMarker.fileStarted_startFileProcessing time⟩
  recorded dt' n hc := h.recorded dt' n (by
    rw [StateMarker.completedRecords_startFileProcessing time hn] at hc
    exact hc)
  announced hc := by
    rw [(StateMarker.overall_startFileProcessing time).1] at hc
    obtain ⟨e, hv, hs, hcounts, before, burst, after, hx, hrec, hall⟩ := h.announced hc
    have hsame := StateMarker.completedRecords_startFileProcessing time hn
    exact ⟨e, hv, hs, fun dt' n hn' => (hsame _).trans (hcounts dt' n hn'), before, burst, after, hx,
      fun dt' n hc' => hrec dt' n ((hsame _).symm.trans hc'), hall⟩

/-- The version was announced, and the marker says so. -/
theorem complete (h : LineageOk cfg l now log m) {e : ExtractionCompleteMessage}
    (he : VersionAnnounced cfg l m (log.drop l.since) e) (time : DateTime) :
    LineageOk cfg l now log (m.completeProcessing time).completeExtraction where
  since := h.since
  clock := h.clock
  fresh hf := h.fresh hf
  begun := h.begun
  pending := by
    have hs : l.started ≠ none := by rw [he.started]; exact Option.some_ne_none _
    exact iff_of_false (fun h => nomatch h) hs
  running h := nomatch h
  download := h.download
  overall := iff_of_true rfl rfl
  known f hk := h.known f hk
  settled := h.settled
  recorded := h.recorded
  announced _ := by
    obtain ⟨before, burst, after, hx, hrec, hall⟩ := he.split
    exact ⟨e, he.version, he.started, he.counts, before, burst, after, hx, hrec, hall⟩

end LineageOk

end MusicbrainzIngestion
