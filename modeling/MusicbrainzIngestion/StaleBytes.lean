import MusicbrainzIngestion.Service.Carried
import MusicbrainzIngestion.VersionCompletion

/-! Processed bytes and the bytes on disk. The marker has fields for the checksum of the
bytes on disk and of the bytes a file was processed from, but nothing on the path of a run
sets them, so a completed file is passed over whatever its bytes are by then. -/

namespace MusicbrainzIngestion
open Base

namespace Service

section StaleBytes

variable (cfg : ServiceConfig)

/-- Every file the marker shows as completed was processed from the bytes at its path. -/
def Current (files : Files) (l : Lineage) (m : StateMarker) : Prop :=
  ∀ dt bytes source, (m.completedRecords (cfg.dump.fileName dt)).isSome = true →
    files (cfg.dump.path dt) = some bytes → l.processed dt = some source →
    source.bytes = some bytes

/-- A run that is not forced and finds a marker finds, of the files that are completed on it, the
bytes their status was computed from. -/
def FindsCurrent (s : Service) : Label → Prop
  | .decide readable => s.run.force = false → readable = true →
    ∀ m, s.shared.disk = some m → Current cfg s.files s.diskLineage m
  | _ => True

/-- The step leaves out a file because of its completed status: the decision to skip the
version, or the turn of the loop that passes over the file. -/
def PassesOver (s : Service) (label : Label) (dt : DataType) : Prop :=
  match s.phase, label with
  | .deciding, .decide readable =>
    (s.loadMarker cfg readable).shared.marker.shouldProcess = .skip ∧
      ((s.loadMarker cfg readable).shared.marker.completedRecords
        (cfg.dump.fileName dt)).isSome = true
  | .looping (dt' :: _), .nextFile _ => dt' = dt ∧ s.shutdown = false ∧
    (s.shared.marker.completedRecords (cfg.dump.fileName dt)).isSome = true
  | _, _ => False

/-- The step passes over a file whose bytes are not those it was processed from. -/
def SkipsStale (s : Service) (label : Label) (t : Service) (dt : DataType) : Prop :=
  PassesOver cfg s label dt ∧ ∃ bytes source, t.files (cfg.dump.path dt) = some bytes ∧
    t.run.lineage.processed dt = some source ∧ source.bytes ≠ some bytes

/-- A decision finds the saved marker and is not forced to ignore it. -/
def LoadsMarker (s : Service) : Label → Prop
  | .decide readable => s.run.force = false ∧ readable = true ∧ s.shared.disk ≠ none
  | _ => True

end StaleBytes

variable {cfg : ServiceConfig} {s t : Service} {label : Label} {dt : DataType}

theorem carriable_current : Carriable cfg (Current cfg) where
  agrees h hm hl dt bytes source hc hb hs :=
    h dt bytes source (by rw [← hm]; exact hc) hb (by rw [← hl]; exact hs)
  removed h hr dt bytes source hc hb hs := h dt bytes source hc (hr _ _ hb) hs
  mark h hf hm dt' bytes source' hc hb hs := by
    rw [hm] at hc
    unfold Lineage.mark at hs
    dsimp only at hs
    split at hs
    · next heq =>
      cases hs
      exact hf bytes (by rw [← heq]; exact hb)
    · next hne =>
      rw [if_neg (fun heq => hne (cfg.dump.fileName_injective heq))] at hc
      exact h dt' bytes source' hc hb hs

theorem carries_current (h : FindsCurrent cfg s label) : Carries cfg False (Current cfg) s label := by
  cases label with
  | download fetched fault => exact fun hD => hD.elim
  | decide readable =>
    exact ⟨fun _ _ _ _ hc => (nomatch hc), fun hforce hreadable m hm => .inr (h hforce hreadable m hm)⟩
  | _ => trivial

theorem carriable_completed (dt : DataType) : Carriable cfg fun _ _ m =>
    (m.completedRecords (cfg.dump.fileName dt)).isSome = true where
  agrees h hm _ := by
    rw [hm]
    exact h
  removed h _ := h
  mark h _ hm := by
    rw [hm]
    split
    · rfl
    · exact h

theorem carries_completed (h : LoadsMarker s label) (dt : DataType) :
    Carries cfg True (fun _ _ m => (m.completedRecords (cfg.dump.fileName dt)).isSome = true) s
      label := by
  cases label with
  | download => exact fun _ _ _ hm => hm
  | decide readable =>
    obtain ⟨hforce, hreadable, hdisk⟩ := h
    refine ⟨?_, fun _ _ _ _ => .inl trivial⟩
    rintro (hf | hr | hd)
    · rw [hforce] at hf
      cases hf
    · rw [hreadable] at hr
      cases hr
    · exact absurd hd hdisk
  | _ => trivial

theorem phase_of_decide {readable : Bool} (hstep : Service.step cfg s (.decide readable) = some t) :
    s.phase = .deciding := by
  cases step_move hstep with
  | skips hp | reprocesses hp | continues hp => exact hp

/-- With a current marker nothing stale is passed over. -/
theorem passesOver_current (hc : Carries cfg False (Current cfg) s label)
    (h : Carried cfg False (Current cfg) s) (hstep : Service.step cfg s label = some t) :
    ¬ SkipsStale cfg s label t dt := by
  rintro ⟨hpass, bytes, source, hb, hs, hne⟩
  have hp := h.phase
  unfold CarriedPhase at hp
  unfold PassesOver at hpass
  split at hpass
  · next readable hphase =>
    obtain ⟨hskip, hcompleted⟩ := hpass
    have hloaded := carried_loadMarker hc h
    cases step_move hstep with
    | skips =>
      refine hne (hloaded dt bytes source hcompleted ?_ hs)
      rw [← (loadMarker_outside cfg s readable).1]
      exact hb
    | reprocesses _ hd | continues _ hd =>
      rw [hskip] at hd
      cases hd
  · next dt' rest saved hphase =>
    obtain ⟨rfl, hrunning, hcompleted⟩ := hpass
    rw [hphase] at hp
    cases step_move hstep with
    | skipsFile => exact hne (hp dt' bytes source hcompleted hb hs)
    | loopEnds hempty | loopEndsFailed hempty =>
      rw [hphase] at hempty
      cases hempty
    | interrupted _ hshutdown =>
      rw [hrunning] at hshutdown
      cases hshutdown
    | startsFile hnext _ hnone =>
      rw [hphase] at hnext
      cases hnext
      rw [hnone] at hcompleted
      cases hcompleted
  · exact hpass

end Service

/-- As long as each run that is not forced and finds the marker finds the bytes that the completed
files were processed from, no step passes over a file whose bytes differ from them. From any state
reached, on the other hand, a file that the saved marker shows as completed is never parsed again
while no run is forced and the marker is found, whatever its bytes are. -/
theorem stale_skipped_unless_restored (cfg : ServiceConfig) :
    (∀ files now labels,
      (Service.machine cfg).Along (Service.FindsCurrent cfg) (Service.initial cfg files now) labels →
      (Service.machine cfg).Along
        (fun s label => ∀ t dt, Service.step cfg s label = some t →
          ¬ Service.SkipsStale cfg s label t dt) (Service.initial cfg files now) labels) ∧
    ∀ s dt m labels t, (Service.machine cfg).Reachable s → s.phase = .idle →
      s.shared.disk = some m → m.fileCompleted (cfg.dump.fileName dt) = true →
      (Service.machine cfg).Along Service.LoadsMarker s labels →
      (Service.machine cfg).run s labels = some t →
      ∀ rest source tasks, t.phase ≠ .processing dt rest source tasks := by
  refine ⟨fun files now labels hcurrent => ?_,
    fun s dt m labels t hreach hidle hdisk hcompleted hloads hrun rest source tasks hphase => ?_⟩
  · have hinitial : Service.Carried cfg False (Service.Current cfg)
        (Service.initial cfg files now) := ⟨fun hD => hD.elim, trivial⟩
    exact (Service.carried_along Service.carriable_current
      (hcurrent.imp fun _ _ => Service.carries_current) (Service.inv_initial files now) hinitial).imp
        fun s label hs t dt hstep => Service.passesOver_current hs.2 hs.1.2 hstep
  · have hstart : Service.Carried cfg True
        (fun _ _ m => (m.completedRecords (cfg.dump.fileName dt)).isSome = true) s := by
      refine ⟨fun _ m' hm' => ?_, ?_⟩
      · rw [hdisk] at hm'
        cases hm'
        rw [← StateMarker.fileCompleted_eq]
        exact hcompleted
      · unfold Service.CarriedPhase
        rw [hidle]
        trivial
    have hp := (Service.carried_run (Service.carriable_completed dt)
      (hloads.imp fun _ _ h => Service.carries_completed h dt) (Service.inv_reachable hreach) hstart
      hrun).2.phase
    unfold Service.CarriedPhase at hp
    rw [hphase] at hp
    obtain ⟨s₁, l, hfile, hdone, -⟩ := hp
    rw [hfile.pending] at hdone
    cases hdone

/-! ## The label file comes back with another label -/

section OneVersion

def otherLabel : List UInt8 := "\x7b\"id\":\"l2\"\x7d".toByteArray.data.toList

/-- After the version is completed the label file is removed, and a run that is not forced
downloads other bytes for it. -/
def restoredRun : List Service.Label := finishedRun ++ [
  .report, .removeFile .labels, .begin false, .checkShutdown,
  .download (fun dt => if dt = .labels then some otherLabel else none) none, .checkShutdown,
  .discover (.ok DataType.musicbrainz)]

/-- The run reports success without publishing anything. -/
theorem stale_label_skipped : ∃ s t, demoState restoredRun = some s ∧ s.run.force = false ∧
    Service.step demoService s (.decide true) = some t ∧
    Service.SkipsStale demoService s (.decide true) t .labels ∧
    t.outcome = some (.ok true) ∧ t.shared.log.length = s.run.publishedBefore := by
  have hskips : (demoState restoredRun).any (fun s => !s.run.force &&
      decide ((s.loadMarker demoService true).shared.marker.shouldProcess = .skip) &&
      ((s.loadMarker demoService true).shared.marker.completedRecords "label.jsonl").isSome &&
      (Service.step demoService s (.decide true)).any fun t =>
        decide (t.files (demoDump.path .labels) = some otherLabel) &&
        (t.run.lineage.processed .labels).any (fun source => decide (source.bytes ≠ some otherLabel)) &&
        t.outcome.any (fun r => decide (r.toOption = some true)) && decide (t.shared.log.length = s.run.publishedBefore)) = true := by
    decide +kernel
  obtain ⟨s, hrun, hs⟩ := (Option.any_eq_true _ _).mp hskips
  simp only [Bool.and_eq_true, Bool.not_eq_true', decide_eq_true_eq, Option.any_eq_true] at hs
  obtain ⟨⟨⟨hforce, hskip⟩, hcompleted⟩, t, hstep, ⟨⟨hbytes, source, hsource, hne⟩,
    outcome, houtcome, hsuccess⟩, hlog⟩ := hs
  refine ⟨s, t, hrun, hforce, hstep, ⟨?_, otherLabel, source, hbytes, hsource, hne⟩, ?_, hlog⟩
  · unfold Service.PassesOver
    rw [Service.phase_of_decide hstep]
    exact ⟨hskip, hcompleted⟩
  · cases outcome with
    | ok success => rw [houtcome, Option.some.inj hsuccess]
    | error e => cases hsuccess

/-- The files on disk are those the completed ones were processed from. -/
def findsCurrent (s : Service) : Service.Label → Bool
  | .decide _ => s.shared.disk.all fun m => DataType.musicbrainz.all fun dt =>
    (m.completedRecords (demoService.dump.fileName dt)).isNone ||
      (s.diskLineage.processed dt).all fun source =>
        decide (source.bytes = s.files (demoService.dump.path dt))
  | _ => true

theorem findsCurrent_sound {s : Service} {label : Service.Label} (h : findsCurrent s label = true) :
    Service.FindsCurrent demoService s label := by
  cases label with
  | decide readable =>
    intro _ _ m hm dt bytes source hcompleted hbytes hsource
    have hall := List.all_eq_true.mp ((Option.all_eq_true _ _).mp h m hm) dt (DataType.mem_musicbrainz dt)
    rcases Bool.or_eq_true_iff.mp hall with hnone | hsame
    · rw [Option.isNone_iff_eq_none.mp hnone] at hcompleted
      cases hcompleted
    · exact (of_decide_eq_true ((Option.all_eq_true _ _).mp hsame source hsource)).trans hbytes
  | _ => trivial

/-- In the interrupted run nothing is downloaded again and nothing stale is passed over, and
the completed labels are not parsed again by a run that loads the marker. -/
theorem stale_skipped_unless_restored_interrupted :
    (Service.machine demoService).Along (fun s label => ∀ t dt,
      Service.step demoService s label = some t → ¬ Service.SkipsStale demoService s label t dt)
      (Service.initial demoService demoFiles 0) finishedRun ∧
    ∃ s t, demoState (finishedRun ++ [.report]) = some s ∧
      (Service.machine demoService).run s [.tick 1, .begin false] = some t ∧
      ∀ rest source tasks, t.phase ≠ .processing .labels rest source tasks := by
  obtain ⟨hhonest, hkept⟩ := stale_skipped_unless_restored demoService
  refine ⟨hhonest demoFiles 0 finishedRun ?_, ?_⟩
  · have hchecks : (Service.machine demoService).checks findsCurrent
        (Service.initial demoService demoFiles 0) finishedRun = true := by decide +kernel
    exact (Machine.along_of_checks _ hchecks).imp fun s label h => findsCurrent_sound h
  · have hcompletes : (demoState (finishedRun ++ [.report])).any (fun s =>
        (s.begin false).isSome && s.shared.disk.any (fun m => m.fileCompleted "label.jsonl") &&
        ((Service.machine demoService).run s [.tick 1, .begin false]).isSome) = true := by
      decide +kernel
    obtain ⟨s, hrun, hs⟩ := (Option.any_eq_true _ _).mp hcompletes
    simp only [Bool.and_eq_true, Option.any_eq_true] at hs
    obtain ⟨⟨hbegin, m, hdisk, hcompleted⟩, hsome⟩ := hs
    obtain ⟨t, ht⟩ := Option.isSome_iff_exists.mp hsome
    have hidle : s.phase = .idle := by
      unfold Service.begin at hbegin
      split at hbegin
      · next hidle => exact hidle
      · cases hbegin
    exact ⟨s, t, hrun, ht, hkept s .labels m [.tick 1, .begin false] t
      ⟨_, _, ⟨demoFiles, 0, rfl⟩, fun _ _ => trivial, hrun⟩ hidle hdisk hcompleted
      ⟨trivial, fun _ _ => ⟨trivial, fun _ _ => trivial⟩⟩ ht⟩

end OneVersion

end MusicbrainzIngestion
