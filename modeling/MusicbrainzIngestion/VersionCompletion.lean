import MusicbrainzIngestion.Service.Sources

/-! Version completion is crash-safe: a marker that makes a later run skip the version
was only ever saved after all of the dump was confirmed, and then its announcement. -/

namespace MusicbrainzIngestion
open Base

theorem Job.dumpVersion_records (cfg : ServiceConfig) (dt : DataType) (source : Source) :
    ∀ r ∈ (cfg.job dt source).records, r.dumpVersion = cfg.dump.version := by
  intro r hr
  rw [Job.records, ServiceConfig.job, Job.sequential_ofFile, JsonlParser.parseMbJsonlFile_sent] at hr
  obtain ⟨v, -, rfl⟩ := List.mem_map.mp hr
  exact JsonlParser.recordMessage_dumpVersion _ _ _ _ _

/-- For every sequence of runs over one version whose dump files stay, forced or not, with any
order of the files, shutdowns, failures, crashes and losses of the marker: whenever the marker
on disk makes a run skip, then since its lineage began fresh all records of all four files were
confirmed, each file's completion after its records, and then the version on every exchange. And
no run publishes a record of a file that the marker it loaded shows as completed. -/
theorem version_completion_crash_safe (cfg : ServiceConfig) (files : Files) (now : DateTime)
    (labels : List Service.Label) (s : Service)
    (hwhole : ∀ dt, (files (cfg.dump.path dt)).isSome = true)
    (hkept : ∀ label ∈ labels, ∀ dt, label ≠ .removeFile dt)
    (hrun : (Service.machine cfg).run (Service.initial cfg files now) labels = some s) :
    (∀ m, s.shared.disk = some m → m.shouldProcess = .skip →
      ∃ map e before burst after, cfg.discogsMap files DataType.musicbrainz = .ok map ∧
        s.shared.log.drop s.diskLineage.since = before ++ (burst ++ after) ∧
        (∀ dt, (∃ n, FileDelivered cfg dt ⟨files (cfg.dump.path dt), map⟩ n before) ∧
          ∀ r ∈ (cfg.job dt ⟨files (cfg.dump.path dt), map⟩).records,
            r.dumpVersion = cfg.dump.version) ∧
        e.version = cfg.dump.version ∧ burst.map Attempt.exchange = DataType.musicbrainz ∧
        ∀ a ∈ burst, a.confirmed ∧ a.message = .extractionComplete e) ∧
    ∀ loaded, s.run.loaded = some loaded →
      ∀ a ∈ s.shared.log.drop s.run.publishedBefore, a.isData = true →
        loaded.fileCompleted (cfg.dump.fileName a.exchange) = false := by
  obtain ⟨hinv, hsourced⟩ := Service.sourced_run hwhole hkept hrun
  refine ⟨fun m hdisk hskip => ?_, fun loaded hloaded a ha hdata => ?_⟩
  · obtain ⟨hline, -⟩ := hinv.disk m hdisk
    obtain ⟨e, he⟩ := hline.announced (StateMarker.overall_of_skip hskip)
    obtain ⟨before, burst, after, hlog, hrecorded, hexchanges, hburst⟩ := he.split
    have hcounted : ∀ dt : DataType, (e.recordCounts.lookup dt.asStr).isSome = true := by
      obtain ⟨a, ha⟩ : ∃ a, a ∈ burst := List.exists_mem_of_ne_nil _ fun hn => by
        rw [hn] at hexchanges
        cases hexchanges
      have hmem : a ∈ s.shared.log := by
        refine List.mem_of_mem_drop (i := s.diskLineage.since) ?_
        rw [hlog]
        simp [ha]
      rcases hsourced.log a hmem with ⟨e', he', hall⟩ | ⟨source, -, hfile⟩
      · rw [(hburst a ha).2] at he'
        cases he'
        exact hall
      · exact absurd (hburst a ha).2 (hfile.notVersion e)
    have hdelivered : ∀ dt, ∃ source n, Service.Genuine cfg files dt source ∧
        FileDelivered cfg dt source n before := fun dt => by
      obtain ⟨n, hn⟩ := Option.isSome_iff_exists.mp (hcounted dt)
      obtain ⟨source, hprocessed, hfile⟩ := hrecorded dt n (he.counts dt n hn)
      exact ⟨source, n, hsourced.disk dt source hprocessed, hfile⟩
    obtain ⟨artists, -, ⟨-, hmap⟩, -⟩ := hdelivered .artists
    refine ⟨artists.map, e, before, burst, after, hmap, hlog, fun dt => ⟨?_,
      Job.dumpVersion_records cfg dt _⟩, he.version, hexchanges, hburst⟩
    obtain ⟨source, n, hgenuine, hfile⟩ := hdelivered dt
    have hsame : source = ⟨files (cfg.dump.path dt), artists.map⟩ := hgenuine.unique ⟨rfl, hmap⟩
    exact ⟨n, hsame ▸ hfile⟩
  · rw [StateMarker.fileCompleted_eq, hinv.unrepeated.skipped loaded hloaded a ha hdata]
    rfl

/-! ## A version of one label, interrupted after two files -/

section OneVersion
open JsonlParser

def demoDump : DumpSet where
  version := "20260101-000000"
  directory := "/musicbrainz-data/20260101-000000"
  fileName
    | .artists => "artist.jsonl"
    | .labels => "label.jsonl"
    | .releaseGroups => "release-group.jsonl"
    | .releases => "release.jsonl"
  fileName_injective := by
    intro a b h
    cases a <;> cases b <;> first | rfl | exact absurd h (by decide)

def demoService : ServiceConfig := ⟨oneByOne, labelExternals, demoDump⟩

/-- A dump with one label and nothing else. -/
def demoFiles : Files := fun path =>
  if path = demoDump.path .labels then some labelLine.toByteArray.data.toList
  else if path ∈ DataType.musicbrainz.map demoDump.path then some []
  else none

theorem demoFiles_whole (dt : DataType) : (demoFiles (demoDump.path dt)).isSome = true := by
  cases dt <;> decide +kernel

def emptyFileRun : List Pipeline.Label := [
  .parserOpen none, .parserRead none, .batcherRecv, .batcherSave true, .publisherRecv none, .join,
  .join, .join, .sendFileComplete (.confirmation true none), .markFile true]

def fileRun (dt : DataType) : List Service.Label :=
  [.nextFile true] ++ (if dt = .labels then labelRun else emptyFileRun).map .pipeline ++ [.fileDone]

def entryRun : List Service.Label := [
  .begin false, .checkShutdown, .download (fun _ => none) none, .checkShutdown,
  .discover (.ok DataType.musicbrainz), .decide true, .connect none, .declareExchange none,
  .declareExchange none, .declareExchange none, .declareExchange none, .startPhase true,
  .buildMap none]

/-- Two files, a crash, and the other two in a second run, which then announces. -/
def interruptedRun : List Service.Label :=
  entryRun ++ [DataType.artists, .labels].flatMap fileRun ++ [.tick 60, .crash] ++ entryRun ++
    [.nextFile true, .nextFile true] ++ [DataType.releaseGroups, .releases].flatMap fileRun ++
    [.nextFile true]

def announceRun : List Service.Label := [
  .announce (.confirmation true none), .announce (.confirmation true none),
  .announce (.confirmation true none), .announce (.confirmation true none), .announced]

def finishedRun : List Service.Label := interruptedRun ++ announceRun ++ [.finalise true]

def demoState (labels : List Service.Label) : Option Service :=
  (Service.machine demoService).run (Service.initial demoService demoFiles 0) labels

theorem finishedRun_keeps (label : Service.Label) (h : label ∈ finishedRun) (dt : DataType) :
    label ≠ .removeFile dt := by
  have hall : finishedRun.all (fun
      | .removeFile _ => false
      | _ => true) = true := by decide +kernel
  rintro rfl
  exact Bool.noConfusion (List.all_eq_true.mp hall _ h)

theorem version_completion_crash_safe_interrupted : ∃ s map e before,
    demoState finishedRun = some s ∧
    demoService.discogsMap demoFiles DataType.musicbrainz = .ok map ∧
    (∀ dt, ∃ n, FileDelivered demoService dt ⟨demoFiles (demoDump.path dt), map⟩ n before) ∧
    e.version = "20260101-000000" ∧
    ∃ a ∈ s.shared.log, a.exchange = .releases ∧ a.message = .extractionComplete e := by
  have hskips : (demoState finishedRun).any (fun s =>
      s.shared.disk.any fun m => decide (m.shouldProcess = .skip)) = true := by decide +kernel
  obtain ⟨s, hrun, hs⟩ := (Option.any_eq_true _ _).mp hskips
  obtain ⟨m, hdisk, hm⟩ := (Option.any_eq_true _ _).mp hs
  obtain ⟨map, e, before, burst, after, hmap, hlog, hall, hversion, hexchanges, hburst⟩ :=
    (version_completion_crash_safe demoService demoFiles 0 _ s demoFiles_whole finishedRun_keeps
      hrun).1 m hdisk (of_decide_eq_true hm)
  refine ⟨s, map, e, before, hrun, hmap, fun dt => (hall dt).1, hversion, ?_⟩
  obtain ⟨a, ha, hexchange⟩ : ∃ a ∈ burst, a.exchange = .releases := by
    rw [← List.mem_map, hexchanges]
    exact DataType.mem_musicbrainz _
  refine ⟨a, List.mem_of_mem_drop (i := s.diskLineage.since) ?_, hexchange, (hburst a ha).2⟩
  rw [hlog]
  simp [ha]

end OneVersion

end MusicbrainzIngestion
