import MusicbrainzIngestion.Base.TaggedSchema
import MusicbrainzIngestion.Service.Stream
import MusicbrainzIngestion.WireFormat

/-! The contract with the consumers: what every published frame looks like, and what the
frames of one extraction have in common. -/

namespace MusicbrainzIngestion
open Base Base.Json

/-! ## The event schema -/

def dataEvent : Variant where
  tag := "data"
  properties := [("dump_version", .text 1), ("id", .text 1), ("sha256", .text 0)]
  required := ["id", "sha256"]
  additional := true

def fileCompleteEvent : Variant where
  tag := "file_complete"
  properties := [
    ("data_type", .text 0), ("file", .text 1), ("timestamp", .dateTime),
    ("total_processed", .natural)]
  required := ["data_type", "timestamp", "total_processed", "file"]
  additional := false

def extractionCompleteEvent : Variant where
  tag := "extraction_complete"
  properties := [
    ("record_counts", .naturals), ("started_at", .dateTime), ("timestamp", .dateTime),
    ("version", .text 1)]
  required := ["version", "timestamp", "started_at", "record_counts"]
  additional := false

def eventSchema : List Variant := [dataEvent, fileCompleteEvent, extractionCompleteEvent]

/-- The schema accepts this frame. -/
def Conforms (isDateTime : String → Bool) (frame : Entries) : Prop :=
  oneOf isDateTime "type" eventSchema (.object frame) = true

/-- What the schema asks of a message beyond its form: the texts that may not be empty. -/
def Message.Named : Message → Prop
  | .data m => m.id ≠ "" ∧ m.dumpVersion ≠ ""
  | .fileComplete m => m.file ≠ ""
  | .extractionComplete m => m.version ≠ ""

instance : DecidablePred Message.Named
  | .data m => inferInstanceAs (Decidable (m.id ≠ "" ∧ m.dumpVersion ≠ ""))
  | .fileComplete m => inferInstanceAs (Decidable (m.file ≠ ""))
  | .extractionComplete m => inferInstanceAs (Decidable (m.version ≠ ""))

section Frames

variable {f : TimeFormat} {isDateTime : String → Bool}

theorem one_le_length {s : String} : 1 ≤ s.length ↔ s ≠ "" := by
  rw [Nat.one_le_iff_ne_zero, ne_eq, ne_eq, not_iff_not]
  constructor
  · intro h
    rw [String.length_eq_zero_iff] at h
    exact h
  · rintro rfl
    rfl

theorem conforms_data {m : DataMessage} {data : Entries} :
    Conforms isDateTime ([
      ("type", .string "data"),
      ("id", .string m.id),
      ("sha256", .string m.sha256),
      ("dump_version", .string m.dumpVersion)] ++ data) ↔ (Message.data m).Named := by
  rw [Conforms, oneOf_iff (by decide)]
  simp [-List.all_eq_true, eventSchema, dataEvent, fileCompleteEvent, extractionCompleteEvent,
    Variant.accepts, Entries.get, Property.accepts, one_le_length, Message.Named]
  exact and_comm

theorem conforms_fileComplete (hprint : ∀ t, isDateTime (f.print t) = true)
    {m : FileCompleteMessage} :
    Conforms isDateTime [
      ("type", .string "file_complete"),
      ("data_type", .string m.dataType),
      ("timestamp", f.toValue m.timestamp),
      ("total_processed", .ofNat m.totalProcessed),
      ("file", .string m.file)] ↔ (Message.fileComplete m).Named := by
  rw [Conforms, oneOf_iff (by decide)]
  simp [-List.all_eq_true, eventSchema, dataEvent, fileCompleteEvent, extractionCompleteEvent,
    Variant.accepts, Entries.get, Property.accepts, one_le_length, Message.Named,
    TimeFormat.toValue, hprint, Value.ofNat, Value.isNatural]

theorem conforms_extractionComplete (hprint : ∀ t, isDateTime (f.print t) = true)
    {m : ExtractionCompleteMessage} :
    Conforms isDateTime [
      ("type", .string "extraction_complete"),
      ("version", .string m.version),
      ("timestamp", f.toValue m.timestamp),
      ("started_at", f.toValue m.startedAt),
      ("record_counts", .ofTable Value.ofNat m.recordCounts)] ↔
      (Message.extractionComplete m).Named := by
  rw [Conforms, oneOf_iff (by decide)]
  simp [-List.all_eq_true, eventSchema, dataEvent, fileCompleteEvent, extractionCompleteEvent,
    Variant.accepts, Entries.get, Property.accepts, one_le_length, Message.Named,
    TimeFormat.toValue, hprint, Value.ofTable]
  exact fun _ => List.all_eq_true.mpr fun _ _ => rfl

/-- A message that can be written conforms exactly when the texts it names things with are
there. -/
theorem conforms_iff (hprint : ∀ t, isDateTime (f.print t) = true) {m : Message} {frame : Entries}
    (h : m.toEntries f = some frame) : Conforms isDateTime frame ↔ m.Named := by
  cases m with
  | data m =>
    obtain ⟨data, -, rfl⟩ := Option.map_eq_some_iff.mp h
    exact conforms_data
  | fileComplete m =>
    cases h
    exact conforms_fileComplete hprint
  | extractionComplete m =>
    cases h
    exact conforms_extractionComplete hprint

end Frames

/-! ## What a history of runs publishes -/

/-- Where a published message comes from: a record of a dump file, the completion of one, or the
announcement of the version. -/
inductive Published (cfg : ServiceConfig) : Attempt → Prop
  | record {a : Attempt} {dt : DataType} {source : Source} {m : DataMessage}
    (he : a.exchange = dt) (hm : a.message = .data m) (hr : m ∈ (cfg.job dt source).records) :
    Published cfg a
  | fileDone {a : Attempt} {dt : DataType} {n : Nat} (he : a.exchange = dt)
    (hm : a.message = .fileComplete {
      dataType := dt.asStr
      timestamp := a.time
      totalProcessed := n
      file := cfg.dump.fileName dt }) : Published cfg a
  | version {a : Attempt} {e : ExtractionCompleteMessage} (hm : a.message = .extractionComplete e)
    (hv : e.version = cfg.dump.version) : Published cfg a

theorem published_of_fileStream {cfg : ServiceConfig} {dt : DataType} {source : Source}
    {attempts : List Attempt} (h : FileStream (cfg.job dt source) attempts) :
    ∀ a ∈ attempts, Published cfg a := by
  obtain ⟨sent, data, hdata, hattempts⟩ := h
  have hrecords : ∀ a ∈ data, Published cfg a := by
    intro a ha
    have hmem : a.message ∈ sent.map Message.data := by
      rw [← hdata.messages]
      exact List.mem_map_of_mem ha
    obtain ⟨m, hm, hmessage⟩ := List.mem_map.mp hmem
    exact .record (hdata.exchange a ha) hmessage.symm (hdata.ordered.subset hm)
  rcases hattempts with rfl | ⟨last, rfl, hlast⟩
  · exact hrecords
  · intro a ha
    rcases List.mem_append.mp ha with ha | ha
    · exact hrecords a ha
    · rw [List.mem_singleton.mp ha]
      obtain ⟨n, -, hmessage⟩ := hlast.message
      exact .fileDone hlast.exchange hmessage

theorem published_of_runStream {cfg : ServiceConfig} {s : Service} {before attempts : List Attempt}
    (h : RunStream cfg s before attempts) : ∀ a ∈ attempts, Published cfg a := by
  obtain ⟨files, burst, rfl, -, -, hfiles, hburst⟩ := h
  intro a ha
  rcases List.mem_append.mp ha with ha | ha
  · obtain ⟨file, hfile, ha⟩ := List.mem_flatMap.mp ha
    exact published_of_fileStream (hfiles.streams file hfile) a ha
  · rcases hburst with rfl | ⟨e, hversion⟩
    · cases ha
    · exact .version (hversion.message a ha) hversion.version

theorem published_of_earlierRuns {cfg : ServiceConfig} {s : Service} {attempts : List Attempt}
    (h : EarlierRuns cfg s attempts) : ∀ a ∈ attempts, Published cfg a := by
  induction h with
  | nil => simp
  | run _ _ _ _ hrun ih =>
    intro a ha
    rcases List.mem_append.mp ha with ha | ha
    · exact ih a ha
    · exact published_of_runStream hrun a ha

/-- Everything published by a history of runs has such an origin. -/
theorem published_of_reachable {cfg : ServiceConfig} {s : Service}
    (h : (Service.machine cfg).Reachable s) : ∀ a ∈ s.shared.log, Published cfg a := by
  obtain ⟨before, current, ⟨hearlier, -⟩, hlog, hin⟩ := Service.streamOk_of_reachable h
  intro a ha
  rw [hlog] at ha
  rcases List.mem_append.mp ha with ha | ha
  · exact published_of_earlierRuns hearlier a ha
  · exact published_of_runStream (Service.streamIn_runStream hlog hin) a ha

/-- A published record was read from some line. -/
theorem mem_publishedRecords {env : Externals} {path : String} {v : Value}
    (h : v ∈ JsonlParser.publishedRecords env path none) : ∃ line, env.fromStr line = .ok v := by
  unfold JsonlParser.publishedRecords at h
  split at h
  · cases h
  · obtain ⟨line, -, hline⟩ := List.mem_filterMap.mp h
    unfold JsonlParser.lineRecord at hline
    split at hline
    · cases hline
    · cases hread : env.fromStr (Text.trim line) with
      | error e =>
        rw [hread] at hline
        cases hline
      | ok record =>
        rw [hread] at hline
        cases hline
        exact ⟨_, hread⟩

/-- A record is sent as an object, which can be flattened into its frame. -/
theorem frame_of_record {cfg : ServiceConfig} {f : TimeFormat} {dt : DataType} {source : Source}
    {m : DataMessage} (hreader : ∀ line v, cfg.externals.fromStr line = .ok v → v.Canonical)
    (hm : m ∈ (cfg.job dt source).records) : ∃ frame, (Message.data m).toEntries f = some frame := by
  rw [Job.records, ServiceConfig.job, Job.sequential_ofFile, JsonlParser.parseMbJsonlFile_sent] at hm
  obtain ⟨v, hv, rfl⟩ := List.mem_map.mp hm
  have hcanonical : v.Canonical := by
    obtain ⟨line, hline⟩ := mem_publishedRecords hv
    exact hreader line v hline
  obtain ⟨es, hdata, -⟩ := JsonlParser.recordMessage_flattens _ dt _ _ hcanonical
  exact ⟨_, Message.toEntries_data hdata⟩

/-- Every frame that any history of runs publishes conforms to the event schema, but for the record
whose id the dump gives as the empty text. A record and the end of a file go to the exchange of
the file they are about, and the records carry the very version that the announcements do. -/
theorem published_frames_conform (cfg : ServiceConfig) (f : TimeFormat)
    (isDateTime : String → Bool) (hprint : ∀ t, isDateTime (f.print t) = true)
    (hreader : ∀ line v, cfg.externals.fromStr line = .ok v → v.Canonical)
    (hversion : cfg.dump.version ≠ "") (hfile : ∀ dt, cfg.dump.fileName dt ≠ "")
    (s : Service) (h : (Service.machine cfg).Reachable s) (a : Attempt) (ha : a ∈ s.shared.log) :
    ∃ frame, a.message.toEntries f = some frame ∧
      (Conforms isDateTime frame ↔ ∀ m, a.message = .data m → m.id ≠ "") ∧
      (∀ m, a.message = .data m → m.dumpVersion = cfg.dump.version ∧
        ∃ source, m ∈ (cfg.job a.exchange source).records) ∧
      (∀ m, a.message = .fileComplete m →
        m.dataType = a.exchange.asStr ∧ m.file = cfg.dump.fileName a.exchange) ∧
      ∀ e, a.message = .extractionComplete e → e.version = cfg.dump.version := by
  cases published_of_reachable h a ha with
  | @record dt source m he hm hr =>
    obtain ⟨frame, hframe⟩ := frame_of_record (f := f) hreader hr
    have hdump : m.dumpVersion = cfg.dump.version := Job.dumpVersion_records cfg dt source m hr
    rw [hm]
    refine ⟨frame, hframe, ?_, ?_, by simp, by simp⟩
    · rw [conforms_iff hprint hframe, Message.Named, hdump]
      simp [hversion]
    · rintro _ ⟨⟩
      exact ⟨hdump, source, he ▸ hr⟩
  | @fileDone dt n he hm =>
    rw [hm]
    refine ⟨_, rfl, ?_, by simp, ?_, by simp⟩
    · rw [conforms_fileComplete hprint, Message.Named]
      simp [hfile]
    · rintro _ ⟨⟩
      rw [he]
      exact ⟨rfl, rfl⟩
  | @version e hm hv =>
    rw [hm]
    refine ⟨_, rfl, ?_, by simp, by simp, ?_⟩
    · rw [conforms_extractionComplete hprint, Message.Named, hv]
      simp [hversion]
    · rintro _ ⟨⟩
      exact hv

theorem labelExternals_reader (line : String) (v : Value)
    (h : labelExternals.fromStr line = .ok v) : v.Canonical := by
  have hline : labelExternals.fromStr line = if line = labelLine then .ok labelRecord
    else .error "expected value at line 1 column 1" := rfl
  rw [hline] at h
  split at h
  · cases h
    exact Value.canonical_json (by simp [Value.Canonical.string])
  · cases h

/-- The one label of an interrupted version, on the wire. -/
theorem published_frames_conform_label : ∃ (f : TimeFormat) (isDateTime : String → Bool) (s : Service)
    (a : Attempt) (frame : Entries), f.print 0 = "1970-01-01T00:00:00Z" ∧
    isDateTime "1970-01-01T00:00:00Z" = true ∧ demoState finishedRun = some s ∧ a ∈ s.shared.log ∧
    a.isData = true ∧ a.message.toEntries f = some frame ∧ Conforms isDateTime frame := by
  obtain ⟨times, htime, -⟩ := exists_embedding_text (a := (0 : DateTime)) (b := 60)
    (s := "1970-01-01T00:00:00Z") (t := "1970-01-01T00:00:00.000000060Z") (by decide) (by decide)
  let f : TimeFormat := ⟨times, Function.partialInv times, Function.partialInv_left times.injective⟩
  let isDateTime : String → Bool := fun s => @decide (∃ t, f.print t = s) (Classical.propDecidable _)
  have hprint : ∀ t, isDateTime (f.print t) = true := fun t => @decide_eq_true _ (_) ⟨t, rfl⟩
  have hnamed : (demoState finishedRun).any (fun s =>
      s.shared.log.any fun a => a.isData && decide a.message.Named) = true := by decide +kernel
  obtain ⟨s, hs, hany⟩ := (Option.any_eq_true _ _).mp hnamed
  obtain ⟨a, ha, hrecord⟩ := List.any_eq_true.mp hany
  obtain ⟨hdata, hid⟩ := Bool.and_eq_true_iff.mp hrecord
  obtain ⟨frame, hframe, hconforms, -⟩ := published_frames_conform demoService f isDateTime hprint
    labelExternals_reader (by decide) (fun dt => by cases dt <;> decide) s
    ⟨_, _, ⟨demoFiles, 0, rfl⟩, fun _ _ => trivial, hs⟩ a ha
  refine ⟨f, isDateTime, s, a, frame, htime, htime ▸ hprint 0, hs, ha, hdata, hframe, hconforms.mpr ?_⟩
  intro m hm
  rw [hm] at hid
  exact (of_decide_eq_true hid).1

end MusicbrainzIngestion
