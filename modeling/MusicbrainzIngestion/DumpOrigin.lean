import MusicbrainzIngestion.Installation.Refinement
import MusicbrainzIngestion.Service.Supplied
import MusicbrainzIngestion.VersionCompletion

/-! From the dump server to the exchanges. What holds of the service over its files holds of
the installation, downloads, kills and power losses included; and every record that was ever
published is a line of an archive whose bytes had the hash the server gave for it. -/

namespace MusicbrainzIngestion
open Base

namespace Installation

/-! ## What was received -/

/-- Checksums and a response that came in the run, where all of the response has the hash that
the checksums give for the entity's tarball. -/
structure Attested (env : DownloadExternals) (ls : List Label) (dt : DataType) (sums : String)
    (response : Text.Stream) : Prop where
  summed : .download (.sums (.ok sums)) ∈ ls
  responded : .download (.request (.ok response)) ∈ ls
  whole : response.failure = none
  hashed : (parseSha256sums sums).lookup (tarballName dt) = some (env.sha256Hex response.bytes)

/-- The extraction of the entity from such a response. -/
def Obtained (env : DownloadExternals) (ls : List Label) (dt : DataType) (bytes : List UInt8) : Prop :=
  ∃ sums response, Attested env ls dt sums response ∧ extracted env dt response = some bytes

variable {env : DownloadExternals} {cfg : ServiceConfig} {ls : List Label} {c : Installation}
  {ms : List Service.Label} {s : Service}

theorem Refines.obtained (h : Refines env cfg ls c ms s) {x : Verified}
    (hx : x ∈ c.downloader.verified) (hg : Downloader.Genuine env x) :
    Obtained env ls x.entity x.content :=
  ⟨x.sums, x.response, ⟨(h.heard.verified x hx).1, (h.heard.verified x hx).2, hg.whole, hg.hashed⟩,
    hg.extracted⟩

theorem Refines.supplies (h : Refines env cfg ls c ms s) {m : Service.Label} (hm : m ∈ ms) :
    Service.Supplies (Obtained env ls) m := by
  have hfetches := h.fetches m hm
  cases m with
  | download fetched fault =>
    intro dt bytes hb
    obtain ⟨x, hx, rfl, rfl, hg⟩ := hfetches dt bytes hb
    exact h.obtained hx hg
  | _ => trivial

/-- A service over an installation that begins with no dump file begins with none. -/
theorem files_none {d : Downloader} (hnamed : Named cfg) (hd : (Downloader.machine env).init d)
    (path : String) : files cfg d path = none := by
  obtain ⟨-, -, -, hpending, hnames⟩ := hd
  have hcontent : ∀ dt, d.content dt = none := by
    intro dt
    have hvisible : d.volume.visible (outName dt) = none := by
      rw [Volume.outcome_of_settled hpending d.volume.outcome_visible]
      exact (hnames dt).1
    exact Option.map_eq_none_iff.mpr hvisible
  rw [files_eq hnamed]
  exact Option.bind_eq_none_iff.mpr fun dt _ => hcontent dt

/-! ## The lines of a file -/

theorem mem_readable {line : String} {lines : List (Except String String)}
    (h : line ∈ JsonlParser.readable lines) : .ok line ∈ lines := by
  induction lines with
  | nil => cases h
  | cons l rest ih =>
    cases l with
    | error e => cases h
    | ok first =>
      rcases List.mem_cons.mp h with rfl | h
      · exact List.mem_cons_self
      · exact List.mem_cons_of_mem _ (ih h)

/-- The names the downloader gives are those of compressed files. -/
theorem extension_path (hnamed : Named cfg) (dt : DataType) :
    Text.extension (cfg.dump.path dt) ≠ some "jsonl" := by
  intro hext
  obtain ⟨front, hfront⟩ := Text.extension_suffix hext
  have hlast := congrArg List.getLast? hfront
  rw [DumpSet.path, hnamed dt, String.toList_append, String.toList_append] at hlast
  cases dt <;> simp [outName, entityKeyword] at hlast

/-- A record of a file that holds a compressed text was read from a line of the text. -/
theorem line_of_record (hnamed : Named cfg) {dt : DataType} {source : Source}
    {content : List UInt8} {msg : DataMessage}
    (hcodec : cfg.externals.xzDecode ⟨env.xzEncode content, none⟩ = ⟨content, none⟩)
    (hsource : source.bytes = some (env.xzEncode content))
    (hmsg : msg ∈ (cfg.job dt source).records) :
    ∃ line, .ok line ∈ (Text.Stream.mk content none).lines ∧
      JsonlParser.lineMessage cfg.externals dt (if dt = .artists then some source.map else none)
        cfg.dump.version line = some msg := by
  have hopen : JsonlParser.openJsonlReader (cfg.externals.withFiles fun _ => source.bytes)
      (cfg.dump.path dt) = .ok ⟨content, none⟩ := by
    simp only [JsonlParser.openJsonlReader, Externals.withFiles, hsource,
      if_neg (extension_path hnamed dt), hcodec]
  rw [Job.records, ServiceConfig.job, Job.sequential_ofFile] at hmsg
  simp only [JsonlParser.parseMbJsonlFile, hopen, JsonlParser.parseLines_sent,
    JsonlParser.takeAccepted] at hmsg
  obtain ⟨line, hline, hsent⟩ := List.mem_filterMap.mp hmsg
  exact ⟨line, mem_readable hline, hsent⟩

theorem records_missing {dt : DataType} {source : Source} (h : source.bytes = none) :
    (cfg.job dt source).records = [] := by
  rw [Job.records, ServiceConfig.job, Job.sequential_ofFile]
  simp only [JsonlParser.parseMbJsonlFile, JsonlParser.openJsonlReader, Externals.withFiles, h]

/-! ## The installation -/

/-- Whatever the downloader, the network and the disk do, and wherever the process is killed or
the power lost: the service is one over its files whose downloads are single steps. It takes
the same steps in the same order, it is in the same state except for the files during a
download, and each of its downloads fetches extractions of responses that came in the run and
had the published hash. -/
theorem installation_refines_service (env : DownloadExternals) (cfg : ServiceConfig)
    (hnamed : Named cfg) (c₀ c : Installation) (ls : List Label) (hinit : (machine env cfg).init c₀)
    (hrun : (machine env cfg).run c₀ ls = some c) :
    ∃ s₀ ms s, (Service.machine cfg).init s₀ ∧ (Service.machine cfg).run s₀ ms = some s ∧
      ms.filter apart = ls.flatMap seen ∧
      c.service = { s with files := files cfg c.downloader } ∧
      (s.phase ≠ .downloading → c.service = s) ∧
      ∀ fetched fault, .download fetched fault ∈ ms → ∀ dt bytes, fetched dt = some bytes →
        Obtained env ls dt bytes := by
  obtain ⟨s₀, ms, s, ⟨hs₀, -⟩, hms, h⟩ := (simulates hnamed).run hinit hrun
  refine ⟨s₀, ms, s, hs₀, hms, h.trace, h.state, h.service_eq, ?_⟩
  intro fetched fault hm dt bytes hb
  exact h.supplies hm dt bytes hb

/-- However often the process was killed and the power lost on the way, every record that was
ever published to an entity's exchange is the message of a line of the entity's file in an
archive that came in the run whole and with the published hash, and the map it was enriched
with was read from such files too. -/
theorem records_come_from_archives (env : DownloadExternals) (cfg : ServiceConfig)
    (hnamed : Named cfg)
    (hcodec : ∀ content, cfg.externals.xzDecode ⟨env.xzEncode content, none⟩ = ⟨content, none⟩)
    (c₀ c : Installation) (ls : List Label) (hinit : (machine env cfg).init c₀)
    (hrun : (machine env cfg).run c₀ ls = some c) (a : Attempt) (ha : a ∈ c.service.shared.log)
    (msg : DataMessage) (hmsg : a.message = .data msg) :
    ∃ sums response content line map, Attested env ls a.exchange sums response ∧
      archived env a.exchange response = some content ∧
      .ok line ∈ (Text.Stream.mk content none).lines ∧
      JsonlParser.lineMessage cfg.externals a.exchange
        (if a.exchange = .artists then some map else none) cfg.dump.version line = some msg ∧
      Service.MapFrom cfg (Obtained env ls) map := by
  obtain ⟨s₀, ms, s, ⟨⟨files₀, now, rfl⟩, hstart⟩, hms, h⟩ := (simulates hnamed).run hinit hrun
  have hfiles : Service.FilesFrom cfg (Obtained env ls) files₀ := by
    intro dt bytes hb
    have hnone : files₀ (cfg.dump.path dt) = none := by
      rw [show files₀ = files cfg c₀.downloader from hstart.settled fun hp => by cases hp]
      exact files_none hnamed hinit.1 _
    rw [hnone] at hb
    cases hb
  have hsupplied := Service.supplied_run hfiles (fun m hm => h.supplies hm) hms
  rw [h.state] at ha
  obtain ⟨source, hsource, hrecord⟩ := hsupplied.log a ha msg hmsg
  cases hbytes : source.bytes with
  | none =>
    rw [records_missing hbytes] at hrecord
    cases hrecord
  | some bytes =>
    obtain ⟨sums, response, hattested, hextracted⟩ := hsource.bytes bytes hbytes
    rw [extracted_eq] at hextracted
    obtain ⟨content, hcontent, rfl⟩ := Option.map_eq_some_iff.mp hextracted
    obtain ⟨line, hline, hsent⟩ := line_of_record hnamed (hcodec content) hbytes hrecord
    exact ⟨sums, response, content, line, source.map, hattested, hcontent, hline, hsent, hsource.map⟩

/-! ## A download that is killed after its first file -/

/-- Round trips for the one line of the archive as the encoder does, for other texts in a way of
its own. -/
def lineExternals : DownloadExternals :=
  { archiveExternals with
    xzEncode := fun content => if content = archiveLine then encodedLine else 0 :: content }

def archiveDump : DumpSet where
  version := "20260101-000000"
  directory := "/musicbrainz-data/20260101-000000"
  fileName := outName
  fileName_injective := staging.final_injective

def archiveService : ServiceConfig where
  pipeline := oneByOne
  externals :=
    { labelExternals with
      xzDecode := fun stream =>
        if stream.bytes = encodedLine then ⟨archiveLine, stream.failure⟩
        else ⟨stream.bytes.tail, stream.failure⟩
      fromStr := fun text =>
        if text = "\x7b\"id\":\"1\"\x7d" then .ok (.json [("id", .string "1")])
        else .error "expected value at line 1 column 1" }
  dump := archiveDump

theorem lineExternals_decodes (content : List UInt8) :
    archiveService.externals.xzDecode ⟨lineExternals.xzEncode content, none⟩ = ⟨content, none⟩ := by
  by_cases hline : content = archiveLine
  · subst hline
    rfl
  · have hother : 0 :: content ≠ encodedLine := by
      intro heq
      cases heq
    simp only [archiveService, lineExternals, if_neg hline, if_neg hother, List.tail_cons]

def emptyInstallation : Installation :=
  withDirectory archiveService (.initial archiveService (fun _ => none) 0) {
    volume := ⟨fun _ => [], fun _ => true, 0, fun _ => none, []⟩
    isDir := false
    phase := .idle
    verified := []
    outcome := none }

/-- The artists are there by then, and need no line. -/
def laterSums : String :=
  archiveSha256 ++ "  label.tar.xz\n" ++ archiveSha256 ++ "  release-group.tar.xz\n" ++
    archiveSha256 ++ "  release.tar.xz\n"

/-- The members before the entity's are passed over. -/
def acquireRun (dt : DataType) : List Downloader.Label :=
  [.nextEntity, .request (.ok ⟨archive, none⟩)] ++
    List.replicate (mbEntities.idxOf dt + 1) .scan ++
    [.create true true, .copy [] false, .copy [] false, .finish none, .sync false, .drain,
      .rename false, .syncDir true]

def openDownload (sums : String) : List Downloader.Label :=
  [.begin, .index none, .check, .sums (.ok sums), .makeDir none]

def firstDownload : List Downloader.Label := openDownload archiveSums ++ acquireRun .artists

def secondDownload : List Downloader.Label :=
  openDownload laterSums ++ [.nextEntity] ++ acquireRun .labels ++ acquireRun .releaseGroups ++
    acquireRun .releases ++ [.nextEntity]

def firstFile : List Service.Label :=
  [.checkShutdown, .discover (.ok DataType.musicbrainz), .decide true, .connect none,
    .declareExchange none, .declareExchange none, .declareExchange none, .declareExchange none,
    .startPhase true, .buildMap none, .nextFile true] ++ labelRun.map .pipeline

def enterRun : List Label := [.service (.begin false), .service .checkShutdown]

/-- The process is killed when it has the artists, and fetches the others when it is back. -/
def killedRun : List Label :=
  enterRun ++ firstDownload.map .download ++ [.kill] ++ enterRun ++ secondDownload.map .download ++
    [.downloaded] ++ firstFile.map .service

theorem emptyInstallation_init : (machine lineExternals archiveService).init emptyInstallation := by
  refine ⟨⟨rfl, rfl, rfl, rfl, fun dt => ⟨rfl, rfl⟩⟩, fun dt => rfl, 0, rfl⟩

theorem killedRun_publishes : ∃ c a msg, (machine lineExternals archiveService).run emptyInstallation
    killedRun = some c ∧ a ∈ c.service.shared.log ∧ a.exchange = .artists ∧ a.message = .data msg := by
  have hdata : ((machine lineExternals archiveService).run emptyInstallation killedRun).any (fun c =>
      c.service.shared.log.any fun a => a.isData && a.exchange == .artists) = true := by
    decide +kernel
  obtain ⟨c, hrun, hc⟩ := (Option.any_eq_true _ _).mp hdata
  obtain ⟨a, ha, hboth⟩ := List.any_eq_true.mp hc
  obtain ⟨hisData, hexchange⟩ := Bool.and_eq_true_iff.mp hboth
  unfold Attempt.isData at hisData
  split at hisData
  · next msg hmsg => exact ⟨c, a, msg, hrun, ha, eq_of_beq hexchange, hmsg⟩
  · cases hisData

theorem installation_refines_service_killed : ∃ c s₀ ms s,
    (machine lineExternals archiveService).run emptyInstallation killedRun = some c ∧
    (Service.machine archiveService).run s₀ ms = some s ∧
    ms.filter apart = killedRun.flatMap seen ∧ c.service.shared = s.shared := by
  obtain ⟨c, -, -, hrun, -⟩ := killedRun_publishes
  obtain ⟨s₀, ms, s, -, hms, htrace, hstate, -⟩ := installation_refines_service lineExternals
    archiveService (fun _ => rfl) emptyInstallation c killedRun emptyInstallation_init hrun
  refine ⟨c, s₀, ms, s, hrun, hms, htrace, ?_⟩
  rw [hstate]

theorem records_come_from_archives_killed : ∃ c msg sums response content,
    (machine lineExternals archiveService).run emptyInstallation killedRun = some c ∧
    (∃ a ∈ c.service.shared.log, a.message = .data msg) ∧
    Attested lineExternals killedRun .artists sums response ∧
    archived lineExternals .artists response = some content := by
  obtain ⟨c, a, msg, hrun, ha, hexchange, hmsg⟩ := killedRun_publishes
  obtain ⟨sums, response, content, -, -, hattested, hcontent, -⟩ := records_come_from_archives
    lineExternals archiveService (fun _ => rfl) lineExternals_decodes emptyInstallation c killedRun
    emptyInstallation_init hrun a ha msg hmsg
  rw [hexchange] at hattested hcontent
  exact ⟨c, msg, sums, response, content, hrun, ⟨a, ha, hmsg⟩, hattested, hcontent⟩

end Installation

end MusicbrainzIngestion
