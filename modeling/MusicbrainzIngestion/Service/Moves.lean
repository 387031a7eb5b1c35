import MusicbrainzIngestion.Service

/-! What a step of the service can do: one constructor for each way a statement of the run can
go, with what it found there. Invariants are proved over these, not over the step. -/

namespace MusicbrainzIngestion
open Base

namespace Service

/-- The lineage once processing is started. -/
def startedLineage (s : Service) : Lineage :=
  { s.run.lineage with started := s.run.lineage.started.orElse fun _ => s.shared.now }

/-- The marker as processing starts, before it is saved. -/
def processingStarted (s : Service) : Service :=
  { s.setMarker (s.shared.marker.startProcessing s.run.dumpFiles.length s.shared.now) with
    run := { s.run with lineage := s.startedLineage } }

/-- The marker as processing is resumed, before it is saved. -/
def processingResumed (s : Service) : Service :=
  s.setMarker { s.shared.marker with
    processingPhase :=
      { s.shared.marker.processingPhase with filesTotal := s.run.dumpFiles.length } }

/-- Loading the marker changes the marker, and what the run knows of where it came from. -/
theorem loadMarker_eq (cfg : ServiceConfig) (s : Service) (readable : Bool) :
    ∃ marker loaded lineage, s.loadMarker cfg readable =
      { s.setMarker marker with run := { s.run with loaded := loaded, lineage := lineage } } := by
  unfold loadMarker
  split
  · exact ⟨_, _, _, rfl⟩
  · split <;> exact ⟨_, _, _, rfl⟩

/-- The run is going to report a failure. -/
def failed (s : Service) : Service := { s with run := { s.run with success := false } }

inductive Move (cfg : ServiceConfig) (s : Service) : Label → Service → Prop where
  | ticks (elapsed : Nat) :
    Move cfg s (.tick elapsed) { s with shared := { s.shared with now := s.shared.now + elapsed } }
  | shutdownRequested : Move cfg s .requestShutdown { s with shutdown := true }
  | crashes : Move cfg s .crash s.crash
  | markerLost : Move cfg s .loseMarker { s with shared := { s.shared with disk := none } }
  | fileRemoved (dt : DataType) :
    Move cfg s (.removeFile dt)
      { s with files := fun path => if path = cfg.dump.path dt then none else s.files path }
  | begins {force : Bool} (hp : s.phase = .idle) :
    Move cfg s (.begin force) {
      s with
      phase := .entry
      run := {
        force := force
        extractionStartedAt := s.shared.now
        publishedBefore := s.shared.log.length
        dumpFiles := []
        loaded := none
        lineage := s.diskLineage
        processingStartedAt := s.shared.now
        artistDiscogsMap := ∅
        recordCounts := ∅
        success := true } }
  | stops (hp : s.phase = .entry ∨ s.phase = .downloaded) (hs : s.shutdown = true) :
    Move cfg s .checkShutdown (s.finish (.ok false))
  | enters (hp : s.phase = .entry) (hs : s.shutdown = false) :
    Move cfg s .checkShutdown {
      s with
      shared := { s.shared with progress := {} }
      status := .running
      phase := .downloading }
  | goesOn (hp : s.phase = .downloaded) (hs : s.shutdown = false) :
    Move cfg s .checkShutdown (s.goto .discovering)
  | downloadFails {fetched : DataType → Option (List UInt8)} {e : Error}
    (hp : s.phase = .downloading) :
    Move cfg s (.download fetched (some e))
      ({ s with files := fetchMissing cfg s.files fetched }.finish (.error e))
  | downloads {fetched : DataType → Option (List UInt8)} (hp : s.phase = .downloading)
    (hall : DataType.musicbrainz.all
      ({ s with files := fetchMissing cfg s.files fetched }.present cfg) = true) :
    Move cfg s (.download fetched none)
      ({ s with files := fetchMissing cfg s.files fetched }.goto .downloaded)
  | discoverFails {e : Error} (hp : s.phase = .discovering) :
    Move cfg s (.discover (.error e)) (s.finish (.error e))
  | findsNone (hp : s.phase = .discovering)
    (hnone : [].Perm (DataType.musicbrainz.filter (s.present cfg))) :
    Move cfg s (.discover (.ok [])) ({ s with status := .completed }.finish (.ok true))
  | discovers {dumpFiles : List DataType} (hp : s.phase = .discovering)
    (hperm : dumpFiles.Perm (DataType.musicbrainz.filter (s.present cfg)))
    (hsome : dumpFiles ≠ []) :
    Move cfg s (.discover (.ok dumpFiles))
      { s with run := { s.run with dumpFiles := dumpFiles }, phase := .deciding }
  | skips {readable : Bool} (hp : s.phase = .deciding)
    (hd : (s.loadMarker cfg readable).shared.marker.shouldProcess = .skip) :
    Move cfg s (.decide readable)
      ({ s.loadMarker cfg readable with status := .completed }.finish (.ok true))
  | reprocesses {readable : Bool} (hp : s.phase = .deciding)
    (hd : (s.loadMarker cfg readable).shared.marker.shouldProcess = .reprocess) :
    Move cfg s (.decide readable) (((s.loadMarker cfg readable).freshMarker cfg).goto .connecting)
  | continues {readable : Bool} (hp : s.phase = .deciding)
    (hd : (s.loadMarker cfg readable).shared.marker.shouldProcess = .continue) :
    Move cfg s (.decide readable) ((s.loadMarker cfg readable).goto .connecting)
  | connectFails {e e' : Error} (hp : s.phase = .connecting) :
    Move cfg s (.connect (some e)) (s.finish (.error e'))
  | connects (hp : s.phase = .connecting) :
    Move cfg s (.connect none) (s.goto (.declaring DataType.musicbrainz))
  | declareFails {dt : DataType} {rest : List DataType} {e : Error}
    (hp : s.phase = .declaring (dt :: rest)) :
    Move cfg s (.declareExchange (some e)) (s.finish (.error e))
  | declares {dt next : DataType} {rest : List DataType}
    (hp : s.phase = .declaring (dt :: next :: rest)) :
    Move cfg s (.declareExchange none) (s.goto (.declaring (next :: rest)))
  | declaresLast {dt : DataType} (hp : s.phase = .declaring [dt]) :
    Move cfg s (.declareExchange none) (s.goto .starting)
  | starts {saved : Bool} (hp : s.phase = .starting)
    (hm : s.shared.marker.processingPhase.status = .pending) :
    Move cfg s (.startPhase saved) (s.processingStarted.resolveStart.saveThen saved .mapping)
  | resumeFails (hp : s.phase = .starting)
    (hm : s.shared.marker.processingPhase.status = .inProgress) :
    Move cfg s (.startPhase false) (s.processingResumed.resolveStart.saveThen false .mapping)
  | resumes {t : Service} (hp : s.phase = .starting)
    (hm : s.shared.marker.processingPhase.status = .inProgress)
    (ht : t = s.processingResumed.resolveStart.saveThen true .mapping) :
    Move cfg s (.startPhase true) { t with
      shared := { t.shared with
        progress := rehydrate cfg s.processingResumed.shared.marker t.shared.progress
          s.run.dumpFiles } }
  | phaseOver {saved : Bool} (hp : s.phase = .starting)
    (hpending : s.shared.marker.processingPhase.status ≠ .pending)
    (hrunning : s.shared.marker.processingPhase.status ≠ .inProgress) :
    Move cfg s (.startPhase saved) (s.resolveStart.goto .mapping)
  | mapFails {fault : Option Error} {e : Error} (hp : s.phase = .mapping) :
    Move cfg s (.buildMap fault) (s.finish (.error e))
  | maps {map : JsonlParser.DiscogsMap} (hp : s.phase = .mapping)
    (hmap : cfg.discogsMap s.files s.run.dumpFiles = .ok map) :
    Move cfg s (.buildMap none)
      ({ s with run := { s.run with artistDiscogsMap := map } }.goto (.looping s.run.dumpFiles))
  | loopEnds {saved : Bool} (hp : s.phase = .looping []) (hs : s.run.success = true) :
    Move cfg s (.nextFile saved)
      (s.goto (.announcing (s.extractionComplete cfg) DataType.musicbrainz []))
  | loopEndsFailed {saved : Bool} (hp : s.phase = .looping []) (hs : s.run.success = false) :
    Move cfg s (.nextFile saved) (s.goto .finalising)
  | interrupted {saved : Bool} {dt : DataType} {rest : List DataType}
    (hp : s.phase = .looping (dt :: rest)) (hs : s.shutdown = true) :
    Move cfg s (.nextFile saved) (s.failed.goto .finalising)
  | skipsFile {saved : Bool} {dt : DataType} {rest : List DataType} {records : Nat}
    (hp : s.phase = .looping (dt :: rest)) (hs : s.shutdown = false)
    (hc : s.shared.marker.completedRecords (cfg.dump.fileName dt) = some records) :
    Move cfg s (.nextFile saved) ((s.countRecords dt records).goto (.looping rest))
  | startsFile {saved : Bool} {dt : DataType} {rest : List DataType}
    (hp : s.phase = .looping (dt :: rest)) (hs : s.shutdown = false)
    (hc : s.shared.marker.completedRecords (cfg.dump.fileName dt) = none) :
    Move cfg s (.nextFile saved)
      ((s.setMarker (s.shared.marker.startFileProcessing (cfg.dump.fileName dt) s.shared.now)).saveThen
        saved (.processing dt rest
          { bytes := s.files (cfg.dump.path dt), map := s.run.artistDiscogsMap }
          (Tasks.spawn cfg.pipeline)))
  | pipelineMoves {l : Pipeline.Label} {dt : DataType} {rest : List DataType} {source : Source}
    {tasks : Tasks} {p : Pipeline} (hp : s.phase = .processing dt rest source tasks)
    (hm : Pipeline.step cfg.pipeline (cfg.job dt source) ⟨s.shared, tasks⟩ l = some p) :
    Move cfg s (.pipeline l)
      ({ s with shared := p.shared, phase := .processing dt rest source p.tasks }.settleLineage
        dt source tasks.main p.tasks.main)
  | fileEnds {dt : DataType} {rest : List DataType} {source : Source} {tasks : Tasks}
    {fileSuccess : Bool} {totalCount : Nat} (hp : s.phase = .processing dt rest source tasks)
    (hm : tasks.main = .finished fileSuccess totalCount true) :
    Move cfg s .fileDone {
      s.countRecords dt totalCount with
      run := { (s.countRecords dt totalCount).run with success := s.run.success && fileSuccess }
      phase := .looping rest }
  | fileFails {dt : DataType} {rest : List DataType} {source : Source} {tasks : Tasks}
    {fileSuccess : Bool} {totalCount : Nat} (hp : s.phase = .processing dt rest source tasks)
    (hm : tasks.main = .finished fileSuccess totalCount false) :
    Move cfg s .fileDone (s.finish (.error saveFailed))
  | announces {reply : Reply} {message : ExtractionCompleteMessage} {dt : DataType}
    {rest : List DataType} {errors : List String}
    (hp : s.phase = .announcing message (dt :: rest) errors) :
    Move cfg s (.announce reply) {
      s with
      shared := s.shared.publish dt (.extractionComplete message) reply
      phase := .announcing message rest (collectError errors dt
        (publishResult (exchangeName cfg.pipeline.exchangePrefix dt) reply)) }
  | announced {message : ExtractionCompleteMessage} (hp : s.phase = .announcing message [] []) :
    Move cfg s .announced (s.goto .finalising)
  | announcingFails {message : ExtractionCompleteMessage} {errors : List String}
    (hp : s.phase = .announcing message [] errors) (he : errors ≠ []) :
    Move cfg s .announced (s.failed.goto .finalising)
  | finalises {saved : Bool} (hp : s.phase = .finalising) :
    Move cfg s (.finalise saved)
      ((s.setMarker (if s.run.success then
        (s.shared.marker.completeProcessing s.shared.now).completeExtraction
        else s.shared.marker)).saveThen saved .reporting)
  | reports (hp : s.phase = .reporting) :
    Move cfg s .report
      ({ s with status := if s.run.success then .completed else .failed }.finish
        (.ok s.run.success))

variable {cfg : ServiceConfig} {s t : Service}

theorem announceResult_ok {errors : List String} : announceResult errors = .ok () ↔ errors = [] := by
  unfold announceResult
  split <;> simp_all

theorem checkShutdown_move (h : s.checkShutdown = some t) : Move cfg s .checkShutdown t := by
  unfold checkShutdown at h
  split at h
  · next hp =>
    split at h <;> cases h
    · next hs => exact .stops (Or.inl hp) hs
    · next hs => exact .enters hp (Bool.eq_false_iff.mpr hs)
  · next hp =>
    split at h <;> cases h
    · next hs => exact .stops (Or.inr hp) hs
    · next hs => exact .goesOn hp (Bool.eq_false_iff.mpr hs)
  · cases h

theorem download_move {fetched : DataType → Option (List UInt8)} {fault : Option Error}
    (h : s.download cfg fetched fault = some t) : Move cfg s (.download fetched fault) t := by
  unfold download at h
  split at h
  · next hp =>
    split at h
    · cases h
      exact .downloadFails hp
    · dsimp only at h
      split at h <;> cases h
      next hall => exact .downloads hp hall
  · cases h

theorem discover_move {found : Except Error (List DataType)} (h : s.discover cfg found = some t) :
    Move cfg s (.discover found) t := by
  unfold discover at h
  split at h
  · next hp =>
    split at h
    · cases h
      exact .discoverFails hp
    · split at h
      · next hperm =>
        split at h <;> cases h
        · next hnone =>
          subst hnone
          exact .findsNone hp hperm
        · next hsome => exact .discovers hp hperm hsome
      · cases h
  · cases h

theorem decide_move {readable : Bool} (h : s.decide cfg readable = some t) :
    Move cfg s (.decide readable) t := by
  unfold Service.decide at h
  split at h
  · next hp =>
    dsimp only at h
    split at h <;> cases h
    · next hd => exact .skips hp hd
    · next hd => exact .reprocesses hp hd
    · next hd => exact .continues hp hd
  · cases h

theorem declareExchange_move {fault : Option Error} (h : s.declareExchange fault = some t) :
    Move cfg s (.declareExchange fault) t := by
  unfold declareExchange at h
  split at h
  · next dt rest hp =>
    split at h <;> cases h
    · exact .declareFails hp
    · cases rest with
      | nil => exact .declaresLast hp
      | cons next rest => exact .declares hp
  · cases h

theorem startPhase_move {saved : Bool} (h : s.startPhase cfg saved = some t) :
    Move cfg s (.startPhase saved) t := by
  unfold startPhase at h
  split at h
  · next hp =>
    dsimp only at h
    split at h <;> cases h
    · next hm => exact .starts hp hm
    · next hm =>
      cases saved with
      | false => exact .resumeFails hp hm
      | true => exact .resumes hp hm rfl
    · next hpending hrunning => exact .phaseOver hp hpending hrunning
  · cases h

theorem buildMap_move {fault : Option Error} (h : s.buildMap cfg fault = some t) :
    Move cfg s (.buildMap fault) t := by
  unfold buildMap at h
  split at h
  · next hp =>
    split at h <;> cases h
    · exact .mapFails hp
    · exact .mapFails hp
    · next hmap => exact .maps hp hmap
  · cases h

theorem nextFile_move {saved : Bool} (h : s.nextFile cfg saved = some t) :
    Move cfg s (.nextFile saved) t := by
  unfold nextFile at h
  split at h
  · next hp =>
    cases h
    cases hs : s.run.success with
    | true => exact .loopEnds hp hs
    | false => exact .loopEndsFailed hp hs
  · next hp =>
    split at h
    · next hs =>
      cases h
      exact .interrupted hp hs
    · next hs =>
      split at h <;> cases h
      · next hc => exact .skipsFile hp (Bool.eq_false_iff.mpr hs) hc
      · next hc => exact .startsFile hp (Bool.eq_false_iff.mpr hs) hc
  · cases h

theorem fileDone_move (h : s.fileDone = some t) : Move cfg s .fileDone t := by
  unfold fileDone at h
  split at h
  · next hp =>
    split at h
    · next saved hm =>
      split at h <;> cases h
      · next hsaved =>
        subst hsaved
        exact .fileEnds hp hm
      · next hsaved =>
        rw [Bool.eq_false_iff.mpr hsaved] at hm
        exact .fileFails hp hm
    · cases h
  · cases h

theorem announced_move (h : s.announced = some t) : Move cfg s .announced t := by
  unfold Service.announced at h
  split at h
  · next errors hp =>
    split at h <;> cases h
    · next hok =>
      rw [announceResult_ok.mp hok] at hp
      exact .announced hp
    · next herror =>
      refine .announcingFails hp fun hnone => ?_
      rw [announceResult_ok.mpr hnone] at herror
      cases herror
  · cases h

theorem step_move {label : Label} (h : step cfg s label = some t) : Move cfg s label t := by
  cases label with
  | tick elapsed =>
    cases h
    exact .ticks elapsed
  | requestShutdown =>
    cases h
    exact .shutdownRequested
  | crash =>
    cases h
    exact .crashes
  | loseMarker =>
    cases h
    exact .markerLost
  | removeFile dt =>
    cases h
    exact .fileRemoved dt
  | begin force =>
    simp only [step, begin] at h
    split at h <;> cases h
    next hp => exact .begins hp
  | checkShutdown => exact checkShutdown_move h
  | download fetched fault => exact download_move h
  | discover found => exact discover_move h
  | decide readable => exact decide_move h
  | connect fault =>
    simp only [step, connect] at h
    split at h
    · next hp =>
      split at h <;> cases h
      · exact .connectFails hp
      · exact .connects hp
    · cases h
  | declareExchange fault => exact declareExchange_move h
  | startPhase saved => exact startPhase_move h
  | buildMap fault => exact buildMap_move h
  | nextFile saved => exact nextFile_move h
  | pipeline l =>
    simp only [step, Service.pipeline] at h
    split at h
    · next hp =>
      obtain ⟨p, hm, rfl⟩ := Option.map_eq_some_iff.mp h
      exact .pipelineMoves hp hm
    · cases h
  | fileDone => exact fileDone_move h
  | announce reply =>
    simp only [step, announce] at h
    split at h <;> cases h
    next hp => exact .announces hp
  | announced => exact announced_move h
  | finalise saved =>
    simp only [step, finalise] at h
    split at h <;> cases h
    next hp => exact .finalises hp
  | report =>
    simp only [step, report] at h
    split at h <;> cases h
    next hp => exact .reports hp

end Service

end MusicbrainzIngestion
