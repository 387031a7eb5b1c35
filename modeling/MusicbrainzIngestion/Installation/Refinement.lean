import MusicbrainzIngestion.Base.Simulation
import MusicbrainzIngestion.Downloader.Directory
import MusicbrainzIngestion.Installation
import MusicbrainzIngestion.Service.Moves

/-! The service with its downloader does nothing that the service whose download is one step
does not do. A call of the downloader is that step with what it published, a kill in the
middle of it is a download that failed and then a crash, and a power loss is a crash and then
the loss of some files. -/

namespace MusicbrainzIngestion
open Base

namespace Installation

/-! ## What is compared -/

/-- What a step is to those who do not look at the files. -/
def seen : Label → List Service.Label
  | .service l => [l]
  | .kill | .powerLoss _ _ _ => [.crash]
  | .download _ | .downloaded => []

def apart : Service.Label → Bool
  | .download _ _ | .removeFile _ => false
  | _ => true

/-- A download fetches what the downloader verified. -/
def Fetches (env : DownloadExternals) (d : Downloader) : Service.Label → Prop
  | .download fetched _ => ∀ dt bytes, fetched dt = some bytes →
      ∃ x ∈ d.verified, x.entity = dt ∧ x.content = bytes ∧ Downloader.Genuine env x
  | _ => True

/-- The service `s` after `ms` stands for the installation `c` after `ls`. -/
structure Refines (env : DownloadExternals) (cfg : ServiceConfig) (ls : List Label)
    (c : Installation) (ms : List Service.Label) (s : Service) : Prop where
  directory : Downloader.Directory env c.downloader
  heard : Downloader.Heard (fun sums => .download (.sums (.ok sums)) ∈ ls)
    (fun response => .download (.request (.ok response)) ∈ ls) c.downloader
  state : c.service = { s with files := files cfg c.downloader }
  kept : ∀ path bytes, s.files path = some bytes → files cfg c.downloader path = some bytes
  settled : s.phase ≠ .downloading → s.files = files cfg c.downloader
  fetches : ∀ m ∈ ms, Fetches env c.downloader m
  trace : ms.filter apart = ls.flatMap seen

variable {env : DownloadExternals} {cfg : ServiceConfig} {ls : List Label} {c c' : Installation}
  {ms : List Service.Label} {s s' : Service} {d t : Downloader}

/-! ## The dump files -/

/-- The dump is kept under the names the downloader gives. -/
def Named (cfg : ServiceConfig) : Prop := ∀ dt, cfg.dump.fileName dt = outName dt

theorem files_eq (h : Named cfg) (d : Downloader) : files cfg d = fun path =>
    (DataType.musicbrainz.find? fun dt => cfg.dump.path dt = path).bind d.content := by
  funext path
  unfold files
  simp only [h _]
  rfl

theorem find_path (cfg : ServiceConfig) (dt : DataType) :
    (DataType.musicbrainz.find? fun dt' => cfg.dump.path dt' = cfg.dump.path dt) = some dt := by
  cases hfind : DataType.musicbrainz.find? fun dt' => cfg.dump.path dt' = cfg.dump.path dt with
  | none =>
    have hnot := List.find?_eq_none.mp hfind dt (DataType.mem_musicbrainz dt)
    simp at hnot
  | some dt' =>
    have heq := List.find?_some hfind
    rw [cfg.dump.path_injective (of_decide_eq_true heq)]

theorem files_path (h : Named cfg) (d : Downloader) (dt : DataType) :
    files cfg d (cfg.dump.path dt) = d.content dt := by
  rw [files_eq h]
  dsimp only
  rw [find_path, Option.bind_some]

theorem files_mono (h : Named cfg)
    (hc : ∀ dt bytes, d.content dt = some bytes → t.content dt = some bytes) {path : String}
    {bytes : List UInt8} (hf : files cfg d path = some bytes) :
    files cfg t path = some bytes := by
  rw [files_eq h] at hf ⊢
  obtain ⟨dt, hdt, hcontent⟩ := Option.bind_eq_some_iff.mp hf
  dsimp only
  rw [hdt, Option.bind_some]
  exact hc dt bytes hcontent

/-- What is missing is fetched, and what is there is as it was. -/
theorem fetchMissing_eq (h : Named cfg) {old : Files}
    (hkept : ∀ path bytes, old path = some bytes → files cfg d path = some bytes) :
    Service.fetchMissing cfg old d.content = files cfg d := by
  funext path
  unfold Service.fetchMissing
  cases hold : old path with
  | some bytes => exact (hkept path bytes hold).symm
  | none => rw [files_eq h]

/-! ## Steps of the service itself -/

theorem files_own {l : Service.Label} (hmove : Service.Move cfg s l s') (hl : ownStep l = true) :
    s'.files = s.files := by
  cases hmove with
  | crashes | fileRemoved | downloadFails | downloads => cases hl
  | skips | reprocesses | continues =>
    obtain ⟨marker, loaded, lineage, heq⟩ := Service.loadMarker_eq cfg s ‹Bool›
    rw [heq]
    rfl
  | @starts saved | @startsFile saved | @finalises saved => cases saved <;> rfl
  | resumes hp hm ht =>
    subst ht
    rfl
  | pipelineMoves =>
    unfold Service.settleLineage
    split <;> rfl
  | _ => rfl

/-- While the download runs, the world goes on. -/
theorem step_world (h : s.phase = .downloading) {l : Service.Label} (hl : ownStep l = true)
    {f : Files} (hstep : Service.step cfg { s with files := f } l = some s') :
    ∃ u, Service.step cfg s l = some u ∧ s' = { u with files := f } ∧ u.phase = .downloading ∧
      u.files = s.files := by
  have hmove := Service.step_move hstep
  cases hmove with
  | ticks elapsed => exact ⟨_, rfl, rfl, h, rfl⟩
  | shutdownRequested => exact ⟨_, rfl, rfl, h, rfl⟩
  | markerLost => exact ⟨_, rfl, rfl, h, rfl⟩
  | crashes | fileRemoved | downloadFails | downloads => cases hl
  | stops hp =>
    rcases hp with hp | hp
    · cases h.symm.trans hp
    · cases h.symm.trans hp
  | begins hp | enters hp | goesOn hp | discoverFails hp | findsNone hp | discovers hp | skips hp
  | reprocesses hp | continues hp | connectFails hp | connects hp | declareFails hp | declares hp
  | declaresLast hp | starts hp | resumeFails hp | resumes hp | phaseOver hp | mapFails hp | maps hp
  | loopEnds hp | loopEndsFailed hp | interrupted hp | skipsFile hp | startsFile hp
  | pipelineMoves hp | fileEnds hp | fileFails hp | announces hp | announced hp
  | announcingFails hp | finalises hp | reports hp => cases h.symm.trans hp

theorem Refines.service_eq (h : Refines env cfg ls c ms s) (hp : s.phase ≠ .downloading) :
    c.service = s := by
  rw [h.state, ← h.settled hp]

theorem Refines.service_phase (h : Refines env cfg ls c ms s) : c.service.phase = s.phase := by
  rw [h.state]

/-- What the service is said to have heard stays heard. -/
theorem heard_snoc (h : Downloader.Heard (fun sums => Label.download (.sums (.ok sums)) ∈ ls)
    (fun response => .download (.request (.ok response)) ∈ ls) d) (l : Label) :
    Downloader.Heard (fun sums => Label.download (.sums (.ok sums)) ∈ ls ++ [l])
      (fun response => .download (.request (.ok response)) ∈ ls ++ [l]) d :=
  h.mono (fun _ hs => List.mem_append_left _ hs) fun _ hr => List.mem_append_left _ hr

theorem filter_snoc {ns : List Service.Label} {l : Label} (h : ms.filter apart = ls.flatMap seen)
    (hn : ns.filter apart = seen l) : (ms ++ ns).filter apart = (ls ++ [l]).flatMap seen := by
  rw [List.filter_append, List.flatMap_append, h, hn, List.flatMap_singleton]

theorem apart_of_own {l : Service.Label} (h : ownStep l = true) : apart l = true := by
  cases l <;> first | rfl | cases h

theorem fetches_of_own {l : Service.Label} (h : ownStep l = true) : Fetches env d l := by
  cases l with
  | download => cases h
  | _ => trivial

theorem Refines.service (h : Refines env cfg ls c ms s) {l : Service.Label}
    (hl : ownStep l = true) {u : Service} (hstep : Service.step cfg c.service l = some u) :
    ∃ s', Service.step cfg s l = some s' ∧
      Refines env cfg (ls ++ [.service l]) { c with service := u } (ms ++ [l]) s' := by
  have hfetches : ∀ m ∈ ms ++ [l], Fetches env c.downloader m := by
    intro m hm
    rcases List.mem_append.mp hm with hm | hm
    · exact h.fetches m hm
    · rw [List.mem_singleton.mp hm]
      exact fetches_of_own hl
  have htrace : (ms ++ [l]).filter apart = (ls ++ [Label.service l]).flatMap seen :=
    filter_snoc h.trace (by simp [seen, apart_of_own hl])
  have hheard := heard_snoc h.heard (.service l)
  by_cases hp : s.phase = .downloading
  · rw [h.state] at hstep
    obtain ⟨s', hs', hu, hphase, hfiles⟩ := step_world hp hl hstep
    refine ⟨s', hs', h.directory, hheard, hu, ?_, fun hne => absurd hphase hne, hfetches, htrace⟩
    rw [hfiles]
    exact h.kept
  · rw [h.service_eq hp] at hstep
    have hfiles := (files_own (Service.step_move hstep) hl).trans (h.settled hp)
    refine ⟨u, hstep, h.directory, hheard, ?_, ?_, fun _ => hfiles, hfetches, htrace⟩
    · rw [← hfiles]
    · intro path bytes hb
      rw [← hfiles]
      exact hb

/-! ## Steps of the download -/

theorem verified_move {l : Downloader.Label} (hmove : Downloader.Move env d l t) {x : Verified}
    (hx : x ∈ d.verified) : x ∈ t.verified := by
  cases hmove with
  | verifies => exact List.mem_append_left _ hx
  | requestFails =>
    rw [Downloader.verified_retry]
    exact hx
  | cleans =>
    rw [Downloader.verified_retry, Downloader.verified_removeTmp]
    exact hx
  | prepares | discards => simpa only [Downloader.goto, Downloader.verified_removeTmp] using hx
  | _ => exact hx

theorem Fetches.mono {m : Service.Label} (h : Fetches env d m)
    (hv : ∀ x ∈ d.verified, x ∈ t.verified) : Fetches env t m := by
  cases m with
  | download fetched fault =>
    intro dt bytes hb
    obtain ⟨x, hx, hrest⟩ := h dt bytes hb
    exact ⟨x, hv x hx, hrest⟩
  | _ => trivial

theorem fetches_content (h : Downloader.Directory env d) (fault : Option Error) :
    Fetches env d (.download d.content fault) := fun _ _ hb => h.content_verified hb

theorem powerLoss_of_runs {l : Downloader.Label} (h : runs d l = true) : l.isPowerLoss = false := by
  cases l <;> first | rfl | cases h

theorem Refines.download (h : Refines env cfg ls c ms s) (hnamed : Named cfg)
    {l : Downloader.Label} (hstep : c.download env cfg l = some c') :
    Refines env cfg (ls ++ [.download l]) c' ms s := by
  unfold Installation.download at hstep
  split at hstep
  · next hphase =>
    split at hstep
    · next hruns =>
      obtain ⟨d, hd, rfl⟩ := Option.map_eq_some_iff.mp hstep
      have hmove := Downloader.step_move hd
      have hdirectory := h.directory.move hmove
      have hheard := (heard_snoc h.heard (.download l)).move hmove
        (fun sums hsums => by rw [hsums]; simp) fun response hr => by rw [hr]; simp
      rw [h.service_phase] at hphase
      have hcontent : ∀ dt bytes, c.downloader.content dt = some bytes → d.content dt = some bytes :=
        fun dt bytes => h.directory.content_kept hmove (powerLoss_of_runs hruns)
      refine ⟨hdirectory, hheard, ?_, ?_, fun hne => absurd hphase hne, ?_, ?_⟩
      · rw [withDirectory, h.state]
      · intro path bytes hb
        exact files_mono hnamed hcontent (h.kept path bytes hb)
      · intro m hm
        exact (h.fetches m hm).mono fun x hx => verified_move hmove hx
      · rw [List.flatMap_append, h.trace]
        simp [seen]
    · cases hstep
  · cases hstep

/-- The result was taken. -/
theorem directory_taken (h : Downloader.Directory env d) (hp : d.phase = .idle) :
    Downloader.Directory env { d with outcome := none } where
  inv := by
    refine ⟨.unanswered h.inv.1.volume h.inv.1.genuine rfl, ?_⟩
    unfold Downloader.PhaseOk
    dsimp only
    rw [hp]
    trivial
  steady := h.steady
  free := h.free

theorem step_downloadFails (hp : s.phase = .downloading)
    (fetched : DataType → Option (List UInt8)) (e : Error) :
    Service.step cfg s (.download fetched (some e)) =
      some ({ s with files := Service.fetchMissing cfg s.files fetched }.finish (.error e)) := by
  simp only [Service.step, Service.download]
  rw [hp]

theorem step_downloads (hp : s.phase = .downloading) {fetched : DataType → Option (List UInt8)}
    (hall : DataType.musicbrainz.all
      ({ s with files := Service.fetchMissing cfg s.files fetched }.present cfg) = true) :
    Service.step cfg s (.download fetched none) =
      some ({ s with files := Service.fetchMissing cfg s.files fetched }.goto .downloaded) := by
  simp only [Service.step, Service.download]
  rw [hp] at hall ⊢
  exact if_pos hall

/-- The service takes the step that the download was. -/
theorem Refines.fetched (h : Refines env cfg ls c ms s) (hnamed : Named cfg) :
    { s with files := Service.fetchMissing cfg s.files c.downloader.content } = c.service := by
  rw [h.state, fetchMissing_eq hnamed h.kept]

theorem present_of_ok (h : Downloader.Directory env d) (hnamed : Named cfg) {r : MbDownloadResult}
    (ho : d.outcome = some (.ok r)) (hfiles : s.files = files cfg d) :
    DataType.musicbrainz.all (s.present cfg) = true := by
  rw [List.all_eq_true]
  intro dt _
  rw [Service.present, hfiles, files_path hnamed]
  exact (h.complete_iff dt).mp (h.inv.1.outcome r ho dt)

/-- The service went on with what the download left. -/
theorem Refines.of_downloaded (h : Refines env cfg ls c ms s)
    (hp : c.downloader.phase = .idle) (fault : Option Error) {u : Service}
    (hu : u.files = c.service.files) :
    Refines env cfg (ls ++ [.downloaded]) ⟨u, { c.downloader with outcome := none }⟩
      (ms ++ [.download c.downloader.content fault]) u := by
  have hfiles : u.files = files cfg c.downloader := by
    rw [hu, h.state]
  have hheard := heard_snoc h.heard .downloaded
  refine ⟨directory_taken h.directory hp, ⟨hheard.verified, hheard.phase⟩, ?_, ?_, fun _ => hfiles,
    ?_, filter_snoc h.trace rfl⟩
  · change u = { u with files := files cfg c.downloader }
    rw [← hfiles]
  · intro path bytes hb
    rw [hfiles] at hb
    exact hb
  · intro m hm
    rcases List.mem_append.mp hm with hm | hm
    · exact (h.fetches m hm).mono fun x hx => hx
    · rw [List.mem_singleton.mp hm]
      exact fetches_content h.directory fault

theorem Refines.downloaded (h : Refines env cfg ls c ms s) (hnamed : Named cfg)
    (hstep : c.downloaded = some c') :
    ∃ m s', Service.step cfg s m = some s' ∧
      Refines env cfg (ls ++ [.downloaded]) c' (ms ++ [m]) s' := by
  have hfetched := h.fetched hnamed
  unfold Installation.downloaded at hstep
  split at hstep
  · next e hphase hidle houtcome =>
    cases hstep
    rw [h.service_phase] at hphase
    refine ⟨.download c.downloader.content (some e), c.service.finish (.error e), ?_,
      h.of_downloaded hidle (some e) rfl⟩
    rw [step_downloadFails hphase, hfetched]
  · next r hphase hidle houtcome =>
    cases hstep
    have hpresent : DataType.musicbrainz.all (c.service.present cfg) = true :=
      present_of_ok h.directory hnamed houtcome (by rw [h.state])
    rw [h.service_phase] at hphase
    refine ⟨.download c.downloader.content none, c.service.goto .downloaded, ?_,
      h.of_downloaded hidle none rfl⟩
    rw [step_downloads hphase (by rw [hfetched]; exact hpresent), hfetched]
  · cases hstep

/-! ## The end of the process -/

/-- A process that is killed had its download fail first, if there was one. -/
theorem Refines.crashes (h : Refines env cfg ls c ms s) (hnamed : Named cfg) :
    ∃ ns, (Service.machine cfg).run s ns = some c.service.crash ∧ ns.filter apart = [.crash] ∧
      ∀ m ∈ ns, Fetches env c.downloader m := by
  by_cases hp : s.phase = .downloading
  · have hdownload : (Service.machine cfg).step s (.download c.downloader.content (some [])) =
        some (c.service.finish (.error [])) := by
      refine (step_downloadFails hp _ []).trans ?_
      rw [h.fetched hnamed]
    refine ⟨[.download c.downloader.content (some []), .crash], ?_, rfl, ?_⟩
    · exact (Service.machine cfg).run_snoc ((Service.machine cfg).run_single hdownload) rfl
    · intro m hm
      rcases List.mem_cons.mp hm with rfl | hm
      · exact fetches_content h.directory _
      · rw [List.mem_singleton.mp hm]
        trivial
  · refine ⟨[.crash], ?_, rfl, ?_⟩
    · rw [h.service_eq hp]
      exact (Service.machine cfg).run_single rfl
    · intro m hm
      rw [List.mem_singleton.mp hm]
      trivial

def without (cfg : ServiceConfig) (old : Files) (dts : List DataType) : Files := fun path =>
  if dts.any fun dt => cfg.dump.path dt = path then none else old path

/-- The files are taken one by one. -/
theorem run_removeFiles (cfg : ServiceConfig) (s : Service) (dts : List DataType) :
    (Service.machine cfg).run s (dts.map .removeFile) =
      some { s with files := without cfg s.files dts } := by
  induction dts generalizing s with
  | nil => rfl
  | cons dt dts ih =>
    have hstep : (Service.machine cfg).step s (.removeFile dt) =
        some { s with files := without cfg s.files [dt] } := by
      refine congrArg (fun files => some { s with files := files }) (funext fun path => ?_)
      simp [without, eq_comm]
    rw [List.map_cons, Machine.run_cons, hstep, Option.bind_some, ih]
    refine congrArg (fun files => some { s with files := files }) (funext fun path => ?_)
    simp only [without, List.any_cons, List.any_nil, Bool.or_false]
    by_cases hpath : cfg.dump.path dt = path
    · simp [hpath]
    · simp [hpath]

/-- What a power loss took. -/
def lost (d : Downloader) : List DataType :=
  DataType.musicbrainz.filter fun dt => (d.content dt).isNone

theorem files_lost (hnamed : Named cfg)
    (hc : ∀ dt, t.content dt = none ∨ t.content dt = d.content dt) :
    without cfg (files cfg d) (lost t) = files cfg t := by
  funext path
  rw [without, files_eq hnamed, files_eq hnamed]
  dsimp only
  cases hfind : DataType.musicbrainz.find? fun dt => cfg.dump.path dt = path with
  | none => simp only [Option.bind_none, ite_self]
  | some dt =>
    have hfound := List.find?_some hfind
    have hpath : cfg.dump.path dt = path := of_decide_eq_true hfound
    subst hpath
    have hany : (lost t).any (fun dt' => cfg.dump.path dt' = cfg.dump.path dt) =
        (t.content dt).isNone := by
      rw [Bool.eq_iff_iff, List.any_eq_true]
      constructor
      · rintro ⟨dt', hmem, heq⟩
        rw [← cfg.dump.path_injective (of_decide_eq_true heq)]
        exact (List.mem_filter.mp hmem).2
      · intro hnone
        exact ⟨dt, List.mem_filter.mpr ⟨DataType.mem_musicbrainz dt, hnone⟩, decide_eq_true rfl⟩
    rw [hany, Option.bind_some, Option.bind_some]
    rcases hc dt with hnone | hsame
    · rw [hnone]
      rfl
    · rw [← hsame]
      cases t.content dt <;> rfl

theorem Refines.killed (h : Refines env cfg ls c ms s) (hnamed : Named cfg) :
    ∃ ns s', (Service.machine cfg).run s ns = some s' ∧
      Refines env cfg (ls ++ [.kill]) ⟨c.service.crash, c.downloader.kill⟩ (ms ++ ns) s' := by
  obtain ⟨ns, hns, htrace, hfetches⟩ := h.crashes hnamed
  have hfiles : c.service.crash.files = files cfg c.downloader := by
    rw [h.state]
    rfl
  have hmove : Downloader.Move env c.downloader .kill c.downloader.kill := .killed
  refine ⟨ns, _, hns, h.directory.move hmove,
    (heard_snoc h.heard .kill).move hmove (fun _ hs => by cases hs) (fun _ hr => by cases hr),
    ?_, ?_, fun _ => hfiles, ?_, filter_snoc h.trace htrace⟩
  · change c.service.crash = { c.service.crash with files := files cfg c.downloader }
    rw [← hfiles]
  · intro path bytes hb
    rw [hfiles] at hb
    exact hb
  · intro m hm
    rcases List.mem_append.mp hm with hm | hm
    · exact (h.fetches m hm).mono fun x hx => hx
    · exact (hfetches m hm).mono fun x hx => hx

theorem Refines.losesPower (h : Refines env cfg ls c ms s) (hnamed : Named cfg) {dirKept : Bool}
    {kept : List (Update String)} {garbled : Nat → List UInt8}
    (hstep : Downloader.step env c.downloader (.powerLoss dirKept kept garbled) = some d) :
    ∃ ns s', (Service.machine cfg).run s ns = some s' ∧
      Refines env cfg (ls ++ [.powerLoss dirKept kept garbled])
        (withDirectory cfg c.service.crash d) (ms ++ ns) s' := by
  obtain ⟨ns, hns, htrace, hfetches⟩ := h.crashes hnamed
  have hmove := Downloader.step_move hstep
  have hverified : ∀ x ∈ c.downloader.verified, x ∈ d.verified := fun x hx => verified_move hmove hx
  have hfiles : c.service.crash.files = files cfg c.downloader := by
    rw [h.state]
    rfl
  have hlost := run_removeFiles cfg c.service.crash (lost d)
  rw [hfiles, files_lost hnamed (h.directory.content_lost hmove rfl)] at hlost
  refine ⟨ns ++ (lost d).map .removeFile, { c.service.crash with files := files cfg d },
    (Service.machine cfg).run_trans hns hlost,
    h.directory.move hmove, (heard_snoc h.heard _).move hmove (fun _ hs => by cases hs)
      (fun _ hr => by cases hr), rfl, fun _ _ hb => hb, fun _ => rfl, ?_, ?_⟩
  · intro m hm
    rcases List.mem_append.mp hm with hm | hm
    · exact (h.fetches m hm).mono hverified
    · rcases List.mem_append.mp hm with hm | hm
      · exact (hfetches m hm).mono hverified
      · obtain ⟨dt, -, rfl⟩ := List.mem_map.mp hm
        trivial
  · refine filter_snoc h.trace ?_
    rw [List.filter_append, htrace]
    simp [seen, apart, List.filter_map, Function.comp_def]

/-! ## Every run -/

theorem refines_init (hinit : (machine env cfg).init c) :
    ∃ s, (Service.machine cfg).init s ∧ Refines env cfg [] c [] s := by
  obtain ⟨hdownloader, hbare, now, hservice⟩ := hinit
  have hinv : Downloader.Inv env c.downloader := Downloader.inv_reachable
    ⟨c.downloader, [], hdownloader, fun _ _ => trivial, rfl⟩
  obtain ⟨hphase, -, hverified, hpending, hnames⟩ := hdownloader
  refine ⟨c.service, ⟨_, now, hservice⟩, ⟨hinv, ?_, ?_⟩, ⟨?_, ?_⟩, ?_, ?_, ?_, ?_, rfl⟩
  · intro names hn dt inode hi
    rw [Volume.outcome_of_settled hpending hn] at hi
    exact absurd hi (by rw [show staging.final dt = outName dt from rfl, (hnames dt).1]; simp)
  · intro dt names hn
    rw [Volume.outcome_of_settled hpending hn]
    exact hbare dt
  · intro x hx
    rw [hverified] at hx
    cases hx
  · rw [hphase]
    trivial
  · rw [hservice]
    rfl
  · intro path bytes hb
    rw [hservice] at hb
    exact hb
  · intro _
    rw [hservice]
    rfl
  · intro m hm
    cases hm

theorem simulates (hnamed : Named cfg) :
    (machine env cfg).Simulates (Service.machine cfg) (Refines env cfg) where
  init _ hinit := refines_init hinit
  step ls c ms s l c' h hstep := by
    cases l with
    | service l =>
      change (if ownStep l then (Service.step cfg c.service l).map fun s => { c with service := s }
        else none) = some c' at hstep
      split at hstep
      · next hl =>
        obtain ⟨u, hu, rfl⟩ := Option.map_eq_some_iff.mp hstep
        obtain ⟨s', hs', hr⟩ := h.service hl hu
        exact ⟨[l], s', (Service.machine cfg).run_single hs', hr⟩
      · cases hstep
    | download l =>
      refine ⟨[], s, rfl, ?_⟩
      rw [List.append_nil]
      exact h.download hnamed hstep
    | downloaded =>
      obtain ⟨m, s', hs', hr⟩ := h.downloaded hnamed hstep
      exact ⟨[m], s', (Service.machine cfg).run_single hs', hr⟩
    | kill =>
      cases hstep
      exact h.killed hnamed
    | powerLoss dirKept kept garbled =>
      obtain ⟨d, hd, rfl⟩ := Option.map_eq_some_iff.mp hstep
      exact h.losesPower hnamed hd

end Installation

end MusicbrainzIngestion
