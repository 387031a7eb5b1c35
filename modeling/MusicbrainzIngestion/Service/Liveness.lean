import Mathlib.Algebra.Order.BigOperators.Group.List
import MusicbrainzIngestion.Pipeline.Liveness
import MusicbrainzIngestion.VersionCompletion

/-! A run comes to its end. Each file it has yet to look at is worth what its pipeline can
do, each exchange it has yet to declare or to announce one step; shutdown takes the files
that were not started out of the account. Until the run has returned, its next statement
can be executed whatever the surroundings answer. -/

namespace MusicbrainzIngestion
open Base

namespace Service

variable {cfg : ServiceConfig} {s t : Service}

/-! ## What is left of a run -/

/-- The lines of a dump file, as the parser would be given them. -/
def lines (cfg : ServiceConfig) (files : Files) (dt : DataType) : Nat :=
  (cfg.job dt { bytes := files (cfg.dump.path dt), map := ∅ }).size

/-- What processing these files can take, if a file that is still to be fetched has at most
`limit` lines; nothing once shutdown was requested, for then no further file is started. -/
def toProcess (cfg : ServiceConfig) (limit : Nat) (s : Service) (files : List DataType) : Nat :=
  if s.shutdown then 0
  else (files.map fun dt => 10 * max limit (lines cfg s.files dt) + 13).sum

def leftIn (cfg : ServiceConfig) (limit : Nat) (s : Service) : Phase → Nat
  | .idle => 0
  | .entry => toProcess cfg limit s DataType.musicbrainz + 20
  | .downloading => toProcess cfg limit s DataType.musicbrainz + 19
  | .downloaded => toProcess cfg limit s DataType.musicbrainz + 18
  | .discovering => toProcess cfg limit s DataType.musicbrainz + 17
  | .deciding => toProcess cfg limit s s.run.dumpFiles + 16
  | .connecting => toProcess cfg limit s s.run.dumpFiles + 15
  | .declaring rest => toProcess cfg limit s s.run.dumpFiles + 10 + rest.length
  | .starting => toProcess cfg limit s s.run.dumpFiles + 10
  | .mapping => toProcess cfg limit s s.run.dumpFiles + 9
  | .looping rest => toProcess cfg limit s rest + 8
  | .processing dt rest source tasks =>
    Pipeline.left (cfg.job dt source) ⟨s.shared, tasks⟩ + toProcess cfg limit s rest + 9
  | .announcing _ rest _ => rest.length + 3
  | .finalising => 2
  | .reporting => 1

def left (cfg : ServiceConfig) (limit : Nat) (s : Service) : Nat := leftIn cfg limit s s.phase

/-- What the run itself does; the rest is the world around it. -/
def works (s : Service) : Label → Bool
  | .tick _ | .requestShutdown | .crash | .loseMarker | .removeFile _ | .begin _ => false
  | .pipeline l =>
    match s.phase with
    | .processing _ _ _ tasks => Pipeline.works ⟨s.shared, tasks⟩ l
    | _ => false
  | _ => true

/-- The lines of a file that has these bytes. -/
def linesOf (cfg : ServiceConfig) (dt : DataType) (bytes : List UInt8) : Nat :=
  (cfg.job dt { bytes := some bytes, map := ∅ }).size

/-- Steps within one run, in which no file is fetched that has more than `limit` lines. -/
def Within (cfg : ServiceConfig) (limit : Nat) : Label → Prop
  | .begin _ | .crash => False
  | .download fetched _ => ∀ dt bytes, fetched dt = some bytes → linesOf cfg dt bytes ≤ limit
  | _ => True

theorem toProcess_mono {limit : Nat} (hs : s.shutdown = true → t.shutdown = true)
    (hf : ∀ dt, max limit (lines cfg t.files dt) ≤ max limit (lines cfg s.files dt))
    (files : List DataType) : toProcess cfg limit t files ≤ toProcess cfg limit s files := by
  unfold toProcess
  by_cases ht : t.shutdown = true
  · simp [ht]
  · have hsf : ¬ s.shutdown = true := fun h => ht (hs h)
    rw [if_neg ht, if_neg hsf]
    refine List.sum_le_sum fun dt _ => ?_
    have hdt := hf dt
    omega

/-- A file that is gone has no lines. -/
theorem lines_removed (files : Files) (gone dt : DataType) :
    lines cfg (fun path => if path = cfg.dump.path gone then none else files path) dt ≤
      lines cfg files dt := by
  unfold lines
  dsimp only
  split
  · exact Nat.zero_le _
  · exact Nat.le_refl _

/-- A fetch brings files of at most `limit` lines and keeps the files that were there. -/
theorem lines_fetchMissing {limit : Nat} {fetched : DataType → Option (List UInt8)}
    (hf : ∀ dt bytes, fetched dt = some bytes → linesOf cfg dt bytes ≤ limit) (files : Files)
    (dt : DataType) : max limit (lines cfg (fetchMissing cfg files fetched) dt) ≤
      max limit (lines cfg files dt) := by
  unfold lines fetchMissing
  cases hold : files (cfg.dump.path dt) with
  | some bytes => exact Nat.le_refl _
  | none =>
    refine max_le (le_max_left _ _) (le_trans ?_ (le_max_left _ _))
    cases hfind : DataType.musicbrainz.find? fun dt' => cfg.dump.path dt' = cfg.dump.path dt with
    | none => exact Nat.zero_le _
    | some dt' =>
      have hpath : cfg.dump.path dt' = cfg.dump.path dt := by simpa using List.find?_some hfind
      cases cfg.dump.path_injective hpath
      cases hget : fetched dt with
      | none =>
        simp only [Option.bind_some, hget]
        exact Nat.zero_le _
      | some bytes =>
        simp only [Option.bind_some, hget]
        exact hf dt bytes hget

theorem toProcess_cons (limit : Nat) (dt : DataType) (rest : List DataType) :
    toProcess cfg limit s (dt :: rest) =
      (if s.shutdown then 0 else 10 * max limit (lines cfg s.files dt) + 13) +
        toProcess cfg limit s rest := by
  unfold toProcess
  split <;> rfl

/-- The files that are found are among the four. -/
theorem toProcess_found (limit : Nat) {dumpFiles : List DataType} {keep : DataType → Bool}
    (h : dumpFiles.Perm (DataType.musicbrainz.filter keep)) :
    toProcess cfg limit s dumpFiles ≤ toProcess cfg limit s DataType.musicbrainz := by
  unfold toProcess
  split
  · exact Nat.le_refl _
  · rw [(h.map _).sum_eq]
    exact (List.filter_sublist.map _).sum_le_sum fun _ _ => Nat.zero_le _

theorem left_saveThen (limit : Nat) (saved : Bool) (phase : Phase) :
    left cfg limit (s.saveThen saved phase) ≤ leftIn cfg limit s phase := by
  cases saved with
  | false => exact Nat.zero_le _
  | true => cases phase <;> exact Nat.le_refl _

/-- A file that is started is worth less than one that is still to be looked at. -/
theorem leftIn_spawn (limit : Nat) {dt : DataType} {rest : List DataType}
    (hs : s.shutdown = false) :
    leftIn cfg limit s (.processing dt rest
      { bytes := s.files (cfg.dump.path dt), map := s.run.artistDiscogsMap }
      (Tasks.spawn cfg.pipeline)) < leftIn cfg limit s (.looping (dt :: rest)) := by
  have hstart : Pipeline.left (cfg.job dt
      { bytes := s.files (cfg.dump.path dt), map := s.run.artistDiscogsMap })
      ⟨s.shared, Tasks.spawn cfg.pipeline⟩ = 10 * lines cfg s.files dt + 10 :=
    Pipeline.left_start s.shared
  have hmax : lines cfg s.files dt ≤ max limit (lines cfg s.files dt) := le_max_right _ _
  simp only [leftIn, hstart, toProcess_cons, hs, Bool.false_eq_true, if_false]
  omega

theorem settleLineage_left (limit : Nat) (dt : DataType) (source : Source) (before after : Main) :
    left cfg limit (s.settleLineage dt source before after) = left cfg limit s := by
  unfold settleLineage
  split <;> rfl

theorem left_mono {limit : Nat} (hp : t.phase = s.phase) (hr : t.run = s.run)
    (hle : ∀ files, toProcess cfg limit t files ≤ toProcess cfg limit s files) :
    left cfg limit t ≤ left cfg limit s := by
  rw [left, left, hp]
  cases s.phase with
  | idle | announcing | finalising | reporting => exact Nat.le_refl _
  | entry | downloading | downloaded | discovering => exact Nat.add_le_add_right (hle _) _
  | deciding | connecting | starting | mapping =>
    simp only [leftIn, hr]
    exact Nat.add_le_add_right (hle _) _
  | declaring rest =>
    simp only [leftIn, hr]
    exact Nat.add_le_add_right (Nat.add_le_add_right (hle _) _) _
  | looping rest => exact Nat.add_le_add_right (hle _) _
  | processing dt rest source tasks =>
    exact Nat.add_le_add_right (Nat.add_le_add_left (hle _) _) _

/-- What the world around the run does adds nothing to what is left of it. -/
theorem left_world {limit : Nat} {l : Label} (hp : t.phase = s.phase) (hr : t.run = s.run)
    (hle : ∀ files, toProcess cfg limit t files ≤ toProcess cfg limit s files)
    (hw : works s l = false) :
    left cfg limit t ≤ left cfg limit s ∧
      (works s l = true → left cfg limit t < left cfg limit s) :=
  ⟨left_mono hp hr hle, fun h => absurd (hw.symm.trans h) Bool.noConfusion⟩

/-- A statement that leaves less. -/
theorem left_lowers {limit n : Nat} {l : Label} {phase : Phase} (hp : s.phase = phase)
    (ht : left cfg limit t ≤ n) (hn : n < leftIn cfg limit s phase) :
    left cfg limit t ≤ left cfg limit s ∧
      (works s l = true → left cfg limit t < left cfg limit s) := by
  have hs : left cfg limit s = leftIn cfg limit s phase := by rw [left, hp]
  omega

theorem leftIn_loadMarker (limit : Nat) (readable : Bool) :
    leftIn cfg limit (s.loadMarker cfg readable) .connecting = leftIn cfg limit s .connecting := by
  unfold loadMarker
  split
  · rfl
  · split <;> rfl

/-- A step of the run uses some of what is left; no step within the run adds to it. -/
theorem left_move {limit : Nat} {l : Label} (h : Move cfg s l t) (hok : Within cfg limit l) :
    left cfg limit t ≤ left cfg limit s ∧
      (works s l = true → left cfg limit t < left cfg limit s) := by
  cases h with
  | ticks | markerLost => exact left_world rfl rfl (fun _ => Nat.le_refl _) rfl
  | shutdownRequested => exact left_world rfl rfl (toProcess_mono (fun _ => rfl) fun _ => le_rfl) rfl
  | fileRemoved dt =>
    exact left_world rfl rfl (toProcess_mono (fun hs => hs) fun dt' =>
      max_le_max_left limit (lines_removed s.files dt dt')) rfl
  | begins | crashes => exact hok.elim
  | stops hp hs =>
    rcases hp with hp | hp <;> exact left_lowers hp (Nat.zero_le 0) (Nat.succ_pos _)
  | enters hp hs => exact left_lowers hp (Nat.le_refl _) (Nat.lt_succ_self _)
  | goesOn hp hs => exact left_lowers hp (Nat.le_refl _) (Nat.lt_succ_self _)
  | downloadFails hp => exact left_lowers hp (Nat.zero_le 0) (Nat.succ_pos _)
  | @downloads fetched hp hall =>
    have hfetched := toProcess_mono
      (s := s) (t := { s with files := fetchMissing cfg s.files fetched }) (fun hs => hs)
      (lines_fetchMissing hok s.files) DataType.musicbrainz
    exact left_lowers hp (Nat.add_le_add_right hfetched 18) (Nat.lt_succ_self _)
  | discoverFails hp | findsNone hp => exact left_lowers hp (Nat.zero_le 0) (Nat.succ_pos _)
  | discovers hp hperm hsome =>
    exact left_lowers hp (Nat.add_le_add_right (toProcess_found limit hperm) 16) (Nat.lt_succ_self _)
  | skips hp => exact left_lowers hp (Nat.zero_le 0) (Nat.succ_pos _)
  | reprocesses hp hd | continues hp hd =>
    exact left_lowers hp (Nat.le_of_eq (leftIn_loadMarker limit _)) (Nat.lt_succ_self _)
  | connectFails hp => exact left_lowers hp (Nat.zero_le 0) (Nat.succ_pos _)
  | connects hp => exact left_lowers hp (Nat.le_refl _) (Nat.lt_succ_self _)
  | declareFails hp => exact left_lowers hp (Nat.zero_le 0) (Nat.succ_pos _)
  | declares hp => exact left_lowers hp (Nat.le_refl _) (Nat.lt_succ_self _)
  | declaresLast hp => exact left_lowers hp (Nat.le_refl _) (Nat.lt_succ_self _)
  | starts hp hm | resumeFails hp hm =>
    exact left_lowers hp (left_saveThen limit _ .mapping) (Nat.lt_succ_self _)
  | resumes hp hm ht =>
    subst ht
    exact left_lowers hp (left_saveThen limit true .mapping) (Nat.lt_succ_self _)
  | phaseOver hp => exact left_lowers hp (Nat.le_refl _) (Nat.lt_succ_self _)
  | mapFails hp => exact left_lowers hp (Nat.zero_le 0) (Nat.succ_pos _)
  | maps hp hmap => exact left_lowers hp (Nat.le_refl _) (Nat.lt_succ_self _)
  | loopEnds hp hs => exact left_lowers hp (Nat.le_refl 7) (Nat.lt_of_lt_of_le (by decide) (Nat.le_add_left 8 _))
  | loopEndsFailed hp hs => exact left_lowers hp (Nat.le_refl 2) (Nat.lt_of_lt_of_le (by decide) (Nat.le_add_left 8 _))
  | interrupted hp hs => exact left_lowers hp (Nat.le_refl 2) (Nat.lt_of_lt_of_le (by decide) (Nat.le_add_left 8 _))
  | @skipsFile _ dt rest records hp hs hc =>
    refine left_lowers hp (Nat.le_refl _) ?_
    change toProcess cfg limit s rest + 8 < toProcess cfg limit s (dt :: rest) + 8
    rw [toProcess_cons, hs]
    simp only [Bool.false_eq_true, if_false]
    omega
  | @startsFile saved dt rest hp hs hc =>
    exact left_lowers hp (left_saveThen limit saved _) (leftIn_spawn limit hs)
  | @pipelineMoves l dt rest source tasks p hp hm =>
    obtain ⟨hle, hlt⟩ := Pipeline.step_left hm
    rw [settleLineage_left]
    change Pipeline.left (cfg.job dt source) p + toProcess cfg limit s rest + 9 ≤ _ ∧
      (_ → Pipeline.left (cfg.job dt source) p + toProcess cfg limit s rest + 9 < _)
    rw [left, hp]
    refine ⟨Nat.add_le_add_right (Nat.add_le_add_right hle _) 9, fun hw => ?_⟩
    simp only [works, hp] at hw
    exact Nat.add_lt_add_right (Nat.add_lt_add_right (hlt hw) _) 9
  | @fileEnds dt rest source tasks _ _ hp hm =>
    refine left_lowers hp (Nat.le_refl _) ?_
    change toProcess cfg limit s rest + 8 <
      Pipeline.left (cfg.job dt source) ⟨s.shared, tasks⟩ + toProcess cfg limit s rest + 9
    omega
  | fileFails hp hm => exact left_lowers hp (Nat.zero_le 0) (Nat.succ_pos _)
  | announces hp => exact left_lowers hp (Nat.le_refl _) (Nat.lt_succ_self _)
  | announced hp => exact left_lowers hp (Nat.le_refl _) (Nat.lt_succ_self _)
  | announcingFails hp he => exact left_lowers hp (Nat.le_refl _) (Nat.lt_succ_self _)
  | finalises hp => exact left_lowers hp (left_saveThen limit _ .reporting) (Nat.lt_succ_self _)
  | reports hp => exact left_lowers hp (Nat.zero_le 0) (Nat.succ_pos _)

/-! ## The run is never stuck -/

/-- What the surroundings answer when the run asks them. -/
structure Answers where
  pipeline : Pipeline.Answers
  fetched : DataType → List UInt8
  downloadFault : Option Error
  discoverFault : Option Error
  order : List DataType → List DataType
  order_perm : ∀ files, (order files).Perm files
  readable : Bool
  connectFault : Option Error
  declareFault : Option Error
  mapFault : Option Error
  saved : Bool
  reply : Reply

/-- The files as the map of them iterates, or the error of looking for them. -/
def Answers.found (cfg : ServiceConfig) (a : Answers) (s : Service) : Except Error (List DataType) :=
  match a.discoverFault with
  | some e => .error e
  | none => .ok (a.order (DataType.musicbrainz.filter (s.present cfg)))

/-- The statements the run may execute on these answers. -/
def Answers.labels (cfg : ServiceConfig) (a : Answers) (s : Service) : List Label :=
  [.checkShutdown, .download (fun dt => some (a.fetched dt)) a.downloadFault,
    .discover (a.found cfg s), .decide a.readable, .connect a.connectFault,
    .declareExchange a.declareFault, .startPhase a.saved, .buildMap a.mapFault, .nextFile a.saved,
    .fileDone, .announce a.reply, .announced, .finalise a.saved, .report] ++
  a.pipeline.labels.map .pipeline

/-- Nothing fetched has more than `limit` lines. -/
def Answers.Limited (cfg : ServiceConfig) (limit : Nat) (a : Answers) : Prop :=
  ∀ dt, linesOf cfg dt (a.fetched dt) ≤ limit

/-- What a run keeps while it is under way. -/
def Going (s : Service) : Prop :=
  match s.phase with
  | .declaring rest => rest ≠ []
  | .processing _ _ _ tasks => Pipeline.Lively tasks
  | _ => True

/-- A run that is over has returned something. -/
def Returned (s : Service) : Prop :=
  match s.phase with
  | .idle => s.outcome.isSome = true
  | _ => True

theorem going_congr (hp : t.phase = s.phase) (h : Going s) : Going t := by
  unfold Going at h ⊢
  rw [hp]
  exact h

theorem going_saveThen {saved : Bool} {phase : Phase}
    (h : Going ({ s with phase := phase } : Service)) : Going (s.saveThen saved phase) := by
  cases saved with
  | false => trivial
  | true => exact h

theorem going_settleLineage (dt : DataType) (source : Source) (before after : Main)
    (h : Going s) : Going (s.settleLineage dt source before after) := by
  unfold settleLineage
  split <;> exact h

theorem going_move {l : Label} (hqueue : 0 < cfg.pipeline.queueSize) (h : Move cfg s l t)
    (hg : Going s) : Going t := by
  cases h with
  | ticks | markerLost | shutdownRequested | fileRemoved => exact going_congr rfl hg
  | connects | declares => exact List.cons_ne_nil _ _
  | starts | resumeFails | finalises => exact going_saveThen trivial
  | resumes hp hm ht =>
    subst ht
    trivial
  | startsFile hp hs hc => exact going_saveThen (Pipeline.lively_spawn hqueue)
  | pipelineMoves hp hm =>
    refine going_settleLineage _ _ _ _ ?_
    unfold Going at hg
    rw [hp] at hg
    exact Pipeline.lively_move (Pipeline.step_move hm) hg
  | _ => trivial

theorem returned_saveThen {saved : Bool} {phase : Phase}
    (h : Returned ({ s with phase := phase } : Service)) : Returned (s.saveThen saved phase) := by
  cases saved with
  | false => exact rfl
  | true => exact h

theorem returned_move {limit : Nat} {l : Label} (h : Move cfg s l t) (hok : Within cfg limit l)
    (hr : Returned s) : Returned t := by
  cases h with
  | ticks | markerLost | shutdownRequested | fileRemoved => exact hr
  | begins | crashes => exact hok.elim
  | stops | downloadFails | discoverFails | findsNone | skips | connectFails | declareFails
  | mapFails | fileFails | reports => exact rfl
  | starts | resumeFails | finalises | startsFile => exact returned_saveThen trivial
  | resumes hp hm ht =>
    subst ht
    trivial
  | pipelineMoves hp hm =>
    unfold settleLineage
    split <;> trivial
  | _ => trivial

variable (cfg) in
/-- Some statement of the run can be executed on these answers. -/
def CanMove (limit : Nat) (a : Answers) (s : Service) : Prop :=
  ∃ l ∈ a.labels cfg s, Within cfg limit l ∧ works s l = true ∧ (step cfg s l).isSome

/-- A download that fetches every missing file leaves all four present. -/
theorem present_fetchMissing (files : Files) (fetched : DataType → List UInt8) {dt : DataType}
    (hdt : dt ∈ DataType.musicbrainz) :
    (fetchMissing cfg files (fun dt => some (fetched dt)) (cfg.dump.path dt)).isSome = true := by
  unfold fetchMissing
  cases hold : files (cfg.dump.path dt) with
  | some bytes => rfl
  | none =>
    cases hfind : DataType.musicbrainz.find? fun dt' => cfg.dump.path dt' = cfg.dump.path dt with
    | none => exact absurd (List.find?_eq_none.mp hfind dt hdt) (by simp)
    | some dt' => rfl

theorem canMove {limit : Nat} {a : Answers} (ha : a.Limited cfg limit) (hg : Going s)
    (hopen : s.phase ≠ .idle) : CanMove cfg limit a s := by
  cases hp : s.phase with
  | idle => exact absurd hp hopen
  | entry | downloaded =>
    refine ⟨.checkShutdown, by simp [Answers.labels], trivial, rfl, ?_⟩
    simp only [step, checkShutdown, hp]
    split <;> rfl
  | downloading =>
    refine ⟨.download (fun dt => some (a.fetched dt)) a.downloadFault, by simp [Answers.labels],
      ?_, rfl, ?_⟩
    · intro dt bytes hbytes
      cases hbytes
      exact ha dt
    · simp only [step, download, hp]
      split
      · rfl
      · rw [if_pos]
        · rfl
        · exact List.all_eq_true.mpr fun dt hdt => present_fetchMissing s.files a.fetched hdt
  | discovering =>
    refine ⟨.discover (a.found cfg s), by simp [Answers.labels], trivial, rfl, ?_⟩
    simp only [step, discover, hp, Answers.found]
    cases a.discoverFault with
    | some e => rfl
    | none =>
      simp only [if_pos (a.order_perm _)]
      split <;> rfl
  | deciding =>
    refine ⟨.decide a.readable, by simp [Answers.labels], trivial, rfl, ?_⟩
    simp only [step, Service.decide, hp]
    split <;> rfl
  | connecting =>
    refine ⟨.connect a.connectFault, by simp [Answers.labels], trivial, rfl, ?_⟩
    simp only [step, connect, hp]
    split <;> rfl
  | declaring rest =>
    refine ⟨.declareExchange a.declareFault, by simp [Answers.labels], trivial, rfl, ?_⟩
    unfold Going at hg
    rw [hp] at hg
    cases rest with
    | nil => exact absurd rfl hg
    | cons dt rest =>
      simp only [step, declareExchange, hp]
      split <;> rfl
  | starting =>
    refine ⟨.startPhase a.saved, by simp [Answers.labels], trivial, rfl, ?_⟩
    simp only [step, startPhase, hp]
    split <;> rfl
  | mapping =>
    refine ⟨.buildMap a.mapFault, by simp [Answers.labels], trivial, rfl, ?_⟩
    simp only [step, buildMap, hp]
    split <;> rfl
  | looping rest =>
    refine ⟨.nextFile a.saved, by simp [Answers.labels], trivial, rfl, ?_⟩
    cases rest with
    | nil => simp [step, nextFile, hp]
    | cons dt rest =>
      simp only [step, nextFile, hp]
      split
      · rfl
      · split <;> rfl
  | processing dt rest source tasks =>
    unfold Going at hg
    rw [hp] at hg
    cases hm : tasks.main with
    | finished fileSuccess totalCount saved =>
      refine ⟨.fileDone, by simp [Answers.labels], trivial, rfl, ?_⟩
      simp only [step, fileDone, hp, hm]
      split <;> rfl
    | _ =>
      obtain ⟨l, hl, hsome⟩ := Pipeline.canMove (p := ⟨s.shared, tasks⟩) hg.wired hg.joined hg.roomy
        (by simp [hm, Main.isFinished])
      refine ⟨.pipeline l, ?_, trivial, ?_, ?_⟩
      · exact List.mem_append_right _ (List.mem_map_of_mem hl)
      · simp only [works, hp]
        exact Pipeline.works_of_offered hl
      · simp only [step, Service.pipeline, hp, Option.isSome_map]
        exact hsome
  | announcing message rest errors =>
    cases rest with
    | nil =>
      refine ⟨.announced, by simp [Answers.labels], trivial, rfl, ?_⟩
      simp only [step, Service.announced, hp]
      split <;> rfl
    | cons dt rest =>
      exact ⟨.announce a.reply, by simp [Answers.labels], trivial, rfl, by
        simp [step, announce, hp]⟩
  | finalising =>
    exact ⟨.finalise a.saved, by simp [Answers.labels], trivial, rfl, by simp [step, finalise, hp]⟩
  | reporting =>
    exact ⟨.report, by simp [Answers.labels], trivial, rfl, by simp [step, report, hp]⟩

/-! ## Every run returns -/

theorem going_of_reachable (hqueue : 0 < cfg.pipeline.queueSize) (h : (machine cfg).Reachable s) :
    Going s := by
  refine Machine.ReachableBy.invariant ?_ (fun s l t _ hg hstep => ?_) h
  · rintro s ⟨files, now, rfl⟩
    trivial
  · exact going_move hqueue (step_move hstep) hg

theorem countsDown_of {I : Service → Prop} {limit : Nat}
    (hkeeps : ∀ s l t, Within cfg limit l → I s → step cfg s l = some t → I t) :
    (machine cfg).CountsDown I (Within cfg limit) works (left cfg limit) where
  keeps := hkeeps
  works_lt := fun _ _ _ hok _ h hw => (left_move (step_move h) hok).2 hw
  rests_le := fun _ _ _ hok _ h => (left_move (step_move h) hok).1

theorem countsDown (hqueue : 0 < cfg.pipeline.queueSize) (limit : Nat) :
    (machine cfg).CountsDown (fun s => Going s ∧ Returned s) (Within cfg limit) works
      (left cfg limit) :=
  countsDown_of fun _ _ _ hok hs h =>
    ⟨going_move hqueue (step_move h) hs.1, returned_move (step_move h) hok hs.2⟩

theorem neverStuck (limit : Nat) :
    (machine cfg).NeverStuck (fun s => Going s ∧ Returned s) (fun s => s.phase = .idle)
      (Within cfg limit) works (Answers.Limited cfg limit) (Answers.labels cfg) :=
  fun _ _ ha hs hopen => canMove ha hs.1 hopen

/-- However the tasks of its files interleave and whatever fails, a run executes at most
`toProcess cfg limit s DataType.musicbrainz + 20` statements when no file it fetches has more
than `limit` lines; and from every point of it, whatever the surroundings answer, it can be
carried to the point where it returns. -/
theorem processMusicbrainzData_returns (cfg : ServiceConfig) (hqueue : 0 < cfg.pipeline.queueSize)
    (limit : Nat) (s t : Service) (ls : List Label) (hreachable : (machine cfg).Reachable s)
    (hentry : s.phase = .entry) (hls : ∀ l ∈ ls, Within cfg limit l)
    (hrun : (machine cfg).run s ls = some t) (answers : Nat → Answers)
    (hanswers : ∀ i, (answers i).Limited cfg limit) :
    ∃ ms u outcome, (machine cfg).run t ms = some u ∧
      (machine cfg).Follows (Answers.labels cfg) answers t ms ∧
      u.phase = .idle ∧ u.outcome = some outcome ∧
      (machine cfg).work works s ls + ms.length ≤
        toProcess cfg limit s DataType.musicbrainz + 20 := by
  have hcounts := countsDown hqueue limit
  have hs : Going s ∧ Returned s :=
    ⟨going_of_reachable hqueue hreachable, by rw [Returned, hentry]; trivial⟩
  have hwork := hcounts.work_le hls hs hrun
  have ht := hcounts.run_keeps hls hs hrun
  obtain ⟨ms, u, hms, hidle, hok, hlen, hfollows⟩ :=
    hcounts.completes (neverStuck limit) hanswers ht
  have hu : Returned u := (hcounts.run_keeps hok ht hms).2
  rw [Returned, hidle] at hu
  obtain ⟨outcome, houtcome⟩ := Option.isSome_iff_exists.mp hu
  refine ⟨ms, u, outcome, hms, hfollows, hidle, houtcome, ?_⟩
  have hbound : left cfg limit s = toProcess cfg limit s DataType.musicbrainz + 20 := by
    rw [left, hentry, leftIn]
  omega

/-- A run that finds all its files empty. -/
def emptyAnswers : Answers where
  pipeline := ⟨none, none, true, none, .confirmation true none⟩
  fetched _ := []
  downloadFault := none
  discoverFault := none
  order := id
  order_perm _ := .refl _
  readable := true
  connectFault := none
  declareFault := none
  mapFault := none
  saved := true
  reply := .confirmation true none

theorem emptyAnswers_limited (dt : DataType) : linesOf demoService dt (emptyAnswers.fetched dt) ≤ 0 := by
  cases dt <;> decide +kernel

theorem processMusicbrainzData_returns_demo : ∃ t ms u outcome,
    demoState [.begin false, .checkShutdown] = some t ∧
    (machine demoService).run t ms = some u ∧ u.phase = .idle ∧ u.outcome = some outcome ∧
    ms.length ≤ 81 := by
  obtain ⟨s, hs, hentry, hfiles⟩ : ∃ s, demoState [.begin false] = some s ∧ s.phase = .entry ∧
      toProcess demoService 0 s DataType.musicbrainz = 62 := ⟨_, rfl, rfl, by decide +kernel⟩
  obtain ⟨t, ht, hwork⟩ : ∃ t, (machine demoService).run s [.checkShutdown] = some t ∧
      (machine demoService).work works s [.checkShutdown] = 1 := by
    cases hs
    exact ⟨_, rfl, rfl⟩
  obtain ⟨ms, u, outcome, hms, -, hidle, houtcome, hle⟩ :=
    processMusicbrainzData_returns demoService (by decide) 0 s t [.checkShutdown]
      ⟨_, _, ⟨demoFiles, 0, rfl⟩, fun _ _ => trivial, hs⟩ hentry (by simp [Within]) ht
      (fun _ => emptyAnswers) fun _ => emptyAnswers_limited
  refine ⟨t, ms, u, outcome, (machine demoService).run_trans hs ht, hms, hidle, houtcome, ?_⟩
  omega

/-! ## Shutdown is prompt -/

/-- What is left of the file in work. -/
def leftInFile (cfg : ServiceConfig) (s : Service) : Nat :=
  match s.phase with
  | .processing dt _ source tasks => Pipeline.left (cfg.job dt source) ⟨s.shared, tasks⟩
  | _ => 0

/-- The phases in which the exchanges are still to be declared; there are four. -/
def Declared (s : Service) : Prop :=
  match s.phase with
  | .declaring rest => rest.length ≤ 4
  | .announcing _ rest _ => rest.length ≤ 4
  | _ => True

theorem declared_saveThen {saved : Bool} {phase : Phase}
    (h : Declared ({ s with phase := phase } : Service)) : Declared (s.saveThen saved phase) := by
  cases saved with
  | false => trivial
  | true => exact h

theorem declared_move {l : Label} (h : Move cfg s l t) (hd : Declared s) : Declared t := by
  unfold Declared at hd
  cases h with
  | ticks | markerLost | shutdownRequested | fileRemoved => exact hd
  | connects | loopEnds => exact Nat.le_refl 4
  | declares hp =>
    rw [hp] at hd
    exact Nat.le_of_succ_le hd
  | announces hp =>
    rw [hp] at hd
    exact Nat.le_of_succ_le hd
  | starts | resumeFails | finalises | startsFile => exact declared_saveThen trivial
  | resumes hp hm ht =>
    subst ht
    trivial
  | pipelineMoves hp hm =>
    unfold settleLineage
    split <;> trivial
  | _ => trivial

/-- Once shutdown was requested only the file in work counts. -/
theorem left_of_shutdown (limit : Nat) (hs : s.shutdown = true) (hd : Declared s) :
    left cfg limit s ≤ leftInFile cfg s + 20 := by
  have hnone : ∀ files, toProcess cfg limit s files = 0 := fun files => by rw [toProcess, if_pos hs]
  unfold Declared at hd
  unfold left leftInFile
  cases hp : s.phase <;> simp only [leftIn, hnone, hp] at hd ⊢ <;> omega

/-- Since `s₀`, in which shutdown was requested, no file was started. -/
structure Quiet (s₀ s : Service) : Prop where
  shutdown : s.shutdown = true
  started : ∀ dt rest source tasks, s.phase = .processing dt rest source tasks →
    ∃ tasks₀, s₀.phase = .processing dt rest source tasks₀
  log : ∃ attempts, s.shared.log = s₀.shared.log ++ attempts ∧ ∀ a ∈ attempts,
    (∃ e, a.message = .extractionComplete e) ∨
    ∃ rest source tasks, s₀.phase = .processing a.exchange rest source tasks

end Service

/-- A move of a file's pipeline publishes at most once, to the exchange of the file. -/
theorem Pipeline.log_move {cfg : PipelineConfig} {job : Job} {p q : Pipeline}
    (h : Pipeline.Move cfg job p q) : ∃ attempts, q.shared.log = p.shared.log ++ attempts ∧
      ∀ a ∈ attempts, a.exchange = job.dataType := by
  cases h with
  | publisherConfirms | publisherLoses | announces => exact ⟨[_], rfl, by simp⟩
  | _ => exact ⟨[], (List.append_nil _).symm, by simp⟩

namespace Service

variable {cfg : ServiceConfig} {s s₀ t : Service}

theorem quiet_refl (hs : s.shutdown = true) : Quiet s s where
  shutdown := hs
  started := fun _ _ _ tasks hp => ⟨tasks, hp⟩
  log := ⟨[], (List.append_nil _).symm, by simp⟩

/-- A statement that neither publishes nor is part of a file. -/
theorem Quiet.goesOn (h : Quiet s₀ s) (hs : t.shutdown = s.shutdown) (hl : t.shared.log = s.shared.log)
    (hp : ∀ dt rest source tasks, t.phase ≠ .processing dt rest source tasks) : Quiet s₀ t where
  shutdown := hs.trans h.shutdown
  started := fun dt rest source tasks hq => absurd hq (hp dt rest source tasks)
  log := hl ▸ h.log

theorem Quiet.saveThen (h : Quiet s₀ s) {saved : Bool} {phase : Phase}
    (hs : t.shutdown = s.shutdown) (hl : t.shared.log = s.shared.log)
    (hp : ∀ dt rest source tasks, phase ≠ .processing dt rest source tasks) :
    Quiet s₀ (t.saveThen saved phase) := by
  cases saved with
  | false => exact h.goesOn hs hl fun _ _ _ _ hq => by cases hq
  | true => exact h.goesOn hs hl hp

/-- A publish of the file in work, or of the announcement. -/
theorem published_append {log more : List Attempt} {P : Attempt → Prop}
    (h : ∃ attempts, log = s₀.shared.log ++ attempts ∧ ∀ a ∈ attempts, P a)
    (hmore : ∀ a ∈ more, P a) :
    ∃ attempts, log ++ more = s₀.shared.log ++ attempts ∧ ∀ a ∈ attempts, P a := by
  obtain ⟨attempts, rfl, hall⟩ := h
  refine ⟨attempts ++ more, List.append_assoc _ _ _, fun a ha => ?_⟩
  rcases List.mem_append.mp ha with ha | ha
  · exact hall a ha
  · exact hmore a ha

theorem quiet_move {limit : Nat} {l : Label} (h : Move cfg s l t) (hok : Within cfg limit l)
    (hq : Quiet s₀ s) : Quiet s₀ t := by
  have hstarted : ¬ s.shutdown = false := fun hs => Bool.noConfusion (hq.shutdown.symm.trans hs)
  cases h with
  | ticks | markerLost | fileRemoved => exact ⟨hq.shutdown, hq.started, hq.log⟩
  | shutdownRequested => exact ⟨rfl, hq.started, hq.log⟩
  | begins | crashes => exact hok.elim
  | enters hp hs | goesOn hp hs | skipsFile hp hs hc | startsFile hp hs hc => exact absurd hs hstarted
  | skips | reprocesses | continues =>
    obtain ⟨marker, loaded, lineage, heq⟩ := loadMarker_eq cfg s ‹Bool›
    rw [heq]
    exact hq.goesOn rfl rfl fun _ _ _ _ hp => by cases hp
  | starts | resumeFails | finalises =>
    exact hq.saveThen rfl rfl fun _ _ _ _ hp => by cases hp
  | resumes hp hm ht =>
    subst ht
    exact hq.goesOn rfl rfl fun _ _ _ _ hp => by cases hp
  | announces hp =>
    exact {
      shutdown := hq.shutdown
      started := fun _ _ _ _ hq => by cases hq
      log := published_append hq.log (by simp) }
  | @pipelineMoves l dt rest source tasks p hp hm =>
    obtain ⟨attempts, hlog, hall⟩ := Pipeline.log_move (Pipeline.step_move hm)
    obtain ⟨tasks₀, hphase⟩ := hq.started dt rest source tasks hp
    have hquiet : Quiet s₀
        { s with shared := p.shared, phase := .processing dt rest source p.tasks } := {
      shutdown := hq.shutdown
      started := fun _ _ _ _ ht => by
        cases ht
        exact ⟨tasks₀, hphase⟩
      log := by
        rw [show p.shared.log = s.shared.log ++ attempts from hlog]
        refine published_append hq.log fun a ha => .inr ?_
        rw [show a.exchange = dt from hall a ha]
        exact ⟨rest, source, tasks₀, hphase⟩ }
    unfold settleLineage
    split <;> exact ⟨hquiet.shutdown, hquiet.started, hquiet.log⟩
  | _ => exact hq.goesOn rfl rfl fun _ _ _ _ hp => by cases hp

theorem declared_of_reachable (h : (machine cfg).Reachable s) : Declared s := by
  refine Machine.ReachableBy.invariant ?_ (fun s l t _ hd hstep => ?_) h
  · rintro s ⟨files, now, rfl⟩
    trivial
  · exact declared_move (step_move hstep) hd

/-- A run that is asked to shut down finishes the file in work and starts no other: what is
left to execute is what is left of that file and at most twenty statements, and all it
publishes is of that file, or the announcement of a version all of whose files were done. -/
theorem shutdown_finishes_file (cfg : ServiceConfig) (limit : Nat) (s t : Service) (ls : List Label)
    (hreachable : (machine cfg).Reachable s) (hshutdown : s.shutdown = true)
    (hls : ∀ l ∈ ls, Within cfg limit l) (hrun : (machine cfg).run s ls = some t) :
    (machine cfg).work works s ls ≤ leftInFile cfg s + 20 ∧
    (∀ dt rest source tasks, t.phase = .processing dt rest source tasks →
      ∃ tasks₀, s.phase = .processing dt rest source tasks₀) ∧
    ∃ attempts, t.shared.log = s.shared.log ++ attempts ∧ ∀ a ∈ attempts,
      (∃ e, a.message = .extractionComplete e) ∨
      ∃ rest source tasks, s.phase = .processing a.exchange rest source tasks := by
  have hquiet : Quiet s t := by
    refine (machine cfg).run_preserves (c := fun _ l => Within cfg limit l)
      (fun _ _ _ hl hq hstep => quiet_move (step_move hstep) hl hq)
      ((machine cfg).along_of_labels hls s) (quiet_refl hshutdown) hrun
  have hcounts : (machine cfg).CountsDown (fun _ => True) (Within cfg limit) works (left cfg limit) :=
    countsDown_of fun _ _ _ _ _ _ => trivial
  have hwork := hcounts.work_le hls trivial hrun
  have hleft : left cfg limit s ≤ leftInFile cfg s + 20 :=
    left_of_shutdown limit hshutdown (declared_of_reachable hreachable)
  exact ⟨by omega, hquiet.started, hquiet.log⟩

/-- Shutdown is requested while the artists are in work; they are finished and nothing else. -/
theorem shutdown_finishes_file_demo : ∃ s t,
    demoState (entryRun ++ [.nextFile true, .requestShutdown]) = some s ∧
    (machine demoService).run s (emptyFileRun.map .pipeline ++
      [.fileDone, .nextFile true, .finalise true, .report]) = some t ∧
    (machine demoService).work works s (emptyFileRun.map .pipeline ++
      [.fileDone, .nextFile true, .finalise true, .report]) ≤ 30 ∧
    ∀ dt rest source tasks, t.phase = .processing dt rest source tasks →
      ∃ tasks₀, s.phase = .processing dt rest source tasks₀ := by
  have hruns : (demoState (entryRun ++ [.nextFile true, .requestShutdown])).any (fun s =>
      s.shutdown && (leftInFile demoService s).ble 10 &&
        ((machine demoService).run s (emptyFileRun.map .pipeline ++
          [.fileDone, .nextFile true, .finalise true, .report])).isSome) = true := by
    decide +kernel
  obtain ⟨s, hs, hall⟩ := (Option.any_eq_true _ _).mp hruns
  simp only [Bool.and_eq_true, Nat.ble_eq] at hall
  obtain ⟨⟨hshutdown, hleft⟩, hsome⟩ := hall
  obtain ⟨t, ht⟩ := Option.isSome_iff_exists.mp hsome
  obtain ⟨hwork, hstarted, -⟩ := shutdown_finishes_file demoService 0 s t _
    ⟨_, _, ⟨demoFiles, 0, rfl⟩, fun _ _ => trivial, hs⟩ hshutdown
    (by simp [emptyFileRun, Within]) ht
  exact ⟨s, t, hs, ht, by omega, hstarted⟩

end Service

end MusicbrainzIngestion
