import MusicbrainzIngestion.Base.Work
import MusicbrainzIngestion.DownloadTrust

/-! The downloader always returns. An attempt is over after as many pieces as its response
has, an entity after three attempts, and whatever the network and the disk answer there is a
next step; so a run is bounded by the size of the responses alone. -/

namespace MusicbrainzIngestion
open Base

namespace Downloader

variable {env : DownloadExternals} {limit : Nat} {d t : Downloader} {l : Label}

/-! ## What is left -/

/-- The pieces of an archive: its entries, and what they hold. -/
def pieces : List (Except Error TarEntry) → Nat
  | [] => 0
  | .ok entry :: rest => entry.chunks.length + 1 + pieces rest
  | .error _ :: rest => 1 + pieces rest

def Stage.left (limit : Nat) : Stage → Nat
  | .preparing => limit + 10
  | .requesting => limit + 9
  | .scanning _ entries => pieces entries + 8
  | .creating _ chunks => chunks.length + 7
  | .copying _ _ chunks _ => chunks.length + 6
  | .finishing _ _ _ => 5
  | .syncing _ _ => 4
  | .draining _ _ => 3
  | .renaming _ => 2
  | .syncingDir => 1
  | .discarding _ => 2
  | .cleaning _ => 1

def entityLeft (limit : Nat) : Nat := 3 * (limit + 10) + 1

def Phase.left (limit : Nat) : Phase → Nat
  | .idle => 0
  | .indexing => 4 * entityLeft limit + 5
  | .checking => 4 * entityLeft limit + 4
  | .summing => 4 * entityLeft limit + 3
  | .makingDir _ => 4 * entityLeft limit + 2
  | .entities _ rest => rest.length * entityLeft limit + 1
  | .acquiring _ job stage => stage.left limit +
      (MB_MAX_DOWNLOAD_RETRIES - job.attempt) * (limit + 10) + job.rest.length * entityLeft limit + 1

def left (limit : Nat) (d : Downloader) : Nat := d.phase.left limit

/-- Has the attempt its request before it? -/
def Stage.asks : Stage → Bool
  | .preparing | .requesting => true
  | _ => false

def Phase.requests : Phase → Nat
  | .idle => 0
  | .indexing | .checking | .summing | .makingDir _ => 12
  | .entities _ rest => 3 * rest.length
  | .acquiring _ job stage => (if stage.asks then 1 else 0) +
      (MB_MAX_DOWNLOAD_RETRIES - job.attempt) + 3 * job.rest.length

/-- The tarball requests that may still be sent. -/
def requests (d : Downloader) : Nat := d.phase.requests

def Label.isRequest : Label → Bool
  | .request _ => true
  | _ => false

/-- The run goes on, and no archive has more pieces than `limit`. -/
def Within (env : DownloadExternals) (limit : Nat) : Label → Prop
  | .begin | .kill | .powerLoss _ _ _ => False
  | .request (.ok response) => ∀ entries, env.entries response = .ok entries → pieces entries ≤ limit
  | _ => True

/-! ## Every step -/

theorem left_retry (limit : Nat) (d : Downloader) (sums : String) (job : Acquisition) (e : Error) :
    (d.retry sums job e).left limit ≤
      (MB_MAX_DOWNLOAD_RETRIES - job.attempt) * (limit + 10) + job.rest.length * entityLeft limit + 1 := by
  unfold retry
  split
  · next hmore =>
    have hnext : MB_MAX_DOWNLOAD_RETRIES - job.attempt =
        MB_MAX_DOWNLOAD_RETRIES - (job.attempt + 1) + 1 := by omega
    rw [hnext, Nat.succ_mul]
    simp only [left, goto, Phase.left, Stage.left]
    omega
  · exact Nat.zero_le _

theorem requests_retry (d : Downloader) (sums : String) (job : Acquisition) (e : Error) :
    (d.retry sums job e).requests ≤
      MB_MAX_DOWNLOAD_RETRIES - job.attempt + 3 * job.rest.length := by
  unfold retry
  split
  · next hmore =>
    simp only [requests, goto, Phase.requests, Stage.asks, if_true]
    omega
  · exact Nat.zero_le _

theorem left_scanned (limit : Nat) (dt : DataType) (response : Text.Stream)
    (entries : List (Except Error TarEntry)) :
    (scanned dt response entries).left limit < pieces entries + 8 := by
  cases entries with
  | nil =>
    simp only [scanned, Stage.left]
    omega
  | cons entry rest =>
    cases entry with
    | error e =>
      simp only [scanned, Stage.left]
      omega
    | ok entry =>
      simp only [scanned, pieces]
      split
      · simp only [Stage.left]
        omega
      · split <;> simp only [Stage.left] <;> omega

theorem asks_scanned (dt : DataType) (response : Text.Stream)
    (entries : List (Except Error TarEntry)) : (scanned dt response entries).asks = false := by
  cases entries with
  | nil => rfl
  | cons entry rest =>
    cases entry with
    | error e => rfl
    | ok entry =>
      simp only [scanned]
      split
      · rfl
      · split <;> rfl

theorem left_move (h : Move env d l t) (hl : Within env limit l) : t.left limit < d.left limit := by
  cases h with
  | begins | killed | losesPower | losesDir => cases hl
  | responds hp he =>
    have hsize := hl _ he
    simp only [left, goto, hp, Phase.left, Stage.left]
    omega
  | @scans sums job response entries hp =>
    have hscanned := left_scanned limit job.entity response entries
    simp only [left, goto, hp, Phase.left]
    rw [Stage.left]
    omega
  | @requestFails sums job e hp =>
    have hretry := left_retry limit d sums job e
    simp only [left, hp, Phase.left, Stage.left] at hretry ⊢
    omega
  | @cleans sums job e removed hp =>
    have hretry := left_retry limit (d.removeTmp job removed) sums job e
    simp only [left, hp, Phase.left, Stage.left] at hretry ⊢
    omega
  | panics hp =>
    simp only [left, finished, hp, Phase.left]
    omega
  | skips hp | acquires hp =>
    simp only [left, goto, hp, Phase.left, Stage.left, List.length_cons, Nat.succ_mul, entityLeft,
      MB_MAX_DOWNLOAD_RETRIES]
    omega
  | makesDir hp =>
    simp only [left, goto, hp, Phase.left, mbEntities, List.length_cons, List.length_nil]
    omega
  | indexFails hp | current hp | sumsFail hp | makeDirFails hp | downloaded hp | noChecksum hp =>
    simp only [left, finished, hp, Phase.left]
    omega
  | writes hp =>
    simp only [left, goto, hp, Phase.left, Stage.left, List.length_cons]
    omega
  | indexed hp | outdated hp | summed hp | prepares hp | unreadable hp | createFails hp
  | encoderFails hp | creates hp | readFails hp | readsEnd hp | writeFails hp | finishFails hp
  | finishes hp | syncFails hp | syncs hp | drainFails hp | mismatches hp | verifies hp
  | renameFails hp | renames hp | leavesDir hp | syncsDir hp | discards hp =>
    simp only [left, goto, hp, Phase.left, Stage.left]
    omega

/-- Only a request uses one up, and nothing adds one. -/
theorem requests_move (h : Move env d l t) (hl : Within env limit l) :
    t.requests + (if l.isRequest then 1 else 0) ≤ d.requests := by
  cases h with
  | begins | killed | losesPower | losesDir => cases hl
  | @requestFails sums job e hp =>
    have hretry := requests_retry d sums job e
    simp only [requests, hp, Phase.requests, Stage.asks, Label.isRequest, if_true] at hretry ⊢
    omega
  | @cleans sums job e removed hp =>
    have hretry := requests_retry (d.removeTmp job removed) sums job e
    simp only [requests, hp, Phase.requests, Stage.asks, Label.isRequest, Bool.false_eq_true,
      if_false] at hretry ⊢
    omega
  | scans hp =>
    simp only [requests, goto, hp, Phase.requests, asks_scanned]
    simp only [Stage.asks, Label.isRequest, Bool.false_eq_true, if_false]
    omega
  | panics | indexFails | current | sumsFail | makeDirFails | downloaded | noChecksum =>
    exact Nat.zero_le _
  | skips hp | acquires hp =>
    simp only [requests, goto, hp, Phase.requests, Stage.asks, Label.isRequest, List.length_cons,
      MB_MAX_DOWNLOAD_RETRIES, Bool.false_eq_true, if_false, if_true]
    omega
  | unreadable hp | responds hp | makesDir hp | indexed hp | outdated hp | summed hp | prepares hp
  | createFails hp | encoderFails hp | creates hp | readFails hp | readsEnd hp | writeFails hp
  | writes hp | finishFails hp | finishes hp | syncFails hp | syncs hp | drainFails hp
  | mismatches hp | verifies hp | renameFails hp | renames hp | leavesDir hp | syncsDir hp
  | discards hp =>
    simp only [requests, goto, hp, Phase.requests, Stage.asks, Label.isRequest, mbEntities,
      List.length_cons, List.length_nil, Bool.false_eq_true, if_false, if_true]
    omega

/-- A run that is over has an outcome. -/
def Reported (d : Downloader) : Prop := d.phase = .idle → ∃ outcome, d.outcome = some outcome

theorem reported_finished (d : Downloader) (outcome : Except Error MbDownloadResult) :
    (d.finished outcome).Reported := fun _ => ⟨outcome, rfl⟩

theorem reported_retry (d : Downloader) (sums : String) (job : Acquisition) (e : Error) :
    (d.retry sums job e).Reported := by
  unfold retry
  split
  · intro hp
    cases hp
  · exact reported_finished _ _

theorem reported_move (h : Move env d l t) (hl : Within env limit l) : t.Reported := by
  cases h with
  | begins | killed | losesPower | losesDir => cases hl
  | requestFails | cleans => exact reported_retry _ _ _ _
  | panics | indexFails | current | sumsFail | makeDirFails | downloaded | noChecksum =>
    exact reported_finished _ _
  | _ =>
    intro hp
    cases hp

theorem countsDown : (machine env).CountsDown Reported (Within env limit) (fun _ _ => true)
    (left limit) where
  keeps := fun _ _ _ hl _ hstep => reported_move (step_move hstep) hl
  works_lt := fun _ _ _ hl _ hstep _ => left_move (step_move hstep) hl
  rests_le := fun _ _ _ hl _ hstep => (left_move (step_move hstep) hl).le

theorem countsRequests : (machine env).CountsDown (fun _ => True) (Within env limit)
    (fun _ l => l.isRequest) requests where
  keeps := fun _ _ _ _ _ _ => trivial
  works_lt := fun s l t hl _ hstep hrequest => by
    have hmove := requests_move (step_move hstep) hl
    rw [hrequest, if_pos rfl] at hmove
    exact hmove
  rests_le := fun s l t hl _ hstep =>
    (Nat.le_add_right _ _).trans (requests_move (step_move hstep) hl)

/-! ## What the surroundings answer -/

structure Answers where
  indexFault : Option Error
  sums : Except Error String
  makeDirFault : Option Error
  removed : Bool
  reply : Except Error Text.Stream
  created : Bool
  encoder : Bool
  written : List UInt8
  writeFault : Bool
  garbage : Option (List UInt8)
  syncFault : Bool
  renameFault : Bool
  dirSynced : Bool

def Answers.labels (a : Answers) (_ : Downloader) : List Label :=
  [.index a.indexFault, .check, .sums a.sums, .makeDir a.makeDirFault, .nextEntity,
    .prepare a.removed, .request a.reply, .scan, .create a.created a.encoder,
    .copy a.written a.writeFault, .finish a.garbage, .sync a.syncFault, .drain,
    .rename a.renameFault, .syncDir a.dirSynced, .discard a.removed, .clean a.removed]

def Answers.Limited (env : DownloadExternals) (limit : Nat) (a : Answers) : Prop :=
  Within env limit (.request a.reply)

/-- Some step is open that the answers allow. -/
def CanMove (env : DownloadExternals) (limit : Nat) (a : Answers) (d : Downloader) : Prop :=
  ∃ l ∈ a.labels d, Within env limit l ∧ true = true ∧ ((machine env).step d l).isSome

theorem canMove_of {a : Answers} (hl : l ∈ a.labels d) (hw : Within env limit l)
    (hstep : (step env d l).isSome = true) : CanMove env limit a d := ⟨l, hl, hw, rfl, hstep⟩

theorem canMove_acquiring {a : Answers} (ha : a.Limited env limit) {sums : String}
    {job : Acquisition} {stage : Stage} (hp : d.phase = .acquiring sums job stage) :
    CanMove env limit a d := by
  cases stage with
  | preparing =>
    refine canMove_of (l := .prepare a.removed) (by simp [Answers.labels]) trivial ?_
    simp only [step, prepare, hp, Option.isSome_some]
  | requesting =>
    refine canMove_of (l := .request a.reply) (by simp [Answers.labels]) ha ?_
    simp only [step, request, hp]
    split
    · rfl
    · split <;> rfl
  | scanning response entries =>
    refine canMove_of (l := .scan) (by simp [Answers.labels]) trivial ?_
    simp only [step, scan, hp, Option.isSome_some]
  | creating response chunks =>
    refine canMove_of (l := .create a.created a.encoder) (by simp [Answers.labels]) trivial ?_
    simp only [step, create, hp]
    split
    · split <;> rfl
    · rfl
  | copying response inode chunks content =>
    refine canMove_of (l := .copy a.written a.writeFault) (by simp [Answers.labels]) trivial ?_
    simp only [step, copy, hp]
    split
    · rfl
    · rfl
    · split <;> rfl
  | finishing response inode content =>
    refine canMove_of (l := .finish a.garbage) (by simp [Answers.labels]) trivial ?_
    simp only [step, finish, hp]
    split <;> rfl
  | syncing response inode =>
    refine canMove_of (l := .sync a.syncFault) (by simp [Answers.labels]) trivial ?_
    simp only [step, sync, hp]
    split <;> rfl
  | draining response inode =>
    refine canMove_of (l := .drain) (by simp [Answers.labels]) trivial ?_
    simp only [step, drain, hp]
    split
    · rfl
    · split <;> rfl
  | «renaming» inode =>
    refine canMove_of (l := .rename a.renameFault) (by simp [Answers.labels]) trivial ?_
    simp only [step, rename, hp]
    split <;> rfl
  | syncingDir =>
    refine canMove_of (l := .syncDir a.dirSynced) (by simp [Answers.labels]) trivial ?_
    simp only [step, syncDir, hp, Option.isSome_some]
  | discarding e =>
    refine canMove_of (l := .discard a.removed) (by simp [Answers.labels]) trivial ?_
    simp only [step, discard, hp, Option.isSome_some]
  | cleaning e =>
    refine canMove_of (l := .clean a.removed) (by simp [Answers.labels]) trivial ?_
    simp only [step, clean, hp, Option.isSome_some]

theorem neverStuck : (machine env).NeverStuck Reported (fun d => d.phase = .idle)
    (Within env limit) (fun _ _ => true) (Answers.Limited env limit) Answers.labels := by
  intro d a ha _ hopen
  change CanMove env limit a d
  cases hp : d.phase with
  | idle => exact absurd hp hopen
  | indexing =>
    refine canMove_of (l := .index a.indexFault) (by simp [Answers.labels]) trivial ?_
    simp only [step, index, hp]
    split <;> rfl
  | checking =>
    refine canMove_of (l := .check) (by simp [Answers.labels]) trivial ?_
    simp only [step, check, hp]
    split <;> rfl
  | summing =>
    refine canMove_of (l := .sums a.sums) (by simp [Answers.labels]) trivial ?_
    simp only [step, fetchSums, hp]
    split <;> rfl
  | makingDir sums =>
    refine canMove_of (l := .makeDir a.makeDirFault) (by simp [Answers.labels]) trivial ?_
    simp only [step, makeDir, hp]
    split <;> rfl
  | entities sums rest =>
    refine canMove_of (l := .nextEntity) (by simp [Answers.labels]) trivial ?_
    cases rest with
    | nil => simp only [step, nextEntity, hp, Option.isSome_some]
    | cons dt rest =>
      simp only [step, nextEntity, hp]
      split
      · rfl
      · split <;> rfl
  | acquiring sums job stage => exact canMove_acquiring ha hp

/-- A run of `download_latest` makes at most twelve attempts at a tarball, each a call of the
polite client with the throttle retries inside it, and takes at most `12 * limit + 129` steps when
no archive has more than `limit` pieces; and from every point of it, whatever the network and the
disk answer, it can be carried to where it returns. -/
theorem download_latest_returns (env : DownloadExternals) (limit : Nat) (d t : Downloader)
    (ls : List Label) (hbegun : d.phase = .indexing) (hls : ∀ l ∈ ls, Within env limit l)
    (hrun : (machine env).run d ls = some t) (answers : Nat → Answers)
    (hanswers : ∀ i, (answers i).Limited env limit) :
    ∃ ms u outcome, (machine env).run t ms = some u ∧
      (machine env).Follows Answers.labels answers t ms ∧
      u.phase = .idle ∧ u.outcome = some outcome ∧
      ls.length + ms.length ≤ 12 * limit + 129 ∧
      (ls ++ ms).countP Label.isRequest ≤ 12 := by
  have hreported : d.Reported := by
    intro hidle
    cases hbegun.symm.trans hidle
  have hcounts : (machine env).CountsDown Reported (Within env limit) (fun _ _ => true)
      (left limit) := countsDown
  have ht : t.Reported := hcounts.run_keeps hls hreported hrun
  have hwork := hcounts.work_le hls hreported hrun
  obtain ⟨ms, u, hms, hidle, hwithin, hlength, hfollows⟩ := hcounts.completes neverStuck hanswers ht
  obtain ⟨outcome, houtcome⟩ := hcounts.run_keeps hwithin ht hms hidle
  have hboth := (machine env).run_trans hrun hms
  have hrequests := countsRequests.work_le (List.forall_mem_append.mpr ⟨hls, hwithin⟩) trivial hboth
  rw [(machine env).work_of_labels (fun _ => true) hrun, List.countP_true] at hwork
  rw [(machine env).work_of_labels Label.isRequest hboth] at hrequests
  refine ⟨ms, u, outcome, hms, hfollows, hidle, houtcome, ?_, ?_⟩
  · have hstart : d.left limit = 4 * entityLeft limit + 5 := by rw [left, hbegun]; rfl
    rw [hstart, entityLeft] at hwork
    omega
  · have hstart : d.requests = 12 := by rw [requests, hbegun]; rfl
    omega

/-- A server that never answers a request for a tarball. -/
def refusing : Answers where
  indexFault := none
  sums := .ok archiveSums
  makeDirFault := none
  removed := true
  reply := .error ["connection refused"]
  created := true
  encoder := true
  written := []
  writeFault := false
  garbage := none
  syncFault := false
  renameFault := false
  dirSynced := true

theorem download_latest_returns_refused : ∃ t ms u outcome,
    (machine archiveExternals).run { artistMissing with phase := .indexing } openRun.tail = some t ∧
      (machine archiveExternals).run t ms = some u ∧ u.phase = .idle ∧
      u.outcome = some outcome ∧ ms.length ≤ 124 ∧ ms.countP Label.isRequest ≤ 12 := by
  have hruns : ((machine archiveExternals).run { artistMissing with phase := .indexing }
      openRun.tail).isSome = true := by decide +kernel
  obtain ⟨t, ht⟩ := Option.isSome_iff_exists.mp hruns
  obtain ⟨ms, u, outcome, hms, -, hidle, houtcome, hlength, hrequests⟩ :=
    download_latest_returns archiveExternals 0 { artistMissing with phase := .indexing } t
      openRun.tail rfl (by simp [openRun, Within]) ht (fun _ => refusing) fun _ => trivial
  rw [List.countP_append] at hrequests
  have htail : openRun.tail.length = 5 := rfl
  exact ⟨t, ms, u, outcome, ht, hms, hidle, houtcome, by omega, by omega⟩

end Downloader

end MusicbrainzIngestion
