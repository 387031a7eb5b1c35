import MusicbrainzIngestion.Downloader.Moves

/-! The downloader's trust invariant. A final name is trusted for ever once it exists, so
every path to it has to go through a finished, synced and verified extraction, also when
the process is killed or the power lost anywhere on the way. -/

namespace MusicbrainzIngestion
open Base

/-! ## Names -/

/-- Where each entity is staged and published. -/
def staging : Staging DataType String where
  tmp dt := tmpDownloadName (outName dt)
  final := outName
  tmp_injective a b h := by
    cases a <;> cases b <;> first | rfl | exact absurd h (by decide)
  final_injective a b h := by
    cases a <;> cases b <;> first | rfl | exact absurd h (by decide)
  disjoint a b := by cases a <;> cases b <;> decide

theorem bareName_ne_tmp (dt dt' : DataType) : bareName dt ≠ tmpDownloadName (outName dt') := by
  cases dt <;> cases dt' <;> decide

theorem bareName_ne_outName (dt dt' : DataType) : bareName dt ≠ outName dt' := by
  cases dt <;> cases dt' <;> decide

namespace Downloader

section Invariant

variable (env : DownloadExternals)

/-- The extraction of the response gave the content, and all of the response had the hash that
the checksum file gives for the entity's tarball. -/
structure Genuine (x : Verified) : Prop where
  extracted : extracted env x.entity x.response = some x.content
  whole : x.response.failure = none
  hashed : (parseSha256sums x.sums).lookup (tarballName x.entity) =
    some (env.sha256Hex x.response.bytes)

/-- Content of a finished extraction of the entity. -/
def Good (verified : List Verified) (dt : DataType) (content : List UInt8) : Prop :=
  ∃ x ∈ verified, x.entity = dt ∧ x.content = content

/-- What an attempt has done so far. -/
def StageOk (d : Downloader) (job : Acquisition) : Stage → Prop
  | .scanning response entries =>
    extractedFrom env job.entity entries = extracted env job.entity response
  | .creating response chunks =>
    (readAll chunks).map env.xzEncode = extracted env job.entity response
  | .copying response inode chunks content =>
    d.volume.visible (tmpName job) = some inode ∧
      (readAll chunks).map (fun rest => env.xzEncode (content ++ rest)) =
        extracted env job.entity response
  | .finishing response inode content => d.volume.visible (tmpName job) = some inode ∧
    extracted env job.entity response = some (env.xzEncode content)
  | .syncing response inode => d.volume.visible (tmpName job) = some inode ∧
    extracted env job.entity response = some (d.volume.data inode)
  | .draining response inode => d.volume.visible (tmpName job) = some inode ∧
    extracted env job.entity response = some (d.volume.data inode) ∧
    d.volume.synced inode = true
  | .renaming inode => d.volume.visible (tmpName job) = some inode ∧
    d.volume.synced inode = true ∧ Good d.verified job.entity (d.volume.data inode)
  | _ => True

def Stage.published : Stage → Bool
  | .syncingDir => true
  | _ => false

/-- The entity being acquired has its checksum, the entities before it are complete, and it is
not complete before its rename. -/
structure AttemptOk (d : Downloader) (sums : String) (job : Acquisition) (published : Bool) :
    Prop where
  expected : (parseSha256sums sums).lookup (tarballName job.entity) = some job.expected
  others : ∀ dt, dt ≠ job.entity → dt ∉ job.rest → entityIsComplete d.present dt = true
  entity : entityIsComplete d.present job.entity = published

def PhaseOk (d : Downloader) : Prop :=
  match d.phase with
  | .entities _ rest => ∀ dt, dt ∉ rest → entityIsComplete d.present dt = true
  | .acquiring sums job stage => AttemptOk d sums job stage.published ∧ StageOk env d job stage
  | _ => True

structure Trust (d : Downloader) : Prop where
  volume : staging.Published (Good d.verified) d.volume
  genuine : ∀ x ∈ d.verified, Genuine env x
  outcome : ∀ r, d.outcome = some (.ok r) → ∀ dt, entityIsComplete d.present dt = true

end Invariant

variable {env : DownloadExternals} {d t : Downloader} {sums : String} {job : Acquisition}
  {published : Bool}

/-- Without an answer there is nothing an answer promises. -/
theorem Trust.unanswered (hp : staging.Published (Good d.verified) d.volume)
    (hg : ∀ x ∈ d.verified, Genuine env x) (ho : d.outcome = none) : Trust env d where
  volume := hp
  genuine := hg
  outcome r hr := by
    rw [ho] at hr
    cases hr

/-! ## Work on temporary files -/

/-- Work on the temporary files leaves the final names. -/
theorem complete_congr {vol vol' : Volume String (List UInt8)}
    (h : ∀ name, (∀ dt, name ≠ tmpDownloadName (outName dt)) → vol'.visible name = vol.visible name)
    (dt : DataType) : entityIsComplete (fun name => (vol'.visible name).isSome) dt =
      entityIsComplete (fun name => (vol.visible name).isSome) dt := by
  unfold entityIsComplete
  dsimp only
  rw [h (bareName dt) (bareName_ne_tmp dt), h (outName dt) fun dt' => (staging.disjoint dt' dt).symm]

/-- The volume changes below the final names and keeps what it published. -/
theorem Trust.withVolume (h : Trust env d) {vol : Volume String (List UInt8)}
    (hp : staging.Published (Good d.verified) vol)
    (hc : ∀ dt, entityIsComplete d.present dt = true →
      entityIsComplete (fun name => (vol.visible name).isSome) dt = true) :
    Trust env { d with volume := vol } where
  volume := hp
  genuine := h.genuine
  outcome r hr dt := hc dt (h.outcome r hr dt)

theorem AttemptOk.withVolume (h : AttemptOk d sums job published)
    {vol : Volume String (List UInt8)}
    (hv : ∀ name, (∀ dt, name ≠ tmpDownloadName (outName dt)) →
      vol.visible name = d.volume.visible name) :
    AttemptOk { d with volume := vol } sums job published where
  expected := h.expected
  others dt hne hrest := (complete_congr hv dt).trans (h.others dt hne hrest)
  entity := (complete_congr hv job.entity).trans h.entity

theorem visible_remove_final (vol : Volume String (List UInt8)) (dt : DataType) {name : String}
    (hn : ∀ dt, name ≠ tmpDownloadName (outName dt)) :
    (vol.remove (tmpDownloadName (outName dt))).visible name = vol.visible name := by
  rw [Volume.remove, Volume.visible_push, Update.apply, Function.update_of_ne (hn dt)]

theorem visible_create_final (vol : Volume String (List UInt8)) (dt : DataType) {name : String}
    (hn : ∀ dt, name ≠ tmpDownloadName (outName dt)) :
    (vol.create (tmpDownloadName (outName dt)) []).visible name = vol.visible name := by
  rw [Volume.visible_create, Function.update_of_ne (hn dt)]

/-- A rename takes no final name away. -/
theorem complete_rename (vol : Volume String (List UInt8)) (k dt : DataType)
    (hc : entityIsComplete (fun name => (vol.visible name).isSome) dt = true) :
    entityIsComplete (fun name =>
      ((vol.rename (tmpDownloadName (outName k)) (outName k)).visible name).isSome) dt = true := by
  cases hv : vol.visible (tmpDownloadName (outName k)) with
  | none =>
    rw [Volume.rename, hv]
    exact hc
  | some inode =>
    unfold entityIsComplete at hc ⊢
    dsimp only at hc ⊢
    rw [Volume.visible_rename hv]
    rw [Function.update_of_ne (bareName_ne_outName dt k), Function.update_of_ne (bareName_ne_tmp dt k)]
    by_cases heq : dt = k
    · rw [heq, Function.update_self]
      exact Bool.or_true _
    · have hout : outName dt ≠ outName k := fun ho => heq (staging.final_injective ho)
      have htmp : outName dt ≠ tmpDownloadName (outName k) := (staging.disjoint k dt).symm
      rw [Function.update_of_ne hout, Function.update_of_ne htmp]
      exact hc

theorem Trust.removeTmp (h : Trust env d) (job : Acquisition) (removed : Bool) :
    Trust env (d.removeTmp job removed) := by
  cases removed with
  | false => exact h
  | true =>
    refine h.withVolume (h.volume.remove job.entity) fun dt hc => ?_
    exact (complete_congr (fun _ hn => visible_remove_final d.volume job.entity hn) dt).trans hc

theorem AttemptOk.removeTmp (h : AttemptOk d sums job published) (removed : Bool) :
    AttemptOk (d.removeTmp job removed) sums job published := by
  cases removed with
  | false => exact h
  | true => exact h.withVolume fun _ hn => visible_remove_final d.volume job.entity hn

theorem Trust.goto (h : Trust env d) (phase : Phase) : Trust env (d.goto phase) :=
  ⟨h.volume, h.genuine, h.outcome⟩

theorem AttemptOk.goto (h : AttemptOk d sums job published) (phase : Phase) :
    AttemptOk (d.goto phase) sums job published :=
  ⟨h.expected, h.others, h.entity⟩

/-! ## Every step -/

/-- The invariant: what is trusted, and what the phase adds. -/
def Inv (env : DownloadExternals) (d : Downloader) : Prop := Trust env d ∧ PhaseOk env d

theorem inv_fail (h : Trust env d) (e : Error) : Inv env (d.finished (.error e)) :=
  ⟨⟨h.volume, h.genuine, fun _ hr => by cases hr⟩, trivial⟩

/-- A stage that promises nothing of its own. -/
theorem inv_stage (h : Trust env d) (ha : AttemptOk d sums job false) {stage : Stage}
    (hs : stage.published = false) (hok : StageOk env d job stage) :
    Inv env (d.goto (.acquiring sums job stage)) := by
  refine ⟨h.goto _, ?_, ?_⟩
  · rw [hs]
    exact ha.goto _
  · cases stage <;> exact hok

theorem inv_retry (h : Trust env d) (ha : AttemptOk d sums job false) (e : Error) :
    Inv env (d.retry sums job e) := by
  unfold retry
  split
  · exact ⟨h.goto _, ⟨ha.expected, ha.others, ha.entity⟩, trivial⟩
  · exact inv_fail h e

/-- Passing an entry over leaves what the entries after it give. -/
theorem scanned_ok {response : Text.Stream} {entries : List (Except Error TarEntry)}
    (h : extractedFrom env job.entity entries = extracted env job.entity response) :
    (scanned job.entity response entries).published = false ∧
      StageOk env d job (scanned job.entity response entries) := by
  unfold scanned
  unfold extractedFrom at h
  split
  · exact ⟨rfl, trivial⟩
  · exact ⟨rfl, trivial⟩
  · next entry rest =>
    dsimp only at h
    cases hpath : entry.path with
    | error e => exact ⟨rfl, trivial⟩
    | ok path =>
      rw [hpath] at h
      dsimp only at h ⊢
      by_cases htarget : pathEndsWith path (targetSuffix job.entity) = true
      · rw [if_pos htarget] at h ⊢
        exact ⟨rfl, h⟩
      · rw [if_neg htarget] at h ⊢
        exact ⟨rfl, h⟩

theorem inv_skips {dt : DataType} {rest : List DataType} (h : Trust env d)
    (hrest : ∀ dt', dt' ∉ dt :: rest → entityIsComplete d.present dt' = true)
    (hc : entityIsComplete d.present dt = true) : Inv env (d.goto (.entities sums rest)) := by
  refine ⟨h.goto _, fun dt' hdt' => ?_⟩
  by_cases heq : dt' = dt
  · subst heq
    exact hc
  · exact hrest dt' (by simp [heq, hdt'])

theorem inv_acquires {dt : DataType} {rest : List DataType} {expected : String} (h : Trust env d)
    (hrest : ∀ dt', dt' ∉ dt :: rest → entityIsComplete d.present dt' = true)
    (hc : entityIsComplete d.present dt = false)
    (he : (parseSha256sums sums).lookup (tarballName dt) = some expected) :
    Inv env (d.goto (.acquiring sums ⟨dt, rest, expected, 1⟩ .requesting)) := by
  have hattempt : AttemptOk d sums ⟨dt, rest, expected, 1⟩ false :=
    ⟨he, fun dt' hne hdt' => hrest dt' (by simp [hne, hdt']), hc⟩
  exact inv_stage h hattempt rfl trivial

section Attempt

variable (h : Trust env d) (ha : AttemptOk d sums job false)
include h ha

theorem inv_created {stage : Stage} (hs : stage.published = false)
    (hok : StageOk env { d with volume := d.volume.create (tmpName job) [] } job stage) :
    Inv env ({ d with volume := d.volume.create (tmpName job) [] }.goto
      (.acquiring sums job stage)) := by
  have hfinal : ∀ name, (∀ dt, name ≠ tmpDownloadName (outName dt)) →
      (d.volume.create (tmpName job) []).visible name = d.volume.visible name :=
    fun _ hn => visible_create_final d.volume job.entity hn
  have htrust := h.withVolume (h.volume.create job.entity []) fun dt hc =>
    (complete_congr hfinal dt).trans hc
  exact inv_stage htrust (ha.withVolume hfinal) hs hok

/-- Writing to the temporary file. -/
theorem inv_written {inode : Nat} (hv : d.volume.visible (tmpName job) = some inode)
    (data : List UInt8) {stage : Stage} (hs : stage.published = false)
    (hok : StageOk env { d with volume := d.volume.write inode data } job stage) :
    Inv env ({ d with volume := d.volume.write inode data }.goto (.acquiring sums job stage)) := by
  have htrust := h.withVolume (h.volume.write (k := job.entity) hv data) fun _ hc => hc
  exact inv_stage htrust (ha.withVolume fun _ _ => rfl) hs hok

/-- Only a response that was read to its end and has the published hash is verified. -/
theorem inv_verifies {response : Text.Stream} {inode : Nat}
    (hstage : StageOk env d job (.draining response inode)) (hf : response.failure = none)
    (hh : env.sha256Hex response.bytes = job.expected) :
    Inv env ({ d with
      verified := d.verified ++ [(⟨job.entity, sums, response, d.volume.data inode⟩ : Verified)] }.goto
        (.acquiring sums job (.renaming inode))) := by
  obtain ⟨hvisible, hcontent, hsynced⟩ := hstage
  have hnew : Trust env { d with
      verified := d.verified ++ [(⟨job.entity, sums, response, d.volume.data inode⟩ : Verified)] } := {
    volume := h.volume.mono fun _ _ ⟨x, hx, hgood⟩ => ⟨x, List.mem_append_left _ hx, hgood⟩
    genuine := fun x hx => by
      rcases List.mem_append.mp hx with hx | hx
      · exact h.genuine x hx
      · rw [List.mem_singleton.mp hx]
        exact ⟨hcontent, hf, by rw [hh]; exact ha.expected⟩
    outcome := h.outcome }
  exact inv_stage hnew ⟨ha.expected, ha.others, ha.entity⟩ rfl
    ⟨hvisible, hsynced, _, List.mem_append_right _ (List.mem_singleton_self _), rfl, rfl⟩

theorem inv_renames {inode : Nat} (hstage : StageOk env d job (.renaming inode)) :
    Inv env ({ d with volume := d.volume.rename (tmpName job) (outName job.entity) }.goto
      (.acquiring sums job .syncingDir)) := by
  obtain ⟨hvisible, hsynced, hgood⟩ := hstage
  have hothers := fun dt => complete_rename d.volume job.entity dt
  refine ⟨(h.withVolume (h.volume.rename (k := job.entity) hvisible hsynced hgood) hothers).goto _,
    ⟨ha.expected, fun dt hne hrest => ?_, ?_⟩, trivial⟩
  · exact hothers dt (ha.others dt hne hrest)
  · refine Bool.or_eq_true_iff.mpr (Or.inr ?_)
    change ((d.volume.rename (tmpName job) (outName job.entity)).visible
      (outName job.entity)).isSome = true
    rw [Volume.visible_rename hvisible, Function.update_self]
    rfl

end Attempt

/-- With the entity published, what is left are the entities after it. -/
theorem AttemptOk.complete (ha : AttemptOk d sums job true) (dt : DataType) (hrest : dt ∉ job.rest) :
    entityIsComplete d.present dt = true := by
  by_cases heq : dt = job.entity
  · rw [heq]
    exact ha.entity
  · exact ha.others dt heq hrest

theorem inv_move {label : Label} (hmove : Move env d label t) (h : Inv env d) : Inv env t := by
  have htrust := h.1
  have hp := h.2
  unfold PhaseOk at hp
  cases hmove with
  | begins => exact ⟨.unanswered htrust.volume htrust.genuine rfl, trivial⟩
  | indexFails | sumsFail | makeDirFails | noChecksum | panics => exact inv_fail htrust _
  | indexed | outdated | summed => exact ⟨htrust.goto _, trivial⟩
  | current hphase hc =>
    refine ⟨⟨htrust.volume, htrust.genuine, fun _ _ dt => ?_⟩, trivial⟩
    obtain ⟨-, hall⟩ := Bool.and_eq_true_iff.mp hc
    exact List.all_eq_true.mp hall dt (DataType.mem_musicbrainz dt)
  | makesDir =>
    exact ⟨⟨htrust.volume, htrust.genuine, htrust.outcome⟩,
      fun dt hdt => absurd (DataType.mem_musicbrainz dt) hdt⟩
  | downloaded hphase =>
    rw [hphase] at hp
    exact ⟨⟨htrust.volume, htrust.genuine, fun _ _ dt => hp dt List.not_mem_nil⟩, trivial⟩
  | skips hphase hc =>
    rw [hphase] at hp
    exact inv_skips htrust hp hc
  | acquires hphase hc he =>
    rw [hphase] at hp
    exact inv_acquires htrust hp hc he
  | prepares hphase | discards hphase =>
    rw [hphase] at hp
    exact inv_stage (htrust.removeTmp _ _) (hp.1.removeTmp _) rfl trivial
  | requestFails hphase =>
    rw [hphase] at hp
    exact inv_retry htrust hp.1 _
  | cleans hphase =>
    rw [hphase] at hp
    exact inv_retry (htrust.removeTmp _ _) (hp.1.removeTmp _) _
  | unreadable hphase | createFails hphase | readFails hphase | syncFails hphase
  | drainFails hphase | mismatches hphase | renameFails hphase =>
    rw [hphase] at hp
    exact inv_stage htrust hp.1 rfl trivial
  | @responds sums job response entries hphase he =>
    rw [hphase] at hp
    refine inv_stage htrust hp.1 rfl ?_
    change extractedFrom env job.entity entries = extracted env job.entity response
    unfold extracted
    rw [he]
  | scans hphase =>
    rw [hphase] at hp
    obtain ⟨hpublished, hstage⟩ := scanned_ok (d := d) hp.2
    exact inv_stage htrust hp.1 hpublished hstage
  | encoderFails hphase =>
    rw [hphase] at hp
    exact inv_created htrust hp.1 rfl trivial
  | @creates sums job response chunks hphase =>
    rw [hphase] at hp
    refine inv_created htrust hp.1 rfl ⟨?_, hp.2⟩
    exact (congrFun (Volume.visible_create d.volume (tmpName job) []) _).trans
      (Function.update_self _ _ _)
  | readsEnd hphase hc =>
    rw [hphase] at hp
    obtain ⟨hattempt, hvisible, hchunks⟩ := hp
    refine inv_stage htrust hattempt rfl ⟨hvisible, hchunks.symm.trans ?_⟩
    simp [hc]
  | writeFails hphase =>
    rw [hphase] at hp
    exact inv_written htrust hp.1 hp.2.1 _ rfl trivial
  | @writes sums job response inode chunk rest content written hphase hne =>
    rw [hphase] at hp
    obtain ⟨hattempt, hvisible, hchunks⟩ := hp
    refine inv_written htrust hattempt hvisible written rfl ⟨hvisible, ?_⟩
    rw [← hchunks, readAll, if_neg hne, Option.map_map]
    exact congrArg (fun f => (readAll rest).map f) (funext fun more => by simp)
  | finishFails hphase =>
    rw [hphase] at hp
    exact inv_written htrust hp.1 hp.2.1 _ rfl trivial
  | @finishes sums job response inode content hphase =>
    rw [hphase] at hp
    obtain ⟨hattempt, hvisible, hcontent⟩ := hp
    refine inv_written htrust hattempt hvisible _ rfl
      ⟨hvisible, hcontent.trans (congrArg some ?_)⟩
    exact (Function.update_self inode (env.xzEncode content) d.volume.data).symm
  | @syncs sums job response inode hphase =>
    rw [hphase] at hp
    obtain ⟨hattempt, hvisible, hcontent⟩ := hp
    exact inv_stage (htrust.withVolume (htrust.volume.fsync inode) fun _ hc => hc)
      (hattempt.withVolume fun _ _ => rfl) rfl ⟨hvisible, hcontent, Function.update_self _ _ _⟩
  | verifies hphase hf hh =>
    rw [hphase] at hp
    exact inv_verifies htrust hp.1 hp.2 hf hh
  | renames hphase =>
    rw [hphase] at hp
    exact inv_renames htrust hp.1 hp.2
  | leavesDir hphase =>
    rw [hphase] at hp
    exact ⟨htrust.goto _, hp.1.complete⟩
  | syncsDir hphase =>
    rw [hphase] at hp
    exact ⟨(htrust.withVolume htrust.volume.fsyncDir fun _ hc => hc).goto _, hp.1.complete⟩
  | killed => exact ⟨.unanswered htrust.volume htrust.genuine rfl, trivial⟩
  | losesPower garbled hk =>
    exact ⟨.unanswered (htrust.volume.powerLoss hk garbled) htrust.genuine rfl, trivial⟩
  | losesDir =>
    exact ⟨.unanswered (.empty rfl (fun _ => rfl) fun _ => rfl) htrust.genuine rfl, trivial⟩

theorem inv_reachable (h : (machine env).Reachable d) : Inv env d := by
  refine Machine.ReachableBy.invariant (P := Inv env) ?_ ?_ h
  · rintro d ⟨hphase, houtcome, hverified, hpending, hnames⟩
    refine ⟨⟨.empty hpending (fun dt => (hnames dt).2) fun dt => (hnames dt).1, ?_, ?_⟩, ?_⟩
    · intro x hx
      rw [hverified] at hx
      cases hx
    · intro r hr
      rw [houtcome] at hr
      cases hr
    · unfold PhaseOk
      rw [hphase]
      trivial
  · intro s label t _ hi hstep
    exact inv_move (step_move hstep) hi

end Downloader

end MusicbrainzIngestion
