import MusicbrainzIngestion.Extraction
import MusicbrainzIngestion.Base.Retry

/-! One call of the downloader for one entity: up to three attempts, each into the same
temporary file, until one is verified and renamed. -/

namespace MusicbrainzIngestion
open Base Downloader

structure DownloadResponse where
  status : Nat
  reason : String
  body : Text.Stream

def DownloadResponse.isSuccess (r : DownloadResponse) : Bool := 200 ≤ r.status && r.status < 300

/-- What the network and the disk do in one attempt. -/
structure DownloadAttempt where
  reply : Except String DownloadResponse
  disk : DiskFaults := {}
  rename : Option String := none

/-- What is at the temporary and at the final path. -/
structure OutputPaths where
  tmp : Option (List UInt8)
  out : Option (List UInt8)
deriving DecidableEq

def OutputPaths.removeTmp (p : OutputPaths) (disk : DiskFaults) : OutputPaths :=
  { p with tmp := disk.removed p.tmp }

section
variable (env : ExtractExternals) (sha256Hex : List UInt8 → String) (threads : Nat)
  (entity expected outPath : String)

/-- The blocking task: extract, read the rest of the response, compare the hash. -/
def blockingTask (disk : DiskFaults) (body : Text.Stream) (tmp : Option (List UInt8)) :
    Except Error Unit × Option (List UInt8) :=
  let extraction := extractEntityFromReader env disk threads entity (tmpDownloadName outPath) tmp body
  match extraction.result with
  | .error e => (.error e, extraction.file)
  | .ok () =>
    match body.failure with
    | some e => (.error ["Failed to drain compressed stream: " ++ e], extraction.file)
    | none =>
      let actual := sha256Hex body.bytes
      if actual ≠ expected then
        (.error ["SHA256 mismatch for " ++ entity ++ ": expected " ++ expected ++ ", got " ++ actual],
          disk.removed extraction.file)
      else (.ok (), extraction.file)

def downloadAttempt (a : DownloadAttempt) (attempt : Nat) (paths : OutputPaths) :
    Except Error Unit × OutputPaths :=
  let paths := if 1 < attempt then paths.removeTmp a.disk else paths
  match a.reply with
  | .error e => (.error ["Failed to start download for " ++ entity ++ ": " ++ e], paths)
  | .ok response =>
    if !response.isSuccess then
      (.error ["HTTP error downloading " ++ entity ++ ": " ++ toString response.status ++ " " ++
        response.reason], paths)
    else
      match blockingTask env sha256Hex threads entity expected outPath a.disk response.body paths.tmp with
      | (.error e, tmp) => (.error e, { paths with tmp := tmp }.removeTmp a.disk)
      | (.ok (), tmp) =>
        match a.rename with
        | some e => (.error ["Failed to atomically rename \"" ++ tmpDownloadName outPath ++ "\" -> \"" ++
            outPath ++ "\": " ++ e], { paths with tmp := tmp }.removeTmp a.disk)
        | none => (.ok (), ⟨none, tmp⟩)

/-- `inputs n` is what attempt number `n` meets, were it made. -/
def numberedAttempt (inputs : Nat → DownloadAttempt) (n : Nat) :
    OutputPaths → Except Error Unit × OutputPaths :=
  downloadAttempt env sha256Hex threads entity expected outPath (inputs n) n

/-- The error of a loop that made no attempt. -/
def noAttempt : Error := ["Download failed after " ++ toString MB_MAX_DOWNLOAD_RETRIES ++ " attempts"]

def streamDownloadVerifyExtract (inputs : Nat → DownloadAttempt) (paths : OutputPaths) :
    Retried Unit Error OutputPaths :=
  Retry.loop (numberedAttempt env sha256Hex threads entity expected outPath inputs)
    MB_MAX_DOWNLOAD_RETRIES 1 0 noAttempt paths

/-! ## How an attempt ends -/

/-- The response is a success and its entry is in the file, as far as the stream held it. -/
structure Extracts (a : DownloadAttempt) (response : DownloadResponse) (entry : ArchiveMember) :
    Prop where
  reply : a.reply = .ok response
  success : response.isSuccess = true
  found : Reaches env entity response.body entry
  created : a.disk.create = none
  started : env.encoderStarts threads = true
  written : ¬ WriteFails a.disk entry

/-- The attempt verifies its response and renames what it extracted from it. -/
structure Publishes (a : DownloadAttempt) (file : List UInt8) (response : DownloadResponse)
    (entry : ArchiveMember) : Prop extends Extracts env threads entity a response entry where
  drained : response.body.failure = none
  hash : sha256Hex response.body.bytes = expected
  renamed : a.rename = none
  encoded : file = env.xz.encode entry.content

/-- The ways an attempt fails, each with the error it gives. -/
inductive FailsWith (a : DownloadAttempt) : Error → Prop
  | request {e : String} : a.reply = .error e →
      FailsWith a ["Failed to start download for " ++ entity ++ ": " ++ e]
  | status {response : DownloadResponse} : a.reply = .ok response → response.isSuccess = false →
      FailsWith a ["HTTP error downloading " ++ entity ++ ": " ++ toString response.status ++ " " ++
        response.reason]
  | extraction {response : DownloadResponse} {e : Error} : a.reply = .ok response →
      response.isSuccess = true →
      (∀ tmp, (extractEntityFromReader env a.disk threads entity (tmpDownloadName outPath) tmp
        response.body).result = .error e) → FailsWith a e
  | drain {response : DownloadResponse} {entry : ArchiveMember} {e : String} :
      Extracts env threads entity a response entry → response.body.failure = some e →
      FailsWith a ["Failed to drain compressed stream: " ++ e]
  | mismatch {response : DownloadResponse} {entry : ArchiveMember} :
      Extracts env threads entity a response entry → response.body.failure = none →
      sha256Hex response.body.bytes ≠ expected →
      FailsWith a ["SHA256 mismatch for " ++ entity ++ ": expected " ++ expected ++ ", got " ++
        sha256Hex response.body.bytes]
  | rename {response : DownloadResponse} {entry : ArchiveMember} {e : String} :
      Extracts env threads entity a response entry → response.body.failure = none →
      sha256Hex response.body.bytes = expected → a.rename = some e →
      FailsWith a ["Failed to atomically rename \"" ++ tmpDownloadName outPath ++ "\" -> \"" ++
        outPath ++ "\": " ++ e]

/-- What the blocking task returns depends on the response, not on what was at the path. -/
theorem blockingTask_cases {a : DownloadAttempt} {response : DownloadResponse}
    (hreply : a.reply = .ok response) (hsuccess : response.isSuccess = true) :
    (∃ e, FailsWith env sha256Hex threads entity expected outPath a e ∧ ∀ tmp,
      (blockingTask env sha256Hex threads entity expected outPath a.disk response.body tmp).1 =
        .error e) ∨
    ∃ entry, Extracts env threads entity a response entry ∧ response.body.failure = none ∧
      sha256Hex response.body.bytes = expected ∧ ∀ tmp,
        blockingTask env sha256Hex threads entity expected outPath a.disk response.body tmp =
          (.ok (), some (env.xz.encode entry.content)) := by
  have hfailed : ∀ e, (∀ tmp, (extractEntityFromReader env a.disk threads entity
      (tmpDownloadName outPath) tmp response.body).result = .error e) →
      FailsWith env sha256Hex threads entity expected outPath a e ∧ ∀ tmp,
        (blockingTask env sha256Hex threads entity expected outPath a.disk response.body tmp).1 =
          .error e := by
    intro e he
    refine ⟨.extraction hreply hsuccess he, fun tmp => ?_⟩
    simp only [blockingTask, he tmp]
  by_cases hreach : ∃ entry, Reaches env entity response.body entry
  · obtain ⟨entry, hentry⟩ := hreach
    have hrun := fun tmp => extract_reached env a.disk threads entity (tmpDownloadName outPath) tmp
      response.body hentry
    rcases copyOut_cases env a.disk threads entity (tmpDownloadName outPath) entry with
      ⟨e, he⟩ | ⟨hcreate, hstarts, hwrite, hcopy⟩
    · exact .inl ⟨e, hfailed e fun tmp => by rw [hrun, he]⟩
    · have hextracts : Extracts env threads entity a response entry :=
        ⟨hreply, hsuccess, hentry, hcreate, hstarts, hwrite⟩
      cases hdrain : response.body.failure with
      | some e =>
        exact .inl ⟨_, .drain hextracts hdrain, fun tmp => by simp only [blockingTask, hrun, hcopy, hdrain]⟩
      | none =>
        by_cases hhash : sha256Hex response.body.bytes = expected
        · refine .inr ⟨entry, hextracts, rfl, hhash, fun tmp => ?_⟩
          simp [blockingTask, hrun, hcopy, hdrain, hhash]
        · refine .inl ⟨_, .mismatch hextracts hdrain hhash, fun tmp => ?_⟩
          simp [blockingTask, hrun, hcopy, hdrain, hhash]
  · have hnone : ∀ entry, ¬ Reaches env entity response.body entry := fun entry h => hreach ⟨entry, h⟩
    obtain ⟨e, he⟩ := extract_not_reached env a.disk threads entity (tmpDownloadName outPath)
      response.body hnone
    exact .inl ⟨e, hfailed e fun tmp => (he tmp).1⟩

/-- An attempt either publishes, or fails and leaves the final path alone; only a first
attempt that got no response leaves a temporary file where it was. -/
theorem downloadAttempt_cases (a : DownloadAttempt) (hremove : a.disk.remove = none) (n : Nat)
    (paths : OutputPaths) :
    (∃ e tmp, FailsWith env sha256Hex threads entity expected outPath a e ∧ (1 < n → tmp = none) ∧
      downloadAttempt env sha256Hex threads entity expected outPath a n paths =
        (.error e, ⟨tmp, paths.out⟩)) ∨
    ∃ file response entry, Publishes env sha256Hex threads entity expected a file response entry ∧
      downloadAttempt env sha256Hex threads entity expected outPath a n paths =
        (.ok (), ⟨none, some file⟩) := by
  have hremoved : ∀ paths : OutputPaths, paths.removeTmp a.disk = ⟨none, paths.out⟩ := by
    intro paths
    simp [OutputPaths.removeTmp, DiskFaults.removed, hremove]
  have hstart : (if 1 < n then paths.removeTmp a.disk else paths) =
      ⟨if 1 < n then none else paths.tmp, paths.out⟩ := by
    split
    · rw [hremoved]
    · rfl
  unfold downloadAttempt
  rw [hstart]
  cases hreply : a.reply with
  | error e => exact .inl ⟨_, _, .request hreply, fun h => if_pos h, rfl⟩
  | ok response =>
    by_cases hsuccess : response.isSuccess = true
    · simp only [hsuccess, Bool.not_true, Bool.false_eq_true, if_false]
      rcases blockingTask_cases env sha256Hex threads entity expected outPath hreply hsuccess with
        ⟨e, he, hrun⟩ | ⟨entry, hextracts, hdrain, hhash, hrun⟩
      · left
        refine ⟨e, none, he, fun _ => rfl, ?_⟩
        have htask := hrun (if 1 < n then none else paths.tmp)
        generalize blockingTask env sha256Hex threads entity expected outPath a.disk response.body _ =
          task at htask ⊢
        obtain ⟨result, tmp⟩ := task
        cases htask
        simp only [hremoved]
      · simp only [hrun, hremoved]
        cases hrename : a.rename with
        | some e => exact .inl ⟨_, none, .rename hextracts hdrain hhash hrename, fun _ => rfl, rfl⟩
        | none => exact .inr ⟨_, response, entry, ⟨hextracts, hdrain, hhash, hrename, rfl⟩, rfl⟩
    · have hstatus : response.isSuccess = false := by simpa using hsuccess
      simp only [hstatus, Bool.not_false, if_true]
      exact .inl ⟨_, _, .status hreply hstatus, fun h => if_pos h, rfl⟩

/-- What an attempt meets decides whether it publishes. -/
theorem Publishes.not_fails {a : DownloadAttempt} {file : List UInt8} {response : DownloadResponse}
    {entry : ArchiveMember} (h : Publishes env sha256Hex threads entity expected a file response entry)
    (e : Error) : ¬ FailsWith env sha256Hex threads entity expected outPath a e := by
  intro hf
  have hsame : ∀ {other : DownloadResponse}, a.reply = .ok other → other = response := by
    intro other hother
    rw [h.reply] at hother
    cases hother
    rfl
  cases hf with
  | request hr => rw [h.reply] at hr; cases hr
  | status hr hs => rw [hsame hr, h.success] at hs; cases hs
  | extraction hr _ he =>
    rw [hsame hr] at he
    have hrun := he none
    rw [extract_reached env a.disk threads entity (tmpDownloadName outPath) none response.body h.found] at hrun
    simp [copyOut, h.created, h.started, writeEntry_ok entity _ h.written] at hrun
  | drain hx hd => rw [hsame hx.reply, h.drained] at hd; cases hd
  | mismatch hx _ hm => exact hm (by rw [hsame hx.reply, h.hash])
  | rename _ _ _ hr => rw [h.renamed] at hr; cases hr

/-- The published file is what the downloader of a version takes for extracted. -/
theorem Publishes.extracted {dt : DataType} {a : DownloadAttempt} {file : List UInt8}
    {response : DownloadResponse} {entry : ArchiveMember}
    (h : Publishes env sha256Hex threads (entityKeyword dt) expected a file response entry) :
    extracted (env.download sha256Hex) dt response.body = some file := by
  have hread : entry.failure = none := by
    cases hf : entry.failure with
    | none => rfl
    | some e => exact absurd (.inl (by simp [hf])) h.written
  exact extracted_eq_some.mpr ⟨entry, h.found, hread, h.encoded.symm⟩

theorem fails_of_error {a : DownloadAttempt} (hremove : a.disk.remove = none) {n : Nat} {e : Error}
    {paths paths' : OutputPaths}
    (h : downloadAttempt env sha256Hex threads entity expected outPath a n paths = (.error e, paths')) :
    FailsWith env sha256Hex threads entity expected outPath a e ∧ (1 < n → paths'.tmp = none) ∧
      paths'.out = paths.out := by
  rcases downloadAttempt_cases env sha256Hex threads entity expected outPath a hremove n paths with
    ⟨e', tmp, hfails, htmp, hrun⟩ | ⟨file, response, entry, -, hrun⟩
  · rw [hrun] at h
    cases h
    exact ⟨hfails, htmp, rfl⟩
  · rw [hrun] at h
    cases h

theorem publishes_of_ok {a : DownloadAttempt} (hremove : a.disk.remove = none) {n : Nat}
    {paths paths' : OutputPaths}
    (h : downloadAttempt env sha256Hex threads entity expected outPath a n paths = (.ok (), paths')) :
    ∃ file response entry, Publishes env sha256Hex threads entity expected a file response entry ∧
      paths' = ⟨none, some file⟩ := by
  rcases downloadAttempt_cases env sha256Hex threads entity expected outPath a hremove n paths with
    ⟨e, tmp, -, -, hrun⟩ | ⟨file, response, entry, hpublishes, hrun⟩
  · rw [hrun] at h
    cases h
  · rw [hrun] at h
    cases h
    exact ⟨file, response, entry, hpublishes, rfl⟩

/-- What the attempts that failed leave: the final path as it was, the last cause, and after the
second no temporary file. -/
theorem failed_attempts {inputs : Nat → DownloadAttempt} {before : OutputPaths} {e₀ : Error}
    (hremove : ∀ n, (inputs n).disk.remove = none) {k : Nat} {e : Error} {paths : OutputPaths}
    (h : Retry.Failed (numberedAttempt env sha256Hex threads entity expected outPath inputs) 1 e₀ before
      k e paths) :
    paths.out = before.out ∧ (1 < k → paths.tmp = none) ∧
      (0 < k → FailsWith env sha256Hex threads entity expected outPath (inputs k) e) := by
  refine h.invariant (fun k e paths => paths.out = before.out ∧ (1 < k → paths.tmp = none) ∧
    (0 < k → FailsWith env sha256Hex threads entity expected outPath (inputs k) e)) ?_ ?_
  · exact ⟨rfl, fun h => by omega, fun h => by omega⟩
  · rintro k e paths e' paths' ⟨hout, -, -⟩ hrun
    obtain ⟨hfails, htmp, hsame⟩ :=
      fails_of_error env sha256Hex threads entity expected outPath (hremove _) hrun
    rw [Nat.add_comm 1 k] at hfails htmp
    exact ⟨hsame.trans hout, htmp, fun _ => hfails⟩

/-- What a call owes its caller, whatever its attempts meet. -/
structure RetryProtocol (inputs : Nat → DownloadAttempt) (before : OutputPaths)
    (call : Retried Unit Error OutputPaths) : Prop where
  bounded : call.attempts ≤ 3
  failed : ∀ n, 1 ≤ n → n < call.attempts →
    ∃ e, FailsWith env sha256Hex threads entity expected outPath (inputs n) e
  returned : call.result = .ok () ↔ ∃ n, 1 ≤ n ∧ n ≤ 3 ∧ ∃ file response entry,
    Publishes env sha256Hex threads entity expected (inputs n) file response entry
  published : call.result = .ok () → ∃ file response entry,
    Publishes env sha256Hex threads entity expected (inputs call.attempts) file response entry ∧
      call.state = ⟨none, some file⟩
  exhausted : ∀ e, call.result = .error e → call.attempts = 3 ∧
    FailsWith env sha256Hex threads entity expected outPath (inputs 3) e ∧
      call.state = ⟨none, before.out⟩

/-- The download of one entity follows the protocol when the files it removes go away. -/
theorem download_follows_protocol (inputs : Nat → DownloadAttempt) (before : OutputPaths)
    (hremove : ∀ n, (inputs n).disk.remove = none) :
    RetryProtocol env sha256Hex threads entity expected outPath inputs before
      (streamDownloadVerifyExtract env sha256Hex threads entity expected outPath inputs before) := by
  have hstart : Retry.Failed (numberedAttempt env sha256Hex threads entity expected outPath inputs) 1
      noAttempt before 0 noAttempt before := .none
  have heach : ∀ {k e paths}, Retry.Failed (numberedAttempt env sha256Hex threads entity expected
      outPath inputs) 1 noAttempt before k e paths → ∀ n, 1 ≤ n → n ≤ k →
      ∃ e, FailsWith env sha256Hex threads entity expected outPath (inputs n) e := by
    intro k e paths hfailed n hn hk
    have hlt : n - 1 < k := by omega
    obtain ⟨e', s', s'', hrun⟩ := hfailed.each hlt
    have hnumber : 1 + (n - 1) = n := by omega
    rw [hnumber] at hrun
    exact ⟨e', (fails_of_error env sha256Hex threads entity expected outPath (hremove _) hrun).1⟩
  rcases hstart.loop_cases 3 with
    ⟨j, e, paths, ⟨⟩, paths', hj, hfailed, hrun, hcall⟩ | ⟨e, paths, hfailed, hcall⟩
  · obtain ⟨file, response, entry, hpublishes, rfl⟩ :=
      publishes_of_ok env sha256Hex threads entity expected outPath (hremove _) hrun
    rw [Nat.add_comm 1 j] at hpublishes
    rw [streamDownloadVerifyExtract, MB_MAX_DOWNLOAD_RETRIES, hcall]
    refine ⟨?_, fun n hn hlt => heach hfailed n hn (Nat.le_of_lt_succ hlt), ?_, fun _ => ?_,
      fun e h => by cases h⟩
    · show j + 1 ≤ 3
      omega
    · exact iff_of_true rfl ⟨j + 1, by omega, by omega, file, response, entry, hpublishes⟩
    · exact ⟨file, response, entry, hpublishes, rfl⟩
  · obtain ⟨hout, htmp, hlast⟩ :=
      failed_attempts env sha256Hex threads entity expected outPath hremove hfailed
    rw [streamDownloadVerifyExtract, MB_MAX_DOWNLOAD_RETRIES, hcall]
    refine ⟨Nat.le_refl 3, fun n hn hlt => heach hfailed n hn (Nat.le_of_lt hlt), ?_,
      (fun h => by cases h), fun e' h => ?_⟩
    · refine iff_of_false (fun h => by cases h) ?_
      rintro ⟨n, hn, hle, file, response, entry, hpublishes⟩
      obtain ⟨e', he'⟩ := heach hfailed n hn (by omega)
      exact hpublishes.not_fails env sha256Hex threads entity expected outPath e' he'
    · cases h
      obtain ⟨tmp, out⟩ := paths
      have hgone : tmp = none := htmp (by omega)
      have hsame : out = before.out := hout
      exact ⟨rfl, hlast (by omega), by rw [hgone, hsame]⟩

end

/-- A refused connection, a response with another hash, and then the published one. -/
def flakyInputs : Nat → DownloadAttempt
  | 1 => { reply := .error "connection refused" }
  | 2 => { reply := .ok ⟨200, "OK", ⟨[0], none⟩⟩ }
  | _ => { reply := .ok ⟨200, "OK", ⟨[1], none⟩⟩ }

def wholeArchive : ExtractExternals :=
  { cutArchive with members := fun _ => .ok [.ok { cutEntry with
    size := 2
    within := by decide
    inside := by decide }] }

/-- The temporary file of a killed process is gone after the third attempt published. -/
theorem flaky_download :
    RetryProtocol wholeArchive (fun bytes => if bytes = [1] then "5a" else "00") 2 "artist" "5a"
      "artist.jsonl.xz" flakyInputs ⟨some [9], none⟩
      (streamDownloadVerifyExtract wholeArchive (fun bytes => if bytes = [1] then "5a" else "00") 2
        "artist" "5a" "artist.jsonl.xz" flakyInputs ⟨some [9], none⟩) ∧
    (streamDownloadVerifyExtract wholeArchive (fun bytes => if bytes = [1] then "5a" else "00") 2
      "artist" "5a" "artist.jsonl.xz" flakyInputs ⟨some [9], none⟩).state = ⟨none, some [123, 125]⟩ := by
  refine ⟨download_follows_protocol _ _ _ _ _ _ flakyInputs ⟨some [9], none⟩ fun n => ?_, by decide +kernel⟩
  rcases n with _ | _ | _ | n <;> rfl

end MusicbrainzIngestion
