import MusicbrainzIngestion.DownloadRetry
import MusicbrainzIngestion.Base.Reader

/-! The response of a download as it is read: the extraction takes from it what the archive
needs, the drain loop takes the rest, and a hasher sees every byte on the way to either. -/

namespace MusicbrainzIngestion
open Base

/-! ## The hashing reader -/

/-- Every byte that is read has been fed to the hasher. -/
structure HashingReader (H : IncrementalHash) (ρ : Type) where
  inner : ρ
  hasher : H.State
  bytes : BitVec 64

def hexDigit (n : Nat) : Char := "0123456789abcdef".toList.getD n '0'

def hexEncode (bytes : List UInt8) : String :=
  String.ofList (bytes.flatMap fun b => [hexDigit (b.toNat / 16), hexDigit (b.toNat % 16)])

namespace HashingReader

variable {H : IncrementalHash} {ρ : Type}

def new (inner : ρ) : HashingReader H ρ := ⟨inner, H.new, 0⟩

def finalize (h : HashingReader H ρ) : String × BitVec 64 := (hexEncode (H.finalize h.hasher), h.bytes)

/-- The count wraps, where a build that checks it would stop. -/
def read (source : Reader ρ String) (h : HashingReader H ρ) (size : Nat) :
    Except String (List UInt8) × HashingReader H ρ :=
  match source.read h.inner size with
  | (.error e, inner) => (.error e, { h with inner := inner })
  | (.ok out, inner) =>
    if 0 < out.length then
      (.ok out, ⟨inner, H.update h.hasher out, h.bytes + BitVec.ofNat 64 out.length⟩)
    else (.ok out, { h with inner := inner })

/-- A read that succeeds feeds the hasher what it returns; an empty one changes nothing. -/
theorem read_ok {source : Reader ρ String} {h h' : HashingReader H ρ} {size : Nat}
    {out : List UInt8} (hread : h.read source size = (.ok out, h')) :
    source.read h.inner size = (.ok out, h'.inner) ∧ h'.hasher = H.update h.hasher out ∧
      h'.bytes = h.bytes + BitVec.ofNat 64 out.length := by
  rw [read] at hread
  rcases hinner : source.read h.inner size with ⟨reply, inner⟩
  rw [hinner] at hread
  cases reply with
  | error e => cases hread
  | ok piece =>
    dsimp only at hread
    by_cases hpos : 0 < piece.length
    · rw [if_pos hpos] at hread
      cases hread
      exact ⟨rfl, rfl, rfl⟩
    · have hnil : piece = [] := List.eq_nil_of_length_eq_zero (by omega)
      rw [if_neg hpos] at hread
      subst hnil
      cases hread
      refine ⟨rfl, (H.update_nil _).symm, ?_⟩
      exact (BitVec.add_zero _).symm

theorem read_error {source : Reader ρ String} {h h' : HashingReader H ρ} {size : Nat} {e : String}
    (hread : h.read source size = (.error e, h')) :
    source.read h.inner size = (.error e, h'.inner) := by
  rw [read] at hread
  rcases hinner : source.read h.inner size with ⟨reply, inner⟩
  rw [hinner] at hread
  cases reply with
  | error e' =>
    cases hread
    rfl
  | ok piece =>
    dsimp only at hread
    by_cases hpos : 0 < piece.length
    · rw [if_pos hpos] at hread
      cases hread
    · rw [if_neg hpos] at hread
      cases hread

end HashingReader

variable {H : IncrementalHash} {ρ : Type}

def hashing (H : IncrementalHash) (source : Reader ρ String) : Reader (HashingReader H ρ) String where
  read := HashingReader.read source
  rest h := source.rest h.inner
  read_rest h := source.read_rest (HashingReader.read_ok h).1
  read_length h := source.read_length (HashingReader.read_ok h).1
  read_end h := source.read_end (HashingReader.read_ok h).1

/-- The hasher and the count have the part of the response that was read. -/
def Hashed (source : Reader ρ String) (response : List UInt8) (h : HashingReader H ρ) : Prop :=
  ∃ seen, response = seen ++ source.rest h.inner ∧ h.hasher = H.update H.new seen ∧
    h.bytes = BitVec.ofNat 64 seen.length

theorem hashed_new (source : Reader ρ String) (r : ρ) :
    Hashed source (source.rest r) (HashingReader.new r : HashingReader H ρ) :=
  ⟨[], rfl, (H.update_nil _).symm, rfl⟩

theorem hashed_read {source : Reader ρ String} {response : List UInt8} {h h' : HashingReader H ρ}
    {size : Nat} {out : List UInt8} (hh : Hashed source response h)
    (hread : (hashing H source).read h size = (.ok out, h')) : Hashed source response h' := by
  obtain ⟨seen, hresponse, hhasher, hbytes⟩ := hh
  obtain ⟨hinner, hhasher', hbytes'⟩ := HashingReader.read_ok hread
  refine ⟨seen ++ out, ?_, ?_, ?_⟩
  · rw [hresponse, source.read_rest hinner, List.append_assoc]
  · rw [hhasher', hhasher, H.update_append]
  · rw [hbytes', hbytes, List.length_append, BitVec.ofNat_add]

/-- What the hash and the count say of a response. -/
structure DigestOf (H : IncrementalHash) (response : List UInt8) (digest : String × BitVec 64) :
    Prop where
  hash : digest.1 = hexEncode (H.digest response)
  count : digest.2 = BitVec.ofNat 64 response.length
  exact : response.length < 2 ^ 64 → digest.2.toNat = response.length

theorem Hashed.finalize {source : Reader ρ String} {response : List UInt8} {h : HashingReader H ρ}
    (hh : Hashed source response h) (hrest : source.rest h.inner = []) :
    DigestOf H response h.finalize := by
  obtain ⟨seen, hresponse, hhasher, hbytes⟩ := hh
  rw [hrest, List.append_nil] at hresponse
  subst hresponse
  refine ⟨?_, hbytes, fun hlt => ?_⟩
  · rw [HashingReader.finalize, hhasher, IncrementalHash.digest]
  · rw [HashingReader.finalize, hbytes, BitVec.toNat_ofNat, Nat.mod_eq_of_lt hlt]

/-! ## The drain loop -/

def DISCARD_SIZE : Nat := 64 * 1024

def drainFailed (e : String) : Error := ["Failed to drain compressed stream: " ++ e]

/-- Read until a read is empty; `none` when that takes more turns than these. -/
def drain : Nat → Reading String (Option (Except Error Unit))
  | 0 => .done none
  | turns + 1 => .read DISCARD_SIZE fun reply =>
    match reply with
    | .ok out => if out.length = 0 then .done (some (.ok ())) else drain turns
    | .error e => .done (some (.error (drainFailed e)))

/-- On every finite stream the loop ends, and more turns change nothing. -/
theorem drain_terminates (source : Reader ρ String) (r : ρ) {turns : Nat} (more : Nat)
    (h : (source.rest r).length < turns) (hmore : turns ≤ more) :
    ((drain turns).run source r).result.isSome = true ∧
      (drain more).run source r = (drain turns).run source r := by
  induction turns generalizing r more with
  | zero => omega
  | succ turns ih =>
    cases more with
    | zero => omega
    | succ more =>
      rw [drain, drain]
      rcases hread : source.read r DISCARD_SIZE with ⟨reply, r'⟩
      cases reply with
      | error e =>
        rw [Reading.run_read_error source hread, Reading.run_read_error source hread]
        exact ⟨rfl, rfl⟩
      | ok out =>
        rw [Reading.run_read_ok source hread, Reading.run_read_ok source hread]
        dsimp only
        by_cases hempty : out.length = 0
        · rw [if_pos hempty, if_pos hempty]
          exact ⟨rfl, rfl⟩
        · rw [if_neg hempty, if_neg hempty]
          have hlength := congrArg List.length (source.read_rest hread)
          rw [List.length_append] at hlength
          exact ih r' more (by omega) (by omega)

/-- The loop ends well at the end of the stream only, with no failed read behind it. -/
theorem drain_ok {source : Reader ρ String} {turns : Nat} {r : ρ}
    (h : ((drain turns).run source r).result = some (.ok ())) :
    source.rest ((drain turns).run source r).reader = [] ∧
      ((drain turns).run source r).failed = false := by
  induction turns generalizing r with
  | zero => cases h
  | succ turns ih =>
    rw [drain] at h ⊢
    rcases hread : source.read r DISCARD_SIZE with ⟨reply, r'⟩
    cases reply with
    | error e =>
      rw [Reading.run_read_error source hread] at h
      cases h
    | ok out =>
      rw [Reading.run_read_ok source hread] at h ⊢
      dsimp only at h ⊢
      by_cases hempty : out.length = 0
      · rw [if_pos hempty] at h ⊢
        have hnil : out = [] := List.eq_nil_of_length_eq_zero hempty
        subst hnil
        refine ⟨?_, rfl⟩
        rcases source.read_end hread with hzero | hrest
        · cases hzero
        · rw [source.read_rest hread] at hrest
          exact hrest
      · rw [if_neg hempty] at h ⊢
        exact ih h

/-- A result is an error. -/
def Fails {α : Type} (result : Option (Except Error α)) : Prop := ∃ e, result = some (.error e)

theorem not_fails_ok {α : Type} (a : α) : ¬ Fails (some (.ok a) : Option (Except Error α)) := by
  rintro ⟨e, he⟩
  cases he

theorem drain_surfaces (turns : Nat) : (drain turns).Surfaces Fails := by
  induction turns with
  | zero => trivial
  | succ turns ih =>
    refine ⟨fun e => ⟨drainFailed e, rfl⟩, fun out => ?_⟩
    dsimp only
    by_cases hempty : out.length = 0
    · rw [if_pos hempty]
      trivial
    · rw [if_neg hempty]
      exact ih

/-! ## The extraction -/

/-- The decoder and the archive over it. All they do to the reader is read it (its other methods
go through that one), as much and as far ahead as they like; its errors are theirs. -/
structure ArchiveReader where
  State : Type
  start : State
  entries : State → Reading String (Except Error Unit × State)
  next : State → Reading String (Option (Except Error (Except Error String)) × State)
  readEntry : State → Nat → Reading String (Except Error (List UInt8) × State)
  entries_surfaces : ∀ s, (entries s).Surfaces fun out => ∃ e, out.1 = .error e
  next_surfaces : ∀ s, (next s).Surfaces fun out => ∃ e, out.1 = some (.error e)
  readEntry_surfaces : ∀ s size, (readEntry s size).Surfaces fun out => ∃ e, out.1 = .error e

namespace Streaming

variable (archive : ArchiveReader) (disk : DiskFaults) (encoderStarts : Bool)
  (entity outPath : String)

/-- The first entry whose path ends with the suffix, if the archive comes to one in these turns. -/
def scan : Nat → archive.State → Reading String (Option (Except Error (Option archive.State)))
  | 0, _ => .done none
  | turns + 1, s => (archive.next s).bind fun out =>
    match out with
    | (none, _) => .done (some (.ok none))
    | (some (.error e), _) => .done (some (.error ("Failed to read tar entry" :: e)))
    | (some (.ok (.error e)), _) => .done (some (.error ("Failed to read entry path" :: e)))
    | (some (.ok (.ok path)), s) =>
      if pathEndsWith path (entitySuffix entity) then .done (some (.ok (some s))) else scan turns s

/-- Read a piece and hand it to the encoder, until a read is empty. -/
def copy : Nat → Nat → archive.State → Reading String (Option (Except Error Unit))
  | 0, _, _ => .done none
  | turns + 1, n, s => (archive.readEntry s (256 * 1024)).bind fun out =>
    match out with
    | (.error e, _) => .done (some (.error (("Failed to read " ++ entity ++ " from tarball") :: e)))
    | (.ok piece, s) =>
      if piece = [] then .done (some (.ok ()))
      else match disk.write n with
        | some e => .done (some (.error
            ["Failed to write compressed " ++ entity ++ " to \"" ++ outPath ++ "\"", e]))
        | none => copy turns (n + 1) s

/-- The footer and the sync. -/
def finishFile : Except Error Unit :=
  match disk.finish with
  | some e => .error ["Failed to finalize XZ compression", e]
  | none =>
    match disk.sync with
    | some e => .error ["Failed to fsync \"" ++ outPath ++ "\"", e]
    | none => .ok ()

/-- From the creation of the file on. -/
def copyOut (turns : Nat) (s : archive.State) : Reading String (Option (Except Error Unit)) :=
  match disk.create with
  | some e => .done (some (.error ["Failed to create output file: \"" ++ outPath ++ "\"", e]))
  | none =>
    if !encoderStarts then
      .done (some (.error ["Failed to initialise multi-threaded xz encoder"]))
    else (copy archive disk entity outPath turns 0 s).bind fun copied =>
      match copied with
      | none => .done none
      | some (.error e) => .done (some (.error e))
      | some (.ok ()) => .done (some (finishFile disk outPath))

/-- What the extraction does to the reader before it hands it back. -/
def extractEntityFromReader (turns : Nat) : Reading String (Option (Except Error Unit)) :=
  (archive.entries archive.start).bind fun out =>
    match out with
    | (.error e, _) => .done (some (.error ("Failed to read tar entries" :: e)))
    | (.ok (), s) => (scan archive entity turns s).bind fun found =>
      match found with
      | none => .done none
      | some (.error e) => .done (some (.error e))
      | some (.ok none) =>
        .done (some (.error ["Entry '" ++ entitySuffix entity ++ "' not found in archive"]))
      | some (.ok (some s)) => copyOut archive disk encoderStarts entity outPath turns s

/-- The extraction, and the drain loop over the reader it hands back. -/
def readResponse (extraction : Reading String (Option (Except Error Unit))) (drainTurns : Nat) :
    Reading String (Option (Except Error Unit)) :=
  extraction.bind fun extracted =>
    match extracted with
    | none => .done none
    | some (.error e) => .done (some (.error e))
    | some (.ok ()) => drain drainTurns

/-- The digest, of a reader that was read to its end. -/
def digest (ran : Ran (Option (Except Error Unit)) (HashingReader H ρ)) :
    Option (Except Error (String × BitVec 64)) :=
  match ran.result with
  | none => none
  | some (.error e) => some (.error e)
  | some (.ok ()) => some (.ok ran.reader.finalize)

/-! ## No failed read goes unnoticed -/

theorem scan_surfaces (turns : Nat) (s : archive.State) :
    (scan archive entity turns s).Surfaces Fails := by
  induction turns generalizing s with
  | zero => trivial
  | succ turns ih =>
    refine (archive.next_surfaces s).bind ?_ ?_
    · rintro ⟨out, s⟩ ⟨e, rfl⟩
      exact ⟨_, rfl⟩
    · rintro ⟨out, s⟩
      rcases out with _ | (e | (e | path))
      · trivial
      · trivial
      · trivial
      · dsimp only
        by_cases hends : pathEndsWith path (entitySuffix entity) = true
        · rw [if_pos hends]
          trivial
        · rw [if_neg hends]
          exact ih s

theorem copy_surfaces (turns n : Nat) (s : archive.State) :
    (copy archive disk entity outPath turns n s).Surfaces Fails := by
  induction turns generalizing n s with
  | zero => trivial
  | succ turns ih =>
    refine (archive.readEntry_surfaces s _).bind ?_ ?_
    · rintro ⟨out, s⟩ ⟨e, rfl⟩
      exact ⟨_, rfl⟩
    · rintro ⟨out, s⟩
      cases out with
      | error e => trivial
      | ok piece =>
        dsimp only
        by_cases hempty : piece = []
        · rw [if_pos hempty]
          trivial
        · rw [if_neg hempty]
          cases disk.write n with
          | some e => trivial
          | none => exact ih (n + 1) s

theorem copyOut_surfaces (turns : Nat) (s : archive.State) :
    (copyOut archive disk encoderStarts entity outPath turns s).Surfaces Fails := by
  unfold copyOut
  cases disk.create with
  | some e => trivial
  | none =>
    cases encoderStarts with
    | false => trivial
    | true =>
      refine (copy_surfaces archive disk entity outPath turns 0 s).bind ?_ ?_
      · rintro copied ⟨e, rfl⟩
        exact ⟨e, rfl⟩
      · rintro (_ | (e | ⟨⟩))
        · trivial
        · trivial
        · trivial

theorem extract_surfaces (turns : Nat) :
    (extractEntityFromReader archive disk encoderStarts entity outPath turns).Surfaces Fails := by
  refine (archive.entries_surfaces archive.start).bind ?_ ?_
  · rintro ⟨out, s⟩ ⟨e, rfl⟩
    exact ⟨_, rfl⟩
  · rintro ⟨out, s⟩
    cases out with
    | error e => trivial
    | ok _ =>
      refine (scan_surfaces archive entity turns s).bind ?_ ?_
      · rintro found ⟨e, rfl⟩
        exact ⟨e, rfl⟩
      · rintro (_ | (e | (_ | s)))
        · trivial
        · trivial
        · trivial
        · exact copyOut_surfaces archive disk encoderStarts entity outPath turns s

theorem readResponse_surfaces {extraction : Reading String (Option (Except Error Unit))}
    (h : extraction.Surfaces Fails) (drainTurns : Nat) :
    (readResponse extraction drainTurns).Surfaces Fails := by
  refine h.bind ?_ ?_
  · rintro extracted ⟨e, rfl⟩
    exact ⟨e, rfl⟩
  · rintro (_ | (e | ⟨⟩))
    · trivial
    · trivial
    · exact drain_surfaces drainTurns

/-! ## The digest covers the response -/

/-- What the task owes of a response, however it was read: a clean drain gives the digest of the
hasher, no digest is of anything but the whole response, and a failed read is not passed over. -/
structure ResponseLaw (H : IncrementalHash) (response : List UInt8)
    (ran : Ran (Option (Except Error Unit)) (HashingReader H ρ)) : Prop where
  drained : ran.result = some (.ok ()) →
    digest ran = some (.ok ran.reader.finalize) ∧ DigestOf H response ran.reader.finalize
  covers : ∀ d, digest ran = some (.ok d) → DigestOf H response d
  surfaces : ran.failed = true → Fails (digest ran)

theorem digest_fails {ran : Ran (Option (Except Error Unit)) (HashingReader H ρ)}
    (h : Fails ran.result) : Fails (digest ran) := by
  obtain ⟨e, he⟩ := h
  exact ⟨e, by rw [digest, he]⟩

theorem digest_ok_iff {ran : Ran (Option (Except Error Unit)) (HashingReader H ρ)}
    {d : String × BitVec 64} :
    digest ran = some (.ok d) ↔ ran.result = some (.ok ()) ∧ ran.reader.finalize = d := by
  unfold digest
  cases ran.result with
  | none => simp
  | some result =>
    cases result with
    | error e => simp
    | ok _ => simp

/-- A program that fails when a read does and ends well only at the end of the response. -/
theorem responseLaw_of_run (H : IncrementalHash) (source : Reader ρ String) (r : ρ)
    {p : Reading String (Option (Except Error Unit))} (hsurfaces : p.Surfaces Fails)
    (hends : (p.run (hashing H source) (.new r)).result = some (.ok ()) →
      source.rest (p.run (hashing H source) (.new r)).reader.inner = []) :
    ResponseLaw H (source.rest r) (p.run (hashing H source) (.new r)) := by
  have hwhole : (p.run (hashing H source) (.new r)).result = some (.ok ()) →
      DigestOf H (source.rest r) (p.run (hashing H source) (.new r)).reader.finalize := by
    intro hresult
    have hclean : (p.run (hashing H source) (.new r)).failed = false := by
      apply hsurfaces.clean
      rw [hresult]
      exact not_fails_ok ()
    have hhashed : Hashed source (source.rest r) (p.run (hashing H source) (.new r)).reader :=
      Reading.run_preserves hashed_read (hashed_new source r) hclean
    exact hhashed.finalize (hends hresult)
  constructor
  · exact fun hresult => ⟨digest_ok_iff.mpr ⟨hresult, rfl⟩, hwhole hresult⟩
  · intro d hd
    obtain ⟨hresult, rfl⟩ := digest_ok_iff.mp hd
    exact hwhole hresult
  · intro h
    exact digest_fails (hsurfaces.run h)

/-- A run that ends well has come to the end of the response. -/
theorem readResponse_ok {source : Reader ρ String}
    {extraction : Reading String (Option (Except Error Unit))} {drainTurns : Nat} {r : ρ}
    (h : ((readResponse extraction drainTurns).run source r).result = some (.ok ())) :
    source.rest ((readResponse extraction drainTurns).run source r).reader = [] := by
  rw [readResponse, Reading.run_bind] at h ⊢
  dsimp only at h ⊢
  cases hextracted : (extraction.run source r).result with
  | none =>
    rw [hextracted] at h
    cases h
  | some extracted =>
    rw [hextracted] at h
    cases extracted with
    | error e => cases h
    | ok _ => exact (drain_ok h).1

/-- Wherever the extraction stops, if errors of the reader make it fail. -/
theorem responseLaw_of_surfaces (H : IncrementalHash) (source : Reader ρ String) (r : ρ)
    {extraction : Reading String (Option (Except Error Unit))} (hsurfaces : extraction.Surfaces Fails)
    (drainTurns : Nat) :
    ResponseLaw H (source.rest r)
      ((readResponse extraction drainTurns).run (hashing H source) (.new r)) :=
  responseLaw_of_run H source r (readResponse_surfaces hsurfaces drainTurns) readResponse_ok

/-- An attempt that drains the response has a digest, which is that of the whole response; a failed
read makes the attempt fail, and the drain loop ends wherever it takes over. -/
theorem digest_covers_response (H : IncrementalHash) (source : Reader ρ String) (r : ρ)
    (archive : ArchiveReader) (disk : DiskFaults) (encoderStarts : Bool) (entity outPath : String)
    (turns drainTurns : Nat) :
    ResponseLaw H (source.rest r)
      ((readResponse (extractEntityFromReader archive disk encoderStarts entity outPath turns)
        drainTurns).run (hashing H source) (.new r)) ∧
    ∀ h : HashingReader H ρ, ∃ enough result, ∀ more, enough ≤ more →
      ((drain more).run (hashing H source) h).result = some result := by
  constructor
  · exact responseLaw_of_surfaces H source r
      (extract_surfaces archive disk encoderStarts entity outPath turns) drainTurns
  · intro h
    have hends := fun more => drain_terminates (hashing H source) h more
      (Nat.lt_succ_self ((hashing H source).rest h).length)
    obtain ⟨result, hresult⟩ := Option.isSome_iff_exists.mp (hends _ (Nat.le_refl _)).1
    exact ⟨_, result, fun more hmore => by rw [(hends more hmore).2, hresult]⟩

/-- A hash that keeps what it is fed. -/
def keepAll : IncrementalHash where
  State := List UInt8
  new := []
  update h piece := h ++ piece
  finalize h := h
  update_nil h := List.append_nil h
  update_append h a b := List.append_assoc h a b

/-- An archive of one entry: a header of two bytes, then one read of the entry. -/
def oneEntry : ArchiveReader where
  State := Nat
  start := 0
  entries s := .done (.ok (), s)
  next s := .read 2 fun reply => match reply with
    | .ok _ => .done (some (.ok (.ok "mbdump/artist")), s)
    | .error e => .done (some (.error [e]), s)
  readEntry s size :=
    if s = 0 then .read size fun reply => match reply with
      | .ok out => .done (.ok out, s + 1)
      | .error e => .done (.error [e], s)
    else .done (.ok [], s)
  entries_surfaces _ := trivial
  next_surfaces _ := ⟨fun e => ⟨[e], rfl⟩, fun _ => trivial⟩
  readEntry_surfaces s size := by
    by_cases h : s = 0
    · rw [if_pos h]
      exact ⟨fun e => ⟨[e], rfl⟩, fun _ => trivial⟩
    · rw [if_neg h]
      trivial

/-- The header and the entry come in short reads, and what is left of the response is drained. -/
theorem digest_covers_response_oneEntry :
    let ran := (readResponse (extractEntityFromReader oneEntry {} true "artist" "artist.jsonl.xz" 3)
      8).run (hashing keepAll (.chunked fun n _ => n)) (.new ⟨⟨[1, 2, 3, 4, 5, 6, 7], none⟩, 0⟩)
    digest ran = some (.ok ("01020304050607", 7)) ∧
      DigestOf keepAll [1, 2, 3, 4, 5, 6, 7] ("01020304050607", 7) := by
  have hdigest : digest ((readResponse (extractEntityFromReader oneEntry {} true "artist"
      "artist.jsonl.xz" 3) 8).run (hashing keepAll (.chunked fun n _ => n))
        (.new ⟨⟨[1, 2, 3, 4, 5, 6, 7], none⟩, 0⟩)) = some (.ok ("01020304050607", 7)) := by
    decide +kernel
  exact ⟨hdigest, (digest_covers_response keepAll (.chunked fun n _ => n)
    ⟨⟨[1, 2, 3, 4, 5, 6, 7], none⟩, 0⟩ oneEntry {} true "artist" "artist.jsonl.xz" 3 8).1.covers _
      hdigest⟩

/-! ## The task over a stream -/

/-- The comparison, and the number of bytes the attempt reports. -/
def verifyDigest (entity expected : String) : String × BitVec 64 → Except Error (BitVec 64)
  | (actual, bytes) =>
    if actual ≠ expected then
      .error ["SHA256 mismatch for " ++ entity ++ ": expected " ++ expected ++ ", got " ++ actual]
    else .ok bytes

def verified (entity expected : String)
    (ran : Ran (Option (Except Error Unit)) (HashingReader H ρ)) : Option (Except Error (BitVec 64)) :=
  (digest ran).map fun result => result.bind (verifyDigest entity expected)

/-- A program does with the hashing reader what it does with the reader inside. -/
theorem run_hashing {α : Type} (p : Reading String α) (source : Reader ρ String)
    (h : HashingReader H ρ) :
    (p.run (hashing H source) h).result = (p.run source h.inner).result ∧
      (p.run (hashing H source) h).reader.inner = (p.run source h.inner).reader := by
  induction p generalizing h with
  | done a => exact ⟨rfl, rfl⟩
  | read size next ih =>
    rcases hread : (hashing H source).read h size with ⟨reply, h'⟩
    cases reply with
    | ok out =>
      rw [Reading.run_read_ok _ hread, Reading.run_read_ok _ (HashingReader.read_ok hread).1]
      exact ih (.ok out) h'
    | error e =>
      rw [Reading.run_read_error _ hread,
        Reading.run_read_error _ (HashingReader.read_error hread)]
      exact ih (.error e) h'

/-- Over a stream the loop ends as the stream does. -/
theorem drain_chunked (pick : Nat → Nat → Nat) {s : ChunkedStream} {turns : Nat}
    (h : s.stream.bytes.length < turns) :
    ((drain turns).run (.chunked pick) s).result =
      match s.stream.failure with
      | some e => some (.error (drainFailed e))
      | none => some (.ok ()) := by
  induction turns generalizing s with
  | zero => omega
  | succ turns ih =>
    rw [drain]
    rcases hread : (Reader.chunked pick).read s DISCARD_SIZE with ⟨reply, s'⟩
    cases reply with
    | error e =>
      rw [Reading.run_read_error _ hread, ChunkedStream.read_error hread]
      rfl
    | ok out =>
      obtain ⟨hbytes, hfailure, -, hend⟩ := ChunkedStream.read_ok hread
      rw [Reading.run_read_ok _ hread]
      dsimp only
      by_cases hempty : out.length = 0
      · have hnil : out = [] := List.eq_nil_of_length_eq_zero hempty
        rw [if_pos hempty]
        rcases hend hnil with hzero | hend
        · cases hzero
        · rw [ChunkedStream.read_end_ok hread hend]
          rfl
      · have hlength := congrArg List.length hbytes
        rw [List.length_append] at hlength
        rw [if_neg hempty, ← hfailure]
        exact ih (by omega)

theorem stream_preserved (body : Text.Stream) {pick : Nat → Nat → Nat} {s s' : ChunkedStream}
    {size : Nat} {out : List UInt8}
    (hs : s.stream.failure = body.failure ∧ s.stream.bytes.length ≤ body.bytes.length)
    (hread : (Reader.chunked pick).read s size = (.ok out, s')) :
    s'.stream.failure = body.failure ∧ s'.stream.bytes.length ≤ body.bytes.length := by
  obtain ⟨hbytes, hfailure, -, -⟩ := ChunkedStream.read_ok hread
  have hlength := congrArg List.length hbytes
  rw [List.length_append] at hlength
  exact ⟨hfailure.trans hs.1, by omega⟩

/-- Over a stream, what follows a successful extraction ends as the stream does. -/
theorem readResponse_chunked (H : IncrementalHash) (body : Text.Stream) (pick : Nat → Nat → Nat)
    {extraction : Reading String (Option (Except Error Unit))} (hsurfaces : extraction.Surfaces Fails)
    {drainTurns : Nat} (hturns : body.bytes.length < drainTurns)
    (hread : (extraction.run (.chunked pick) ⟨body, 0⟩).result = some (.ok ())) :
    ((readResponse extraction drainTurns).run (hashing H (.chunked pick)) (.new ⟨body, 0⟩)).result =
      match body.failure with
      | some e => some (.error (drainFailed e))
      | none => some (.ok ()) := by
  have hclean : (extraction.run (.chunked pick) ⟨body, 0⟩).failed = false := by
    apply hsurfaces.clean
    rw [hread]
    exact not_fails_ok ()
  obtain ⟨hfailure, hlength⟩ :=
    Reading.run_preserves (stream_preserved body) (⟨rfl, Nat.le_refl _⟩ : _ ∧ _) hclean
  rw [(run_hashing _ _ _).1, readResponse, Reading.run_bind, ← hfailure,
    ← drain_chunked pick (Nat.lt_of_le_of_lt hlength hturns)]
  dsimp only [HashingReader.new]
  rw [hread]

/-- Where the extraction of the whole stream succeeds, and the one that reads it does, the task
reports what the blocking task returns, however the stream is chunked. -/
theorem blockingTask_streamed (env : ExtractExternals) (threads : Nat) (disk : DiskFaults)
    (entity expected outPath : String) (tmp : Option (List UInt8)) (body : Text.Stream)
    (pick : Nat → Nat → Nat) {extraction : Reading String (Option (Except Error Unit))}
    (hsurfaces : extraction.Surfaces Fails) {drainTurns : Nat}
    (hturns : body.bytes.length < drainTurns)
    (hread : (extraction.run (.chunked pick) ⟨body, 0⟩).result = some (.ok ()))
    (hextract : (MusicbrainzIngestion.extractEntityFromReader env disk threads entity
      (tmpDownloadName outPath) tmp body).result = .ok ()) :
    verified entity expected ((readResponse extraction drainTurns).run
        (hashing H (.chunked pick)) (.new ⟨body, 0⟩)) =
      some ((blockingTask env (fun m => hexEncode (H.digest m)) threads entity expected outPath disk
        body tmp).1.map fun _ => BitVec.ofNat 64 body.bytes.length) := by
  have hresult := readResponse_chunked H body pick hsurfaces hturns hread
  have hlaw : ResponseLaw H body.bytes ((readResponse extraction drainTurns).run
      (hashing H (.chunked pick)) (.new ⟨body, 0⟩)) :=
    responseLaw_of_surfaces H (.chunked pick) ⟨body, 0⟩ hsurfaces drainTurns
  generalize (readResponse extraction drainTurns).run (hashing H (.chunked pick))
    (.new ⟨body, 0⟩) = ran at hresult hlaw
  cases hf : body.failure with
  | some e =>
    rw [hf] at hresult
    simp only [verified, digest, hresult, blockingTask, hextract, hf, drainFailed, Option.map_some,
      Except.bind, Except.map]
  | none =>
    rw [hf] at hresult
    have hdigest : digest ran = some (.ok ran.reader.finalize) := digest_ok_iff.mpr ⟨hresult, rfl⟩
    have hcovers := hlaw.covers _ hdigest
    rw [verified, hdigest]
    by_cases hhash : hexEncode (H.digest body.bytes) = expected
    · simp only [blockingTask, hextract, hf, Option.map_some, Except.bind, verifyDigest, hcovers.hash,
        hcovers.count, hhash, ne_eq, not_true_eq_false, if_false, Except.map]
    · simp only [blockingTask, hextract, hf, Option.map_some, Except.bind, verifyDigest, hcovers.hash,
        hhash, ne_eq, not_false_eq_true, if_true, Except.map]

end Streaming

end MusicbrainzIngestion
