import MusicbrainzIngestion.Downloader

/-! One extraction, from the response to the file: the entry is found in the archive,
read piece by piece and encoded again. The read loop ends at the first empty read, which
the end of the entry and the end of the stream both give. -/

namespace MusicbrainzIngestion
open Base

/-! ## The encoder's threads -/

def DEFAULT_XZ_THREADS : Nat := 6

/-- The setting, when it is a positive number, else the cores up to the default. -/
def resolveXzThreads (envValue : Option String) (cores : Nat) : Nat :=
  match (envValue.bind fun v => Text.parseU32 (Text.trim v)).filter (0 < ·) with
  | some n => n
  | none => max 1 (min cores DEFAULT_XZ_THREADS)

theorem resolveXzThreads_pos (envValue : Option String) (cores : Nat) :
    0 < resolveXzThreads envValue cores := by
  unfold resolveXzThreads
  cases h : (envValue.bind fun v => Text.parseU32 (Text.trim v)).filter (0 < ·) with
  | none => exact Nat.lt_of_lt_of_le Nat.one_pos (Nat.le_max_left _ _)
  | some n => simpa using (Option.filter_eq_some_iff.mp h).2

/-! ## The archive -/

/-- An entry of an archive: its path, the size its header declares, and the pieces that
reading it gives before the last read, which is empty or fails. -/
structure ArchiveMember where
  path : Except Error String
  size : Nat
  pieces : List (List UInt8)
  failure : Option Error
  nonempty : ∀ piece ∈ pieces, piece ≠ []
  within : pieces.flatten.length ≤ size
  inside : failure.isSome → pieces.flatten.length < size

namespace ArchiveMember

/-- What the stream holds of the entry. -/
def content (m : ArchiveMember) : List UInt8 := m.pieces.flatten

def Whole (m : ArchiveMember) : Prop := m.content.length = m.size

instance (m : ArchiveMember) : Decidable m.Whole := inferInstanceAs (Decidable (_ = _))

def lastRead (m : ArchiveMember) : Except Error (List UInt8) :=
  match m.failure with
  | some e => .error e
  | none => .ok []

/-- The results of the successive reads. -/
def reads (m : ArchiveMember) : List (Except Error (List UInt8)) := m.pieces.map .ok ++ [m.lastRead]

end ArchiveMember

/-- The xz format: what was encoded is decoded again. -/
structure XzCodec where
  encode : List UInt8 → List UInt8
  decode : Text.Stream → Text.Stream
  decode_encode : ∀ content, decode ⟨encode content, none⟩ = ⟨content, none⟩

structure ExtractExternals where
  xz : XzCodec
  members : Text.Stream → Except Error (List (Except Error ArchiveMember))
  encoderStarts : Nat → Bool

/-- The operations on the output file that fail, and what it holds when it cannot be removed. -/
structure DiskFaults where
  create : Option String := none
  write : Nat → Option String := fun _ => none
  finish : Option String := none
  sync : Option String := none
  remove : Option String := none
  leftover : List UInt8 := []

/-- What a call returns, whether it created the file, and what is at the path after it. -/
structure Extraction where
  result : Except Error Unit
  created : Bool
  file : Option (List UInt8)

/-! ## The scan and the copy -/

def entitySuffix (entity : String) : String := "mbdump/" ++ entity

def findEntry (entity : String) :
    List (Except Error ArchiveMember) → Except Error (Option ArchiveMember)
  | [] => .ok none
  | .error e :: _ => .error ("Failed to read tar entry" :: e)
  | .ok entry :: rest =>
    match entry.path with
    | .error e => .error ("Failed to read entry path" :: e)
    | .ok path =>
      if pathEndsWith path (entitySuffix entity) then .ok (some entry) else findEntry entity rest

/-- Read a piece and hand it to the encoder, until a read is empty. -/
def copyEntry (entity outPath : String) (write : Nat → Option String) :
    Nat → List UInt8 → List (Except Error (List UInt8)) → Except Error (List UInt8)
  | _, content, [] => .ok content
  | _, _, .error e :: _ => .error (("Failed to read " ++ entity ++ " from tarball") :: e)
  | n, content, .ok piece :: rest =>
    if piece = [] then .ok content
    else match write n with
      | some e => .error ["Failed to write compressed " ++ entity ++ " to \"" ++ outPath ++ "\"", e]
      | none => copyEntry entity outPath write (n + 1) (content ++ piece) rest

/-- The copy, the footer and the sync. -/
def writeEntry (disk : DiskFaults) (entity outPath : String) (entry : ArchiveMember) :
    Except Error (List UInt8) :=
  match copyEntry entity outPath disk.write 0 [] entry.reads with
  | .error e => .error e
  | .ok content =>
    match disk.finish with
    | some e => .error ["Failed to finalize XZ compression", e]
    | none =>
      match disk.sync with
      | some e => .error ["Failed to fsync \"" ++ outPath ++ "\"", e]
      | none => .ok content

/-- Best effort: the file, unless it cannot be removed. -/
def DiskFaults.removed (disk : DiskFaults) (file : Option (List UInt8)) : Option (List UInt8) :=
  if disk.remove.isSome then file else none

/-- From the creation of the file to the end of the call. -/
def copyOut (env : ExtractExternals) (disk : DiskFaults) (threads : Nat) (entity outPath : String)
    (before : Option (List UInt8)) (entry : ArchiveMember) : Extraction :=
  match disk.create with
  | some e => ⟨.error ["Failed to create output file: \"" ++ outPath ++ "\"", e], false, before⟩
  | none =>
    -- the encoder is set up before the closure whose errors remove the file
    if !env.encoderStarts threads then
      ⟨.error ["Failed to initialise multi-threaded xz encoder"], true, some []⟩
    else match writeEntry disk entity outPath entry with
      | .error e => ⟨.error e, true, disk.removed (some disk.leftover)⟩
      | .ok content => ⟨.ok (), true, some (env.xz.encode content)⟩

def extractEntityFromReader (env : ExtractExternals) (disk : DiskFaults) (threads : Nat)
    (entity outPath : String) (before : Option (List UInt8)) (reader : Text.Stream) : Extraction :=
  match env.members (env.xz.decode reader) with
  | .error e => ⟨.error ("Failed to read tar entries" :: e), false, before⟩
  | .ok entries =>
    match findEntry entity entries with
    | .error e => ⟨.error e, false, before⟩
    | .ok none =>
      ⟨.error ["Entry '" ++ entitySuffix entity ++ "' not found in archive"], false,
        disk.removed before⟩
    | .ok (some entry) => copyOut env disk threads entity outPath before entry

/-! ## What the scan finds -/

/-- The entry is the first whose path ends with the components of the suffix. -/
def FirstMatch (entity : String) (entries : List (Except Error ArchiveMember))
    (entry : ArchiveMember) : Prop :=
  ∃ before after path, entries = before ++ .ok entry :: after ∧ entry.path = .ok path ∧
    pathEndsWith path (entitySuffix entity) = true ∧
    ∀ e ∈ before, ∃ other otherPath, e = .ok other ∧ other.path = .ok otherPath ∧
      pathEndsWith otherPath (entitySuffix entity) = false

theorem findEntry_iff {entity : String} {entries : List (Except Error ArchiveMember)}
    {entry : ArchiveMember} :
    findEntry entity entries = .ok (some entry) ↔ FirstMatch entity entries entry := by
  induction entries with
  | nil =>
    constructor
    · intro h
      cases h
    · rintro ⟨before, after, path, h, -⟩
      exact absurd h (by simp)
  | cons head rest ih =>
    constructor
    · intro h
      cases head with
      | error e => cases h
      | ok other =>
        unfold findEntry at h
        cases hpath : other.path with
        | error e => rw [hpath] at h; cases h
        | ok path =>
          rw [hpath] at h
          by_cases hends : pathEndsWith path (entitySuffix entity) = true
          · simp only [hends, if_true, Except.ok.injEq, Option.some.injEq] at h
            exact ⟨[], rest, path, by rw [h]; rfl, h ▸ hpath, hends, fun _ h => by cases h⟩
          · simp only [hends] at h
            obtain ⟨before, after, path', rfl, hentry, hmatch, hbefore⟩ := ih.mp h
            refine ⟨.ok other :: before, after, path', rfl, hentry, hmatch, ?_⟩
            rw [List.forall_mem_cons]
            exact ⟨⟨other, path, rfl, hpath, by simpa using hends⟩, hbefore⟩
    · rintro ⟨before, after, path, h, hentry, hmatch, hbefore⟩
      cases before with
      | nil =>
        cases h
        simp only [findEntry, hentry, hmatch, if_true]
      | cons e before =>
        obtain ⟨rfl, rfl⟩ := List.cons.inj h
        rw [List.forall_mem_cons] at hbefore
        obtain ⟨⟨other, otherPath, rfl, hpath, hends⟩, hbefore⟩ := hbefore
        simp only [findEntry, hpath, hends]
        exact ih.mpr ⟨before, after, path, rfl, hentry, hmatch, hbefore⟩

/-- The response decodes to an archive in which the entry is found. -/
def Reaches (env : ExtractExternals) (entity : String) (reader : Text.Stream)
    (entry : ArchiveMember) : Prop :=
  ∃ entries, env.members (env.xz.decode reader) = .ok entries ∧ FirstMatch entity entries entry

/-! ## What the copy writes -/

/-- Some step after the file was created fails. -/
def WriteFails (disk : DiskFaults) (entry : ArchiveMember) : Prop :=
  entry.failure.isSome ∨ (∃ n < entry.pieces.length, (disk.write n).isSome) ∨
    disk.finish.isSome ∨ disk.sync.isSome

theorem copyEntry_pieces (entity outPath : String) (write : Nat → Option String)
    {pieces : List (List UInt8)} (hne : ∀ piece ∈ pieces, piece ≠ [])
    (last : List (Except Error (List UInt8))) (n : Nat) (content : List UInt8)
    (hwrite : ∀ i < pieces.length, write (n + i) = none) :
    copyEntry entity outPath write n content (pieces.map .ok ++ last) =
      copyEntry entity outPath write (n + pieces.length) (content ++ pieces.flatten) last := by
  induction pieces generalizing n content with
  | nil => rw [List.flatten_nil, List.append_nil]; rfl
  | cons piece pieces ih =>
    rw [List.forall_mem_cons] at hne
    have hfirst : write n = none := hwrite 0 (by simp)
    have hrest : ∀ i < pieces.length, write (n + 1 + i) = none := by
      intro i hi
      have h := hwrite (i + 1) (by simpa using hi)
      rwa [Nat.add_comm i 1, ← Nat.add_assoc] at h
    rw [List.map_cons, List.cons_append, copyEntry, if_neg hne.1]
    simp only [hfirst, ih hne.2 (n + 1) (content ++ piece) hrest, List.length_cons,
      List.flatten_cons, List.append_assoc]
    rw [Nat.add_assoc, Nat.add_comm 1]

theorem copyEntry_write_fails (entity outPath : String) (write : Nat → Option String)
    {pieces : List (List UInt8)} (hne : ∀ piece ∈ pieces, piece ≠ [])
    (last : List (Except Error (List UInt8))) (n : Nat) (content : List UInt8)
    (hwrite : ∃ i < pieces.length, (write (n + i)).isSome) :
    ∃ e, copyEntry entity outPath write n content (pieces.map .ok ++ last) = .error e := by
  induction pieces generalizing n content with
  | nil =>
    obtain ⟨i, hi, -⟩ := hwrite
    cases hi
  | cons piece pieces ih =>
    rw [List.forall_mem_cons] at hne
    rw [List.map_cons, List.cons_append, copyEntry, if_neg hne.1]
    cases hfirst : write n with
    | some e => exact ⟨_, rfl⟩
    | none =>
      obtain ⟨i, hi, hfail⟩ := hwrite
      cases i with
      | zero => simp [hfirst] at hfail
      | succ i =>
        refine ih hne.2 (n + 1) (content ++ piece) ⟨i, by simpa using hi, ?_⟩
        rwa [Nat.add_assoc, Nat.add_comm 1]

theorem writeEntry_ok {disk : DiskFaults} {entry : ArchiveMember} (entity outPath : String)
    (h : ¬ WriteFails disk entry) : writeEntry disk entity outPath entry = .ok entry.content := by
  unfold WriteFails at h
  push Not at h
  obtain ⟨hread, hwrite, hfinish, hsync⟩ := h
  have hlast : entry.lastRead = .ok [] := by
    unfold ArchiveMember.lastRead
    cases hf : entry.failure with
    | none => rfl
    | some e => simp [hf] at hread
  have hcopy : copyEntry entity outPath disk.write 0 [] entry.reads = .ok entry.content := by
    rw [ArchiveMember.reads, copyEntry_pieces entity outPath disk.write entry.nonempty, hlast,
      copyEntry, if_pos rfl]
    · rfl
    · intro i hi
      simpa using hwrite i hi
  have hf : disk.finish = none := by simpa using hfinish
  have hs : disk.sync = none := by simpa using hsync
  simp only [writeEntry, hcopy, hf, hs]

theorem writeEntry_error {disk : DiskFaults} {entry : ArchiveMember} (entity outPath : String)
    (h : WriteFails disk entry) : ∃ e, writeEntry disk entity outPath entry = .error e := by
  unfold writeEntry
  cases hcopy : copyEntry entity outPath disk.write 0 [] entry.reads with
  | error e => exact ⟨e, rfl⟩
  | ok content =>
    have hwrite : ∀ i < entry.pieces.length, disk.write (0 + i) = none := by
      by_contra hfail
      push Not at hfail
      obtain ⟨i, hi, hne⟩ := hfail
      obtain ⟨e, he⟩ := copyEntry_write_fails entity outPath disk.write entry.nonempty
        [entry.lastRead] 0 [] ⟨i, hi, Option.isSome_iff_ne_none.mpr hne⟩
      rw [ArchiveMember.reads, he] at hcopy
      cases hcopy
    have hread : entry.failure = none := by
      cases hf : entry.failure with
      | none => rfl
      | some e =>
        rw [ArchiveMember.reads, copyEntry_pieces entity outPath disk.write entry.nonempty _ 0 [] hwrite,
          ArchiveMember.lastRead, hf, copyEntry] at hcopy
        cases hcopy
    rcases h with h | ⟨i, hi, h⟩ | h | h
    · simp [hread] at h
    · have hnone := hwrite i hi
      rw [Nat.zero_add] at hnone
      simp [hnone] at h
    · obtain ⟨e, he⟩ := Option.isSome_iff_exists.mp h
      simp only [he]
      exact ⟨_, rfl⟩
    · obtain ⟨e, he⟩ := Option.isSome_iff_exists.mp h
      cases hfinish : disk.finish with
      | some e => exact ⟨_, rfl⟩
      | none =>
        simp only [he]
        exact ⟨_, rfl⟩

/-! ## The whole entry or nothing -/

section
variable (env : ExtractExternals) (disk : DiskFaults) (threads : Nat) (entity outPath : String)
  (before : Option (List UInt8)) (reader : Text.Stream)

/-- A call that reaches no entry fails before it creates the file. -/
theorem extract_not_reached (h : ∀ entry, ¬ Reaches env entity reader entry) :
    ∃ e, ∀ before,
      (extractEntityFromReader env disk threads entity outPath before reader).result = .error e ∧
        (extractEntityFromReader env disk threads entity outPath before reader).created = false := by
  unfold extractEntityFromReader
  cases hmembers : env.members (env.xz.decode reader) with
  | error e => exact ⟨_, fun _ => ⟨rfl, rfl⟩⟩
  | ok entries =>
    cases hfind : findEntry entity entries with
    | error e =>
      dsimp only
      rw [hfind]
      exact ⟨_, fun _ => ⟨rfl, rfl⟩⟩
    | ok found =>
      cases found with
      | none =>
        dsimp only
        rw [hfind]
        exact ⟨_, fun _ => ⟨rfl, rfl⟩⟩
      | some entry => exact absurd ⟨entries, hmembers, findEntry_iff.mp hfind⟩ (h entry)

/-- A call that reaches an entry copies it, if the file and the encoder can be had. -/
theorem extract_reached {entry : ArchiveMember} (h : Reaches env entity reader entry) :
    extractEntityFromReader env disk threads entity outPath before reader =
      copyOut env disk threads entity outPath before entry := by
  obtain ⟨entries, hmembers, hfirst⟩ := h
  simp only [extractEntityFromReader, hmembers, findEntry_iff.mpr hfirst]

theorem copyOut_cases (entry : ArchiveMember) :
    (∃ e, ∀ before, (copyOut env disk threads entity outPath before entry).result = .error e) ∨
      disk.create = none ∧ env.encoderStarts threads = true ∧ ¬ WriteFails disk entry ∧
        ∀ before, copyOut env disk threads entity outPath before entry =
          ⟨.ok (), true, some (env.xz.encode entry.content)⟩ := by
  unfold copyOut
  cases hcreate : disk.create with
  | some e => exact .inl ⟨_, fun _ => rfl⟩
  | none =>
    cases hstarts : env.encoderStarts threads with
    | false => exact .inl ⟨_, fun _ => rfl⟩
    | true =>
      by_cases hfails : WriteFails disk entry
      · obtain ⟨e, he⟩ := writeEntry_error entity outPath hfails
        exact .inl ⟨e, fun _ => by simp [he]⟩
      · have he := writeEntry_ok entity outPath hfails
        exact .inr ⟨rfl, rfl, hfails, fun _ => by simp [he]⟩

theorem Reaches.unique {entry entry' : ArchiveMember} (h : Reaches env entity reader entry)
    (h' : Reaches env entity reader entry') : entry = entry' := by
  obtain ⟨entries, hmembers, hfirst⟩ := h
  obtain ⟨entries', hmembers', hfirst'⟩ := h'
  rw [hmembers] at hmembers'
  cases hmembers'
  rw [← findEntry_iff] at hfirst hfirst'
  rw [hfirst] at hfirst'
  cases hfirst'
  rfl

/-- A success leaves a file that decodes to the whole entry, a failure no file of its own. -/
structure WholeOrNothing : Prop where
  whole : (extractEntityFromReader env disk threads entity outPath before reader).result = .ok () →
    ∃ entry, Reaches env entity reader entry ∧ entry.content.length = entry.size ∧
      ∃ file, (extractEntityFromReader env disk threads entity outPath before reader).file = some file ∧
        env.xz.decode ⟨file, none⟩ = ⟨entry.content, none⟩
  cut : ∀ entry, Reaches env entity reader entry → entry.content.length < entry.size →
    ∃ e, (extractEntityFromReader env disk threads entity outPath before reader).result = .error e
  clean : ∀ e, (extractEntityFromReader env disk threads entity outPath before reader).result = .error e →
    (extractEntityFromReader env disk threads entity outPath before reader).created = true →
    (extractEntityFromReader env disk threads entity outPath before reader).file = none

/-- The encoder accepts its threads, and the entry is whole unless its copy fails, which
then can be removed. -/
def CopiesSoundly : Prop :=
  ∀ entry, Reaches env entity reader entry → disk.create = none →
    env.encoderStarts threads = true ∧
      ((WriteFails disk entry ∧ disk.remove = none) ∨ (¬ WriteFails disk entry ∧ entry.Whole))

theorem copiesSoundly_iff {entry : ArchiveMember} (h : Reaches env entity reader entry) :
    CopiesSoundly env disk threads entity reader ↔ (disk.create = none →
      env.encoderStarts threads = true ∧
        ((WriteFails disk entry ∧ disk.remove = none) ∨ (¬ WriteFails disk entry ∧ entry.Whole))) := by
  constructor
  · intro hsound
    exact hsound entry h
  · intro hsound entry' h'
    rw [← Reaches.unique env entity reader h h']
    exact hsound

/-- A failure after the creation is clean exactly when the file is gone. -/
theorem wholeOrNothing_of_error {e : Error} {created : Bool} {file : Option (List UInt8)}
    (hrun : extractEntityFromReader env disk threads entity outPath before reader =
      ⟨.error e, created, file⟩) :
    WholeOrNothing env disk threads entity outPath before reader ↔ (created = true → file = none) := by
  constructor
  · intro hp hcreated
    have hclean := hp.clean e
    rw [hrun] at hclean
    exact hclean rfl hcreated
  · intro hclean
    refine ⟨fun hok => ?_, fun _ _ _ => ⟨e, by rw [hrun]⟩, fun _ _ => by rw [hrun]; exact hclean⟩
    rw [hrun] at hok
    cases hok

/-- A success is right exactly when the stream held all of the entry. -/
theorem wholeOrNothing_of_ok {entry : ArchiveMember} (h : Reaches env entity reader entry)
    (hrun : extractEntityFromReader env disk threads entity outPath before reader =
      ⟨.ok (), true, some (env.xz.encode entry.content)⟩) :
    WholeOrNothing env disk threads entity outPath before reader ↔ entry.Whole := by
  constructor
  · intro hp
    obtain ⟨entry', hentry', hsize, -⟩ := hp.whole (by rw [hrun])
    rw [← Reaches.unique env entity reader h hentry'] at hsize
    exact hsize
  · intro hwhole
    refine ⟨fun _ => ⟨entry, h, hwhole, _, by rw [hrun], env.xz.decode_encode _⟩, ?_, ?_⟩
    · intro entry' hentry' hcut
      rw [← Reaches.unique env entity reader h hentry', hwhole] at hcut
      exact absurd hcut (Nat.lt_irrefl _)
    · intro e he
      rw [hrun] at he
      cases he

/-- An extraction that reaches no entry of the entity creates nothing. -/
theorem wholeOrNothing_of_not_reached (h : ∀ entry, ¬ Reaches env entity reader entry) :
    WholeOrNothing env disk threads entity outPath before reader := by
  obtain ⟨e, hrun⟩ := extract_not_reached env disk threads entity outPath reader h
  obtain ⟨he, hcreated⟩ := hrun before
  refine ⟨?_, ?_, ?_⟩
  · intro hok
    rw [he] at hok
    cases hok
  · exact fun entry hentry => absurd hentry (h entry)
  · intro _ _ hfile
    rw [hcreated] at hfile
    cases hfile

end

/-- An extraction writes the whole entry or nothing exactly when it copies soundly. -/
theorem extraction_whole_iff (env : ExtractExternals) (disk : DiskFaults) (setting : Option String)
    (cores : Nat) (entity outPath : String) (before : Option (List UInt8)) (reader : Text.Stream) :
    WholeOrNothing env disk (resolveXzThreads setting cores) entity outPath before reader ↔
      CopiesSoundly env disk (resolveXzThreads setting cores) entity reader := by
  by_cases hreach : ∃ entry, Reaches env entity reader entry
  · obtain ⟨entry, hentry⟩ := hreach
    have hrun := extract_reached env disk (resolveXzThreads setting cores) entity outPath before reader
      hentry
    rw [copiesSoundly_iff env disk _ entity reader hentry]
    unfold copyOut at hrun
    cases hcreate : disk.create with
    | some e =>
      simp only [hcreate] at hrun
      rw [wholeOrNothing_of_error env disk _ entity outPath before reader hrun]
      exact iff_of_true (fun h => by cases h) (fun h => by cases h)
    | none =>
      simp only [hcreate] at hrun
      simp only [true_implies]
      cases hstarts : env.encoderStarts (resolveXzThreads setting cores) with
      | false =>
        simp only [hstarts, Bool.not_false, if_true] at hrun
        rw [wholeOrNothing_of_error env disk _ entity outPath before reader hrun]
        exact iff_of_false (fun h => by cases h rfl) (fun h => by cases h.1)
      | true =>
        by_cases hfails : WriteFails disk entry
        · obtain ⟨e, he⟩ := writeEntry_error entity outPath hfails
          simp only [hstarts, Bool.not_true, Bool.false_eq_true, if_false, he] at hrun
          rw [wholeOrNothing_of_error env disk _ entity outPath before reader hrun]
          cases hremove : disk.remove <;> simp [hfails, hremove, DiskFaults.removed]
        · have he := writeEntry_ok entity outPath hfails
          simp only [hstarts, Bool.not_true, Bool.false_eq_true, if_false, he] at hrun
          rw [wholeOrNothing_of_ok env disk _ entity outPath before reader hentry hrun]
          simp [hfails]
  · have hnone : ∀ entry, ¬ Reaches env entity reader entry := fun entry h => hreach ⟨entry, h⟩
    exact iff_of_true (wholeOrNothing_of_not_reached env disk _ entity outPath before reader hnone)
      fun entry h => absurd h (hnone entry)

/-! ## The extraction of the downloader -/

def ArchiveMember.toTarEntry (m : ArchiveMember) : TarEntry := ⟨m.path, m.reads⟩

/-- The archive as the downloader reads it, decoder and tar reader in one. -/
def ExtractExternals.download (env : ExtractExternals) (sha256Hex : List UInt8 → String) :
    DownloadExternals where
  entries response := (env.members (env.xz.decode response)).map fun entries =>
    entries.map (·.map ArchiveMember.toTarEntry)
  xzEncode := env.xz.encode
  sha256Hex := sha256Hex

theorem readAll_append {pieces : List (List UInt8)} (hne : ∀ piece ∈ pieces, piece ≠ [])
    (last : List (Except Error (List UInt8))) :
    readAll (pieces.map .ok ++ last) = (readAll last).map (pieces.flatten ++ ·) := by
  induction pieces with
  | nil => simp
  | cons piece pieces ih =>
    rw [List.forall_mem_cons] at hne
    rw [List.map_cons, List.cons_append, readAll, if_neg hne.1, ih hne.2, Option.map_map,
      List.flatten_cons]
    congr 1
    funext rest
    simp

theorem readAll_reads (m : ArchiveMember) :
    readAll m.reads = if m.failure = none then some m.content else none := by
  rw [ArchiveMember.reads, readAll_append m.nonempty, ArchiveMember.lastRead]
  cases m.failure with
  | none => simp [readAll, ArchiveMember.content]
  | some e => simp [readAll]

theorem extractedFrom_eq (env : DownloadExternals) (dt : DataType)
    (entries : List (Except Error ArchiveMember)) :
    extractedFrom env dt (entries.map (·.map ArchiveMember.toTarEntry)) =
      (findEntry (entityKeyword dt) entries).toOption.join.bind fun entry =>
        (readAll entry.reads).map env.xzEncode := by
  induction entries with
  | nil => rfl
  | cons head rest ih =>
    cases head with
    | error e => rfl
    | ok entry =>
      rw [List.map_cons]
      simp only [Except.map, extractedFrom, findEntry, ArchiveMember.toTarEntry]
      cases entry.path with
      | error e => rfl
      | ok path =>
        by_cases hends : pathEndsWith path (entitySuffix (entityKeyword dt)) = true
        · have hsuffix : pathEndsWith path (targetSuffix dt) = true := hends
          simp only [hends, hsuffix, if_true]
          rfl
        · have hsuffix : ¬ pathEndsWith path (targetSuffix dt) = true := hends
          simp only [hends, hsuffix]
          exact ih

theorem extracted_eq_some {env : ExtractExternals} {sha256Hex : List UInt8 → String} {dt : DataType}
    {reader : Text.Stream} {content : List UInt8} :
    extracted (env.download sha256Hex) dt reader = some content ↔
      ∃ entry, Reaches env (entityKeyword dt) reader entry ∧ entry.failure = none ∧
        env.xz.encode entry.content = content := by
  unfold extracted Reaches
  cases hmembers : env.members (env.xz.decode reader) with
  | error e =>
    have hentries : (env.download sha256Hex).entries reader = .error e := by
      simp only [ExtractExternals.download, hmembers]
      rfl
    simp [hentries]
  | ok entries =>
    have hentries : (env.download sha256Hex).entries reader =
        .ok (entries.map (·.map ArchiveMember.toTarEntry)) := by
      simp only [ExtractExternals.download, hmembers]
      rfl
    simp only [hentries, extractedFrom_eq, readAll_reads, Except.ok.injEq, exists_eq_left',
      ← findEntry_iff]
    cases hfind : findEntry (entityKeyword dt) entries with
    | error e => simp [Except.toOption]
    | ok found => cases found <;> simp [Except.toOption, ExtractExternals.download]

/-- On a disk without faults, what the downloader takes for extracted is the file of a success. -/
theorem extracted_iff (env : ExtractExternals) (sha256Hex : List UInt8 → String) (dt : DataType)
    {threads : Nat} (hstarts : env.encoderStarts threads = true) (outPath : String)
    (before : Option (List UInt8)) (reader : Text.Stream) (content : List UInt8) :
    extracted (env.download sha256Hex) dt reader = some content ↔
      extractEntityFromReader env {} threads (entityKeyword dt) outPath before reader =
        ⟨.ok (), true, some content⟩ := by
  rw [extracted_eq_some]
  by_cases hreach : ∃ entry, Reaches env (entityKeyword dt) reader entry
  · obtain ⟨entry, hentry⟩ := hreach
    have hunique : (∃ other, Reaches env (entityKeyword dt) reader other ∧ other.failure = none ∧
        env.xz.encode other.content = content) ↔
          entry.failure = none ∧ env.xz.encode entry.content = content := by
      constructor
      · rintro ⟨other, hother, hread⟩
        rwa [Reaches.unique env _ reader hentry hother]
      · exact fun hread => ⟨entry, hentry, hread⟩
    rw [hunique, extract_reached env {} threads (entityKeyword dt) outPath before reader hentry, copyOut]
    simp only [hstarts, Bool.not_true, Bool.false_eq_true, if_false]
    by_cases hread : entry.failure = none
    · have hwrite : writeEntry {} (entityKeyword dt) outPath entry = .ok entry.content :=
        writeEntry_ok _ _ (by simp [WriteFails, hread])
      simp [hwrite, hread]
    · obtain ⟨e, he⟩ := @writeEntry_error {} entry (entityKeyword dt) outPath
        (.inl (Option.isSome_iff_ne_none.mpr hread))
      simp [he, hread]
  · have hnone : ∀ entry, ¬ Reaches env (entityKeyword dt) reader entry := fun entry h => hreach ⟨entry, h⟩
    obtain ⟨e, hrun⟩ := extract_not_reached env {} threads (entityKeyword dt) outPath reader hnone
    obtain ⟨he, -⟩ := hrun before
    refine iff_of_false (fun ⟨entry, h, _⟩ => hnone entry h) fun h => ?_
    rw [h] at he
    cases he

/-! ## A cut archive and an encoder that does not start -/

/-- An entry of four bytes, of which the stream holds the first two. -/
def cutEntry : ArchiveMember where
  path := .ok "mbdump/artist"
  size := 4
  pieces := [[123, 125]]
  failure := none
  nonempty := by decide
  within := by decide
  inside := by decide

/-- An archive of the cut entry; liblzma refuses more than 16384 threads. -/
def cutArchive : ExtractExternals where
  xz := ⟨id, id, fun _ => rfl⟩
  members _ := .ok [.ok cutEntry]
  encoderStarts threads := threads ≤ 16384

theorem cutEntry_reached : Reaches cutArchive "artist" ⟨[], none⟩ cutEntry :=
  ⟨_, rfl, [], [], "mbdump/artist", rfl, rfl, by decide, fun _ h => by cases h⟩

/-- The call succeeds with half of the entry; with too many threads it leaves an empty file. -/
theorem cut_entry_trusted :
    ¬ WholeOrNothing cutArchive {} (resolveXzThreads none 8) "artist" "artist.jsonl.xz.tmp" none ⟨[], none⟩ ∧
      ¬ WholeOrNothing cutArchive {} (resolveXzThreads (some "100000") 8) "artist"
        "artist.jsonl.xz.tmp" none ⟨[], none⟩ := by
  constructor
  · intro h
    obtain ⟨e, he⟩ := h.cut cutEntry cutEntry_reached (by decide)
    have hok : (extractEntityFromReader cutArchive {} (resolveXzThreads none 8) "artist"
        "artist.jsonl.xz.tmp" none ⟨[], none⟩).result = .ok () := by decide +kernel
    rw [hok] at he
    cases he
  · intro h
    have hleft := h.clean ["Failed to initialise multi-threaded xz encoder"] (by decide +kernel) (by decide +kernel)
    exact absurd hleft (by decide +kernel)

end MusicbrainzIngestion
