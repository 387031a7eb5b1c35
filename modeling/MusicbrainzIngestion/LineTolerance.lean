import MusicbrainzIngestion.ArtistLinks

/-! Which defects of a file its two readers survive: a line that is not JSON is
skipped, a line that is not UTF-8 ends the file like a failure of the reader. -/

namespace MusicbrainzIngestion
open Base Base.Text JsonlParser

/-- A line that is not blank, and JSON once trimmed. -/
def holdsRecord (env : Externals) (line : String) : Bool := (lineRecord env line).isSome

/-! ## The two loops over the lines -/

theorem parseLines_append_error (message : String → Option DataMessage) (path : String)
    (texts : List String) (e : String) (rest : List (Except String String)) (count : Nat) :
    parseLines message path (texts.map .ok ++ .error e :: rest) none count =
      (texts.filterMap message, .error (readError path e)) := by
  induction texts generalizing count with
  | nil => rfl
  | cons t texts ih =>
    cases hm : message t with
    | none => simp [parseLines, hm, ih]
    | some msg => simp [parseLines, hm, ih]

theorem parseLines_map_ok (message : String → Option DataMessage) (path : String)
    (texts : List String) (count : Nat) :
    parseLines message path (texts.map .ok) none count =
      (texts.filterMap message, .ok (count + (texts.filterMap message).length)) := by
  induction texts generalizing count with
  | nil => rfl
  | cons t texts ih =>
    cases hm : message t with
    | none => simp [parseLines, hm, ih]
    | some msg =>
      simp only [List.map_cons, parseLines, hm, reduceCtorEq, if_false, Option.map_none, ih,
        List.filterMap_cons_some hm, List.length_cons, Prod.mk.injEq, Except.ok.injEq, true_and]
      omega

theorem buildMapFromLines_append (env : Externals) (path entityType : String) (map : DiscogsMap)
    (texts : List String) (rest : List (Except String String)) :
    buildMapFromLines env path entityType map (texts.map .ok ++ rest) =
      buildMapFromLines env path entityType (texts.foldl (mapLine env entityType) map) rest := by
  induction texts generalizing map with
  | nil => rfl
  | cons t texts ih => rw [List.map_cons, List.cons_append, buildMapFromLines, ih, List.foldl_cons]

/-- A blank line and a line that is not JSON add nothing to the map. -/
theorem foldl_mapLine_records (env : Externals) (entityType : String) (map : DiscogsMap)
    (texts : List String) :
    (texts.filter (holdsRecord env)).foldl (mapLine env entityType) map =
      texts.foldl (mapLine env entityType) map := by
  induction texts generalizing map with
  | nil => rfl
  | cons t texts ih =>
    by_cases h : holdsRecord env t = true
    · rw [List.filter_cons_of_pos h, List.foldl_cons, List.foldl_cons, ih]
    · have hnone : lineRecord env t = none := by simpa [holdsRecord] using h
      have hskip : mapLine env entityType map t = map := by rw [mapLine_eq, hnone]; rfl
      rw [List.filter_cons_of_neg h, ih, List.foldl_cons, hskip]

/-! ## The lines a file is read as -/

/-- The message the line parser builds from a line, enriched when there is a map. -/
def ParsedAs (env : Externals) (dt : DataType) (map : Option DiscogsMap) (dumpVersion line : String)
    (msg : DataMessage) : Prop :=
  ∃ parsed, parseFn env dt (trim line) dumpVersion = .ok parsed ∧ msg = enrichMessage dt map parsed

def recordLines (env : Externals) (lines : List (List UInt8)) : List String :=
  (decoded lines).filter (holdsRecord env)

/-- Both readers of a file see exactly its lines of text, and fail only with the byte reader. -/
structure ReadExactly (env : Externals) (path : String) (dt : DataType) (map : Option DiscogsMap)
    (dumpVersion entityType : String) (stream : Stream) : Prop where
  sent : List.Forall₂ (ParsedAs env dt map dumpVersion) (recordLines env stream.rawLines)
    (parseMbJsonlFile env path dt none map dumpVersion).1
  returned : match stream.failure with
    | none => (parseMbJsonlFile env path dt none map dumpVersion).2 =
        .ok (parseMbJsonlFile env path dt none map dumpVersion).1.length
    | some _ => ∃ e, (parseMbJsonlFile env path dt none map dumpVersion).2 = .error e
  mapped : match stream.failure with
    | none => buildMbidDiscogsMapFromFile env path entityType =
        .ok ((recordLines env stream.rawLines).foldl (mapLine env entityType) ∅)
    | some _ => ∃ e, buildMbidDiscogsMapFromFile env path entityType = .error e

/-- A line that is not UTF-8 does no harm only where the reader fails before the next record. -/
def DecodesUpToFailure (env : Externals) (stream : Stream) : Prop :=
  ∀ before bad after e, stream.rawLines = before ++ bad :: after → decodeUtf8 bad = .error e →
    stream.failure.isSome ∧ recordLines env after = []

theorem forall₂_parsedAs (env : Externals) (dt : DataType) (map : Option DiscogsMap)
    (dumpVersion : String) (texts : List String) :
    List.Forall₂ (ParsedAs env dt map dumpVersion)
      (texts.filter (holdsRecord env))
      (texts.filterMap (lineMessage env dt map dumpVersion)) := by
  induction texts with
  | nil => exact .nil
  | cons t texts ih =>
    cases h : lineRecord env t with
    | none =>
      have hm : lineMessage env dt map dumpVersion t = none := by rw [lineMessage_eq, h]; rfl
      rw [List.filter_cons_of_neg (by simp [holdsRecord, h]), List.filterMap_cons_none hm]
      exact ih
    | some v =>
      have hm : lineMessage env dt map dumpVersion t =
          some (recordMessage env dt map dumpVersion v) := by rw [lineMessage_eq, h]; rfl
      have hv : env.fromStr (trim t) = .ok v := by
        unfold lineRecord at h
        by_cases hblank : trim t = ""
        · simp [hblank] at h
        · rw [if_neg hblank] at h
          cases hv : env.fromStr (trim t) with
          | ok w => simpa [hv, Except.toOption] using h
          | error e => simp [hv, Except.toOption] at h
      rw [List.filter_cons_of_pos (by simp [holdsRecord, h]), List.filterMap_cons_some hm]
      exact .cons ⟨_, parseFn_eq env dt _ dumpVersion hv, rfl⟩ ih

theorem readExactly_of_decodes (env : Externals) {path : String} (dt : DataType)
    (map : Option DiscogsMap) (dumpVersion entityType : String) {stream : Stream}
    (hopen : openJsonlReader env path = .ok stream)
    (hall : stream.rawLines.map decodeUtf8 = (decoded stream.rawLines).map .ok) :
    ReadExactly env path dt map dumpVersion entityType stream := by
  have hsent := forall₂_parsedAs env dt map dumpVersion (decoded stream.rawLines)
  have hfold := foldl_mapLine_records env entityType ∅ (decoded stream.rawLines)
  cases hfail : stream.failure with
  | none =>
    have hlines : stream.lines = (decoded stream.rawLines).map .ok := by
      rw [stream.lines_eq, hall, hfail, Option.toList_none, List.map_nil, List.append_nil]
    have hparse : parseMbJsonlFile env path dt none map dumpVersion =
        ((decoded stream.rawLines).filterMap (lineMessage env dt map dumpVersion),
          .ok ((decoded stream.rawLines).filterMap (lineMessage env dt map dumpVersion)).length) := by
      simp only [parseMbJsonlFile, hopen, hlines, parseLines_map_ok, Nat.zero_add]
    have hbuild : buildMbidDiscogsMapFromFile env path entityType =
        .ok ((decoded stream.rawLines).foldl (mapLine env entityType) ∅) := by
      have happend := buildMapFromLines_append env path entityType ∅ (decoded stream.rawLines) []
      rw [List.append_nil] at happend
      simp only [buildMbidDiscogsMapFromFile, hopen, hlines, happend, buildMapFromLines]
    refine ⟨?_, ?_, ?_⟩
    · rw [hparse]
      exact hsent
    · simp only [hfail, hparse]
    · simp only [hfail, hbuild, recordLines, hfold]
  | some e =>
    have hlines : stream.lines = (decoded stream.rawLines).map .ok ++ [.error e] := by
      rw [stream.lines_eq, hall, hfail, Option.toList_some, List.map_singleton]
    have hparse : parseMbJsonlFile env path dt none map dumpVersion =
        ((decoded stream.rawLines).filterMap (lineMessage env dt map dumpVersion),
          .error (readError path e)) := by
      simp only [parseMbJsonlFile, hopen, hlines, parseLines_append_error]
    refine ⟨?_, ?_, ?_⟩
    · rw [hparse]
      exact hsent
    · simp only [hfail, hparse]
      exact ⟨_, rfl⟩
    · simp only [hfail, buildMbidDiscogsMapFromFile, hopen, hlines, buildMapFromLines_append,
        buildMapFromLines]
      exact ⟨_, rfl⟩

/-- The first line that is not UTF-8 ends both passes. -/
theorem parse_of_bad_line (env : Externals) {path : String} (dt : DataType)
    (map : Option DiscogsMap) (dumpVersion : String) {stream : Stream}
    (hopen : openJsonlReader env path = .ok stream) {before after : List (List UInt8)}
    {bad : List UInt8} {e : String} (hlines : stream.rawLines = before ++ bad :: after)
    (hbad : decodeUtf8 bad = .error e)
    (hbefore : before.map decodeUtf8 = (decoded before).map .ok) :
    parseMbJsonlFile env path dt none map dumpVersion =
        ((decoded before).filterMap (lineMessage env dt map dumpVersion),
          .error (readError path e)) ∧
      ∀ entityType, ∃ err, buildMbidDiscogsMapFromFile env path entityType = .error err := by
  have hread : stream.lines = (decoded before).map .ok ++ .error e ::
      (after.map decodeUtf8 ++ stream.failure.toList.map .error) := by
    rw [stream.lines_eq, hlines, List.map_append, List.map_cons, hbefore, hbad, List.append_assoc,
      List.cons_append]
  refine ⟨?_, fun entityType => ?_⟩
  · simp only [parseMbJsonlFile, hopen, hread, parseLines_append_error]
  · simp only [buildMbidDiscogsMapFromFile, hopen, hread, buildMapFromLines_append,
      buildMapFromLines]
    exact ⟨_, rfl⟩

theorem decodes_ne_error {lines : List (List UInt8)} {line : List UInt8} {e : String}
    (h : lines.map decodeUtf8 = (decoded lines).map .ok) (hline : line ∈ lines) :
    decodeUtf8 line ≠ .error e := by
  intro he
  have hmem : Except.error e ∈ lines.map decodeUtf8 := List.mem_map.mpr ⟨line, hline, he⟩
  rw [h] at hmem
  obtain ⟨text, -, habsurd⟩ := List.mem_map.mp hmem
  cases habsurd

/-- What follows a later line that is not UTF-8 also follows the first. -/
theorem recordLines_after {env : Externals} {before after before' after' : List (List UInt8)}
    {bad bad' : List UInt8} {e : String} (hbefore : before.map decodeUtf8 = (decoded before).map .ok)
    (hbad' : decodeUtf8 bad' = .error e) (h : before ++ bad :: after = before' ++ bad' :: after')
    (hafter : recordLines env after = []) : recordLines env after' = [] := by
  rcases List.append_eq_append_iff.mp h with ⟨mid, -, hmid⟩ | ⟨mid, hmid, hrest⟩
  · cases mid with
    | nil =>
      cases hmid
      exact hafter
    | cons _ mid =>
      have hsplit : after = mid ++ bad' :: after' := (List.cons.inj hmid).2
      rw [hsplit, recordLines, decoded_append, List.filter_append, List.append_eq_nil_iff,
        decoded_cons_error hbad'] at hafter
      exact hafter.2
  · cases mid with
    | nil =>
      cases hrest
      exact hafter
    | cons _ mid =>
      cases hrest
      exact absurd hbad' (decodes_ne_error hbefore (by simp [hmid]))

/-- After a line that is not UTF-8, the file is read exactly only where the reader fails before
the next record. -/
theorem readExactly_of_bad_line (env : Externals) {path : String} (dt : DataType)
    (map : Option DiscogsMap) (dumpVersion entityType : String) {stream : Stream}
    (hopen : openJsonlReader env path = .ok stream) {before after : List (List UInt8)}
    {bad : List UInt8} {e : String} (hlines : stream.rawLines = before ++ bad :: after)
    (hbad : decodeUtf8 bad = .error e)
    (hbefore : before.map decodeUtf8 = (decoded before).map .ok) :
    ReadExactly env path dt map dumpVersion entityType stream ↔
      stream.failure.isSome ∧ recordLines env after = [] := by
  obtain ⟨hparse, hbuild⟩ := parse_of_bad_line env dt map dumpVersion hopen hlines hbad hbefore
  have hsent := forall₂_parsedAs env dt map dumpVersion (decoded before)
  have hrecords : recordLines env stream.rawLines = recordLines env before ++ recordLines env after := by
    simp only [recordLines, hlines, decoded_append, decoded_cons_error hbad, List.filter_append]
  constructor
  · rintro ⟨hexact, hreturned, -⟩
    constructor
    · cases hfail : stream.failure with
      | some cause => rfl
      | none =>
        rw [hfail, hparse] at hreturned
        cases hreturned
    · have hlength := hexact.length_eq
      rw [hrecords, hparse, ← hsent.length_eq, List.length_append] at hlength
      exact List.length_eq_zero_iff.mp (by unfold recordLines at hlength ⊢; omega)
  · rintro ⟨hfailed, hafter⟩
    obtain ⟨cause, hcause⟩ := Option.isSome_iff_exists.mp hfailed
    refine ⟨?_, ?_, ?_⟩
    · rw [hrecords, hafter, List.append_nil, hparse]
      exact hsent
    · simp only [hcause, hparse]
      exact ⟨_, rfl⟩
    · simp only [hcause]
      exact hbuild entityType

/-- What the two passes owe a file: all its lines, or the error of a file that does not open. -/
def FileReadExactly (env : Externals) (path : String) (dt : DataType) (map : Option DiscogsMap)
    (dumpVersion entityType : String) : Prop :=
  match openJsonlReader env path with
  | .ok stream => ReadExactly env path dt map dumpVersion entityType stream
  | .error _ =>
    (∃ e, parseMbJsonlFile env path dt none map dumpVersion = ([], .error e)) ∧
      ∃ e, buildMbidDiscogsMapFromFile env path entityType = .error e

def FileDecodes (env : Externals) (path : String) : Prop :=
  ∀ stream, openJsonlReader env path = .ok stream → DecodesUpToFailure env stream

/-- A file is read exactly when no line that is not UTF-8 stands before a record or the end. -/
theorem file_read_exactly_iff (env : Externals) (path : String) (dt : DataType)
    (map : Option DiscogsMap) (dumpVersion entityType : String) :
    FileReadExactly env path dt map dumpVersion entityType ↔ FileDecodes env path := by
  unfold FileReadExactly FileDecodes
  cases hopen : openJsonlReader env path with
  | error e =>
    have hparse : parseMbJsonlFile env path dt none map dumpVersion =
        ([], .error (("Failed to open JSONL file: \"" ++ path ++ "\"") :: e)) := by
      rw [parseMbJsonlFile, hopen]
    have hbuild : buildMbidDiscogsMapFromFile env path entityType =
        .error (("Failed to open file for MBID map: \"" ++ path ++ "\"") :: e) := by
      rw [buildMbidDiscogsMapFromFile, hopen]
    exact iff_of_true ⟨⟨_, hparse⟩, ⟨_, hbuild⟩⟩ fun stream h => by cases h
  | ok stream =>
    rcases map_decodeUtf8_cases stream.rawLines with hall | ⟨before, bad, after, e, hlines, hbad, hbefore⟩
    · refine iff_of_true (readExactly_of_decodes env dt map dumpVersion entityType hopen hall) ?_
      intro _ h before bad after e hlines hbad
      cases h
      exact absurd hbad (decodes_ne_error hall (by simp [hlines]))
    · refine (readExactly_of_bad_line env dt map dumpVersion entityType hopen hlines hbad hbefore).trans ?_
      constructor
      · rintro ⟨hfailed, hafter⟩ _ h before' bad' after' e' hlines' hbad'
        cases h
        exact ⟨hfailed, recordLines_after hbefore hbad' (hlines.symm.trans hlines') hafter⟩
      · intro h
        exact h stream rfl before bad after e hlines hbad

/-- A line of one byte that starts no character, and a record after it. -/
def strayByte : Externals :=
  { singleLine "artist.jsonl" "{}" (.json []) (fun _ => "{}") (fun _ => "") with
    openFile := fun _ => .ok ⟨[0xFF, 10, 123, 125], none⟩ }

theorem stray_byte_fatal :
    ¬ FileReadExactly strayByte "artist.jsonl" .artists none "20260101-000000" "artist" := by
  have hopen : openJsonlReader strayByte "artist.jsonl" = .ok ⟨[0xFF, 10, 123, 125], none⟩ := by
    simp [openJsonlReader, strayByte, singleLine]
  have hlines : (Stream.mk [0xFF, 10, 123, 125] none).rawLines = [] ++ [0xFF] :: [[123, 125]] := rfl
  have hbad : decodeUtf8 [0xFF] = .error "stream did not contain valid UTF-8" := rfl
  intro h
  rw [FileReadExactly, hopen] at h
  have hparse := parse_of_bad_line strayByte .artists none "20260101-000000" hopen hlines hbad rfl
  have hreturned := h.returned
  rw [hparse.1] at hreturned
  cases hreturned

end MusicbrainzIngestion
