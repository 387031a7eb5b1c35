import MusicbrainzIngestion.Downloader

/-! The published checksums as the tools write them, one line for each file. Reading such a list
gives back what was written: the hash of the last line of a file, and none for another. -/

namespace MusicbrainzIngestion
open Base

/-- A line of the list. A binary file has a star before its name, and a line may have white space
at its end. -/
structure ChecksumLine where
  hash : String
  filename : String
  binary : Bool
  ending : List Char
  hash_ne : hash.toList ≠ []
  hash_text : ∀ c ∈ hash.toList, Text.isWhitespace c = false
  filename_ne : filename.toList ≠ []
  filename_first : ∀ c ∈ filename.toList.head?, Text.isWhitespace c = false ∧ c ≠ '*'
  filename_last : ∀ c ∈ filename.toList.getLast?, Text.isWhitespace c = false
  filename_line : '\n' ∉ filename.toList
  ending_blank : ∀ c ∈ ending, Text.isWhitespace c = true ∧ c ≠ '\n'

namespace ChecksumLine

def marker (l : ChecksumLine) : Char := if l.binary then '*' else ' '

def text (l : ChecksumLine) : List Char :=
  l.hash.toList ++ ' ' :: l.marker :: l.filename.toList ++ l.ending

end ChecksumLine

/-- The whole list, each line ended. -/
def sumsText (lines : List ChecksumLine) : String :=
  String.ofList (lines.flatMap fun l => l.text ++ ['\n'])

/-! ## White space around a text -/

theorem trimChars_cons {c : Char} (h : Text.isWhitespace c = true) (cs : List Char) :
    Text.trimChars (c :: cs) = Text.trimChars cs := by
  unfold Text.trimChars
  rw [List.dropWhile_cons_of_pos h]

/-- White space at the end is dropped, and nothing more. -/
theorem trimChars_append {cs ending : List Char} (hne : cs ≠ [])
    (hfirst : ∀ c ∈ cs.head?, Text.isWhitespace c = false)
    (hlast : ∀ c ∈ cs.getLast?, Text.isWhitespace c = false)
    (hending : ∀ c ∈ ending, Text.isWhitespace c = true) : Text.trimChars (cs ++ ending) = cs := by
  have hhead : (cs ++ ending).dropWhile Text.isWhitespace = cs ++ ending := by
    cases cs with
    | nil => exact absurd rfl hne
    | cons c cs =>
      rw [List.cons_append, List.dropWhile_cons_of_neg (by simp [hfirst c rfl])]
  have htail : cs.reverse.dropWhile Text.isWhitespace = cs.reverse := by
    refine Text.dropWhile_of_head ?_
    rw [List.head?_reverse]
    exact Option.all_eq_true _ _ |>.mpr fun c hc => by simp [hlast c hc]
  have hreverse : ∀ c ∈ ending.reverse, Text.isWhitespace c = true :=
    fun c hc => hending c (List.mem_reverse.mp hc)
  unfold Text.trimChars
  rw [hhead, List.reverse_append, List.dropWhile_append_of_pos hreverse, htail, List.reverse_reverse]

theorem trimChars_self {cs : List Char} (hne : cs ≠ [])
    (hfirst : ∀ c ∈ cs.head?, Text.isWhitespace c = false)
    (hlast : ∀ c ∈ cs.getLast?, Text.isWhitespace c = false) : Text.trimChars cs = cs := by
  have h : Text.trimChars (cs ++ []) = cs := trimChars_append hne hfirst hlast (by simp)
  rwa [List.append_nil] at h

/-! ## One line -/

namespace ChecksumLine

variable (l : ChecksumLine)

theorem last_cons (c : Char) :
    ∀ x ∈ (c :: l.filename.toList).getLast?, Text.isWhitespace x = false := by
  have h := List.getLast?_append_of_ne_nil [c] l.filename_ne
  rw [List.singleton_append] at h
  rw [h]
  exact l.filename_last

theorem trim_text : Text.trimChars l.text =
    l.hash.toList ++ ' ' :: l.marker :: l.filename.toList := by
  refine trimChars_append (by simp) ?_ ?_ fun c hc => (l.ending_blank c hc).1
  · rw [List.head?_append_of_ne_nil _ l.hash_ne]
    exact fun c hc => l.hash_text c (List.mem_of_mem_head? hc)
  · rw [List.getLast?_append_of_ne_nil _ (by simp), List.getLast?_cons_cons]
    exact l.last_cons l.marker

/-- The name is what is left behind the space, the marker and no more stars. -/
theorem filename_read : (Text.trimChars (l.marker :: l.filename.toList)).dropWhile (· == '*') =
    l.filename.toList := by
  have hstars : l.filename.toList.dropWhile (· == '*') = l.filename.toList := by
    refine Text.dropWhile_of_head ?_
    exact Option.all_eq_true _ _ |>.mpr fun c hc => by simp [(l.filename_first c hc).2]
  unfold marker
  split
  · have hfirst : ∀ c ∈ ('*' :: l.filename.toList).head?, Text.isWhitespace c = false := by
      intro c hc
      cases hc
      decide
    rw [trimChars_self (by simp) hfirst (l.last_cons '*'), List.dropWhile_cons_of_pos rfl, hstars]
  · rw [trimChars_cons (by decide), trimChars_self l.filename_ne
      (fun c hc => (l.filename_first c hc).1) l.filename_last, hstars]

theorem sumsLine_text : sumsLine l.text = some (l.filename, l.hash) := by
  have hkept : ∀ c ∈ l.hash.toList, (!Text.isWhitespace c) = true := by
    intro c hc
    rw [l.hash_text c hc]
    rfl
  have hdrop : (l.hash.toList ++ ' ' :: l.marker :: l.filename.toList).dropWhile
      (!Text.isWhitespace ·) = ' ' :: l.marker :: l.filename.toList := by
    rw [List.dropWhile_append_of_pos hkept, List.dropWhile_cons_of_neg (by decide)]
  have htake : (l.hash.toList ++ ' ' :: l.marker :: l.filename.toList).takeWhile
      (!Text.isWhitespace ·) = l.hash.toList := by
    rw [List.takeWhile_append_of_pos hkept, List.takeWhile_cons_of_neg (by decide), List.append_nil]
  simp only [sumsLine, trim_text, hdrop, htake, filename_read, String.ofList_toList]

theorem newline_not_mem : '\n' ∉ l.text := by
  intro h
  simp only [text, List.mem_append, List.mem_cons] at h
  rcases h with (hhash | heq | hmarker | hname) | hending
  · exact absurd (l.hash_text _ hhash) (by decide)
  · cases heq
  · unfold marker at hmarker
    split at hmarker <;> cases hmarker
  · exact l.filename_line hname
  · exact (l.ending_blank _ hending).2 rfl

end ChecksumLine

/-! ## The whole list -/

theorem filterMap_sumsLine (lines : List ChecksumLine) :
    ((sumsText lines).toList.splitOn '\n').filterMap sumsLine =
      lines.map fun l => (l.filename, l.hash) := by
  unfold sumsText
  rw [String.toList_ofList]
  induction lines with
  | nil => decide
  | cons l lines ih =>
    rw [List.flatMap_cons, List.append_assoc, List.singleton_append,
      List.splitOn_append_cons_self_of_not_mem l.newline_not_mem,
      List.filterMap_cons_some l.sumsLine_text, ih, List.map_cons]

/-- Whatever the lines and their order: a file has the hash of its last line, and a file without
a line has none. -/
theorem sums_read_back (lines : List ChecksumLine) (filename : String) :
    (parseSha256sums (sumsText lines)).lookup filename =
      (lines.filter (·.filename = filename)).getLast?.map ChecksumLine.hash := by
  unfold parseSha256sums
  rw [filterMap_sumsLine]
  induction lines using List.reverseRecOn with
  | nil => rfl
  | append_singleton lines l ih =>
    rw [List.map_append, List.foldl_append, List.filter_append]
    by_cases h : l.filename = filename
    · simp [h]
    · simp [h, AList.lookup_insert_ne (Ne.symm h), ih]

example : (parseSha256sums "ab  artist.tar.xz\r\ncd *artist.tar.xz\n\n").lookup "artist.tar.xz" =
    some "cd" := by decide +kernel

end MusicbrainzIngestion
