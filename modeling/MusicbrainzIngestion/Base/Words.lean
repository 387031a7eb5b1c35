import MusicbrainzIngestion.Base.Text

/-! White space around a text and between its words, said without a way to compute it: what a
trimmed text is, and which the words of a text are. -/

namespace Base.Text

/-- The text without the white space around it. -/
def TrimsTo (cs trimmed : List Char) : Prop :=
  ∃ front back, cs = front ++ trimmed ++ back ∧
    (∀ c ∈ front, isWhitespace c = true) ∧ (∀ c ∈ back, isWhitespace c = true) ∧
    (∀ c ∈ trimmed.head?, isWhitespace c = false) ∧ ∀ c ∈ trimmed.getLast?, isWhitespace c = false

/-- The words of the text in order: each goes on as long as there is no white space. -/
inductive Words : List Char → List (List Char) → Prop where
  | nil : Words [] []
  | space {c : Char} {cs : List Char} {words : List (List Char)} (hc : isWhitespace c = true)
    (h : Words cs words) : Words (c :: cs) words
  | word {w cs : List Char} {words : List (List Char)} (hne : w ≠ [])
    (hw : ∀ c ∈ w, isWhitespace c = false) (hend : ∀ c ∈ cs.head?, isWhitespace c = true)
    (h : Words cs words) : Words (w ++ cs) (w :: words)

/-! ## Trimming -/

theorem dropWhile_whitespace (cs : List Char) :
    ∃ front, cs = front ++ cs.dropWhile isWhitespace ∧ (∀ c ∈ front, isWhitespace c = true) ∧
      ∀ c ∈ (cs.dropWhile isWhitespace).head?, isWhitespace c = false := by
  refine ⟨cs.takeWhile isWhitespace, List.takeWhile_append_dropWhile.symm,
    fun c hc => List.mem_takeWhile_imp hc, fun c hc => ?_⟩
  have hhead := List.head?_dropWhile_not isWhitespace cs
  rw [Option.mem_def.mp hc] at hhead
  exact Bool.eq_false_iff.mpr (by simpa using hhead)

theorem trimsTo_trimChars (cs : List Char) : TrimsTo cs (trimChars cs) := by
  obtain ⟨front, hfront, hblank, hhead⟩ := dropWhile_whitespace cs
  obtain ⟨back, hback, hblank', hlast⟩ := dropWhile_whitespace (cs.dropWhile isWhitespace).reverse
  have hsplit : cs.dropWhile isWhitespace = trimChars cs ++ back.reverse := by
    have h := congrArg List.reverse hback
    rwa [List.reverse_reverse, List.reverse_append] at h
  refine ⟨front, back.reverse, ?_, hblank, fun c hc => hblank' c (List.mem_reverse.mp hc), ?_, ?_⟩
  · rw [List.append_assoc, ← hsplit]
    exact hfront
  · intro c hc
    refine hhead c ?_
    rw [hsplit, List.head?_append, Option.mem_def.mp hc]
    rfl
  · unfold trimChars
    rw [List.getLast?_reverse]
    exact hlast

/-! ## Splitting into words -/

/-- What is read as a word so far goes on with what has no white space in it. -/
theorem splitWhitespaceChars_append {w : List Char} (hw : ∀ c ∈ w, isWhitespace c = false)
    (before cs : List Char) :
    splitWhitespaceChars before (w ++ cs) = splitWhitespaceChars (before ++ w) cs := by
  induction w generalizing before with
  | nil => rw [List.nil_append, List.append_nil]
  | cons c w ih =>
    have hc := hw c List.mem_cons_self
    rw [List.cons_append, splitWhitespaceChars, if_neg (by simp [hc]),
      ih (fun d hd => hw d (List.mem_cons_of_mem _ hd)), List.append_assoc, List.singleton_append]

theorem splitWhitespaceChars_word {w cs : List Char} (hne : w ≠ [])
    (hend : ∀ c ∈ cs.head?, isWhitespace c = true) :
    splitWhitespaceChars w cs = w :: splitWhitespaceChars [] cs := by
  cases cs with
  | nil => rw [splitWhitespaceChars, if_neg hne, splitWhitespaceChars, if_pos rfl]
  | cons c cs =>
    have hc : isWhitespace c = true := hend c rfl
    rw [splitWhitespaceChars, if_pos hc, if_neg hne, splitWhitespaceChars, if_pos hc, if_pos rfl]

theorem words_splitWhitespaceChars {word : List Char} (hword : ∀ c ∈ word, isWhitespace c = false)
    (cs : List Char) : Words (word ++ cs) (splitWhitespaceChars word cs) := by
  induction cs generalizing word with
  | nil =>
    rw [splitWhitespaceChars]
    split
    · next hnil =>
      rw [hnil]
      exact .nil
    · next hne => exact .word hne hword (by simp) .nil
  | cons c cs ih =>
    rw [splitWhitespaceChars]
    split
    · next hc =>
      have htail : Words ([] ++ cs) (splitWhitespaceChars [] cs) := ih (by simp)
      have hrest : Words (c :: cs) (splitWhitespaceChars [] cs) := .space hc htail
      split
      · next hnil => rwa [hnil]
      · next hne =>
        refine .word hne hword (fun d hd => ?_) hrest
        cases hd
        exact hc
    · next hc =>
      have hmore : ∀ d ∈ word ++ [c], isWhitespace d = false := by
        intro d hd
        rcases List.mem_append.mp hd with hd | hd
        · exact hword d hd
        · rw [List.mem_singleton.mp hd]
          exact Bool.eq_false_iff.mpr hc
      have hwords := ih hmore
      rwa [List.append_assoc, List.singleton_append] at hwords

theorem splitWhitespaceChars_eq_iff {cs : List Char} {words : List (List Char)} :
    splitWhitespaceChars [] cs = words ↔ Words cs words := by
  constructor
  · rintro rfl
    exact @words_splitWhitespaceChars [] (by simp) cs
  · intro h
    induction h with
    | nil => rfl
    | space hc _ ih => rw [splitWhitespaceChars, if_pos hc, if_pos rfl, ih]
    | word hne hw hend _ ih =>
      rw [splitWhitespaceChars_append hw, List.nil_append, splitWhitespaceChars_word hne hend, ih]

theorem toList_joinWith (words : List (List Char)) :
    (joinWith " " (words.map String.ofList)).toList = [' '].intercalate words := by
  induction words with
  | nil => rfl
  | cons w words ih =>
    cases words with
    | nil => simp [joinWith, List.intercalate]
    | cons v words =>
      have hjoin : joinWith " " ((w :: v :: words).map String.ofList) =
          String.ofList w ++ " " ++ joinWith " " ((v :: words).map String.ofList) := rfl
      rw [hjoin, String.toList_append, String.toList_append, ih, String.toList_ofList]
      simp [List.intercalate]

end Base.Text
