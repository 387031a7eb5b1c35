import Mathlib.Data.String.Basic
import Mathlib.Data.List.Infix
import Mathlib.Data.List.TakeWhile

/-! String operations of the Rust standard library over the characters of a
string, where Lean's own differ (Unicode white space) or have no lemmas, and the
lines of a byte stream. -/

namespace Base.Text

/-- The characters with the Unicode `White_Space` property. -/
def isWhitespace (c : Char) : Bool :=
  (9 ≤ c.toNat && c.toNat ≤ 13) || c.toNat == 0x20 || c.toNat == 0x85 || c.toNat == 0xA0 ||
    c.toNat == 0x1680 || (0x2000 ≤ c.toNat && c.toNat ≤ 0x200A) || c.toNat == 0x2028 ||
    c.toNat == 0x2029 || c.toNat == 0x202F || c.toNat == 0x205F || c.toNat == 0x3000

def trimChars (cs : List Char) : List Char :=
  ((cs.dropWhile isWhitespace).reverse.dropWhile isWhitespace).reverse

def trim (s : String) : String := String.ofList (trimChars s.toList)

def contains (s pattern : String) : Bool := decide (pattern.toList <:+: s.toList)

def startsWith (s pattern : String) : Bool := decide (pattern.toList <+: s.toList)

def endsWith (s pattern : String) : Bool := decide (pattern.toList <:+ s.toList)

def stripPrefix (s pattern : String) : Option String :=
  if startsWith s pattern then some (String.ofList (s.toList.drop pattern.toList.length)) else none

def stripSuffix (s pattern : String) : Option String :=
  if endsWith s pattern then
    some (String.ofList (s.toList.take (s.toList.length - pattern.toList.length)))
  else none

/-- The first piece of `s.split(sep)`: everything before the first separator. -/
def splitFirst (s : String) (sep : Char) : String := String.ofList (s.toList.takeWhile (· != sep))

/-- Maximal runs of characters that are not white space. -/
def splitWhitespaceChars : List Char → List Char → List (List Char)
  | word, [] => if word = [] then [] else [word]
  | word, c :: cs =>
    if isWhitespace c then
      if word = [] then splitWhitespaceChars [] cs else word :: splitWhitespaceChars [] cs
    else splitWhitespaceChars (word ++ [c]) cs

def splitWhitespace (s : String) : List String :=
  (splitWhitespaceChars [] s.toList).map String.ofList

def joinWith (sep : String) : List String → String
  | [] => ""
  | [s] => s
  | s :: rest => s ++ sep ++ joinWith sep rest

def isAsciiDigit (c : Char) : Bool := '0' ≤ c && c ≤ '9'

def digitsValue (cs : List Char) : Option Nat :=
  if cs ≠ [] ∧ cs.all isAsciiDigit then
    some (cs.foldl (fun n c => 10 * n + (c.toNat - '0'.toNat)) 0)
  else none

/-- `str::parse::<i64>`: an optional sign, then at least one ASCII digit, in range. -/
def parseI64 (s : String) : Option Int64 :=
  let value := match s.toList with
    | '-' :: cs => (digitsValue cs).map fun n => -(n : Int)
    | '+' :: cs => (digitsValue cs).map fun n => (n : Int)
    | cs => (digitsValue cs).map fun n => (n : Int)
  value.bind fun n =>
    if -9223372036854775808 ≤ n ∧ n ≤ 9223372036854775807 then some (Int64.ofInt n) else none

/-- `str::parse::<u32>`: a plus sign at most, then at least one ASCII digit, in range. -/
def parseU32 (s : String) : Option Nat :=
  let value := match s.toList with
    | '+' :: cs => digitsValue cs
    | cs => digitsValue cs
  value.filter (· < 2 ^ 32)

/-- `Path::extension`: what follows the last dot of the file name, unless that dot starts it. -/
def extension (path : String) : Option String :=
  let name := (path.toList.reverse.takeWhile (· != '/')).reverse
  let suffix := (name.reverse.takeWhile (· != '.')).reverse
  if suffix.length + 1 < name.length then some (String.ofList suffix) else none

/-- `Path::with_extension`, for a path that ends in a file name. -/
def withExtension (path ext : String) : String :=
  match extension path with
  | some old => String.ofList (path.toList.take (path.toList.length - old.toList.length)) ++ ext
  | none => path ++ "." ++ ext

theorem dot_not_mem_extension {path ext : String} (h : extension path = some ext) :
    '.' ∉ ext.toList := by
  unfold extension at h
  dsimp only at h
  split at h
  · cases h
    intro hdot
    rw [String.toList_ofList, List.mem_reverse] at hdot
    have hne := List.mem_takeWhile_imp hdot
    simp at hne
  · cases h

theorem extension_suffix {path ext : String} (h : extension path = some ext) :
    ext.toList <:+ path.toList := by
  have htake : ∀ (p : Char → Bool) (cs : List Char), (cs.reverse.takeWhile p).reverse <:+ cs := by
    intro p cs
    rw [← List.reverse_prefix, List.reverse_reverse]
    exact List.takeWhile_prefix p
  unfold extension at h
  dsimp only at h
  split at h
  · cases h
    rw [String.toList_ofList]
    exact (htake _ _).trans (htake _ _)
  · cases h

/-- An extension with a dot in it is a new one. -/
theorem withExtension_ne {path ext : String} (h : '.' ∈ ext.toList) : withExtension path ext ≠ path := by
  intro heq
  have hlist := congrArg String.toList heq
  unfold withExtension at hlist
  cases hold : extension path with
  | none =>
    rw [hold] at hlist
    have hlength := congrArg List.length hlist
    simp only [String.toList_append, List.length_append] at hlength
    have hdot : ".".toList.length = 1 := rfl
    omega
  | some old =>
    rw [hold] at hlist
    simp only [String.toList_append, String.toList_ofList] at hlist
    have hsplit := List.suffix_iff_eq_append.mp (extension_suffix hold)
    have hsame := List.append_cancel_left (hlist.trans hsplit.symm)
    exact dot_not_mem_extension hold (hsame ▸ h)

theorem getLast?_of_endsWith {s suffix : String} (h : endsWith s suffix = true)
    (hne : suffix.toList ≠ []) : s.toList.getLast? = suffix.toList.getLast? := by
  obtain ⟨front, hfront⟩ := of_decide_eq_true h
  rw [← hfront, List.getLast?_append_of_ne_nil _ hne]

theorem dropWhile_of_head {p : Char → Bool} {cs : List Char} (h : cs.head?.all (fun c => !p c) = true) :
    cs.dropWhile p = cs := by
  cases cs with
  | nil => rfl
  | cons c cs =>
    have hc : p c = false := by simpa using h
    rw [List.dropWhile_cons_of_neg (by simp [hc])]

/-- A text that neither starts nor ends with white space. -/
theorem trim_eq_self {s : String} (hhead : s.toList.head?.all (fun c => !isWhitespace c) = true)
    (hlast : s.toList.getLast?.all (fun c => !isWhitespace c) = true) : trim s = s := by
  rw [← List.head?_reverse] at hlast
  rw [trim, trimChars, dropWhile_of_head hhead, dropWhile_of_head hlast, List.reverse_reverse,
    String.ofList_toList]

/-- Nothing but white space, or nothing at all. -/
def blank (s : String) : Bool := s.toList.all isWhitespace

theorem trim_eq_empty_iff {s : String} : trim s = "" ↔ blank s = true := by
  have hempty : trim s = "" ↔ trimChars s.toList = [] := by
    rw [trim, ← String.toList_inj, String.toList_ofList]
    rfl
  rw [hempty, trimChars, List.reverse_eq_nil_iff, List.dropWhile_eq_nil_iff, blank, List.all_eq_true]
  constructor
  · intro h
    have hrest : s.toList.dropWhile isWhitespace = [] := by
      cases hdrop : s.toList.dropWhile isWhitespace with
      | nil => rfl
      | cons c cs =>
        -- the first character kept is not white space, the last trim says it is
        have hhead := List.head?_dropWhile_not isWhitespace s.toList
        rw [hdrop] at hhead
        have hc := h c (by rw [hdrop]; simp)
        simp [hc] at hhead
    exact List.dropWhile_eq_nil_iff.mp hrest
  · intro h c hc
    exact h c ((List.dropWhile_sublist _).mem (List.mem_reverse.mp hc))

/-! ## Lines of a byte stream -/

/-- The bytes a reader delivers, and the error every later read gives. -/
structure Stream where
  bytes : List UInt8
  failure : Option String

def decodeUtf8 (bytes : List UInt8) : Except String String :=
  match String.fromUTF8? ⟨bytes.toArray⟩ with
  | some s => .ok s
  | none => .error "stream did not contain valid UTF-8"

def stripCarriageReturn (bytes : List UInt8) : List UInt8 :=
  if bytes.getLast? = some 13 then bytes.dropLast else bytes

theorem decodeUtf8_toByteArray (s : String) : decodeUtf8 s.toByteArray.data.toList = .ok s := by
  have h : String.fromUTF8? s.toByteArray = some s := dif_pos s.isValidUTF8
  unfold decodeUtf8
  simp [h]

/-- `BufRead::lines`: a read error loses the line it interrupts. -/
def linesFrom (failure : Option String) : List UInt8 → List UInt8 → List (Except String String)
  | line, [] =>
    match failure with
    | some e => [.error e]
    | none => if line = [] then [] else [decodeUtf8 line]
  | line, b :: bs =>
    if b = 10 then decodeUtf8 (stripCarriageReturn line) :: linesFrom failure [] bs
    else linesFrom failure (line ++ [b]) bs

def Stream.lines (s : Stream) : List (Except String String) := linesFrom s.failure [] s.bytes

theorem linesFrom_last {line bytes : List UInt8} (h : 10 ∉ bytes) :
    linesFrom none line bytes = if line ++ bytes = [] then [] else [decodeUtf8 (line ++ bytes)] := by
  induction bytes generalizing line with
  | nil => simp [linesFrom]
  | cons b bs ih =>
    have hb : (10 : UInt8) ≠ b := fun e => h (e ▸ List.mem_cons_self)
    have hbs : 10 ∉ bs := fun hm => h (List.mem_cons_of_mem _ hm)
    rw [linesFrom, if_neg (Ne.symm hb), ih hbs]
    simp

/-- A line feed ends the line it follows. -/
theorem linesFrom_feed {failure : Option String} {line bytes rest : List UInt8} (h : 10 ∉ bytes) :
    linesFrom failure line (bytes ++ 10 :: rest) =
      decodeUtf8 (stripCarriageReturn (line ++ bytes)) :: linesFrom failure [] rest := by
  induction bytes generalizing line with
  | nil => simp [linesFrom]
  | cons b bs ih =>
    have hb : (10 : UInt8) ≠ b := fun e => h (e ▸ List.mem_cons_self)
    have hbs : 10 ∉ bs := fun hm => h (List.mem_cons_of_mem _ hm)
    rw [List.cons_append, linesFrom, if_neg (Ne.symm hb), ih hbs]
    simp

/-- The lines a reader delivers in full, as bytes. -/
def rawLinesFrom (failed : Bool) : List UInt8 → List UInt8 → List (List UInt8)
  | line, [] => if failed || line = [] then [] else [line]
  | line, b :: bs =>
    if b = 10 then stripCarriageReturn line :: rawLinesFrom failed [] bs
    else rawLinesFrom failed (line ++ [b]) bs

def Stream.rawLines (s : Stream) : List (List UInt8) := rawLinesFrom s.failure.isSome [] s.bytes

/-- A reader that fails gives its error after the lines it delivered. -/
theorem linesFrom_eq (failure : Option String) (line bytes : List UInt8) :
    linesFrom failure line bytes =
      (rawLinesFrom failure.isSome line bytes).map decodeUtf8 ++ failure.toList.map .error := by
  induction bytes generalizing line with
  | nil =>
    cases failure with
    | none => by_cases h : line = [] <;> simp [linesFrom, rawLinesFrom, h]
    | some e => simp [linesFrom, rawLinesFrom]
  | cons b bs ih =>
    by_cases h : b = 10
    · rw [linesFrom, rawLinesFrom, if_pos h, if_pos h, ih []]
      rfl
    · rw [linesFrom, rawLinesFrom, if_neg h, if_neg h, ih]

theorem Stream.lines_eq (s : Stream) :
    s.lines = s.rawLines.map decodeUtf8 ++ s.failure.toList.map .error :=
  linesFrom_eq s.failure [] s.bytes

/-- The lines that are valid UTF-8, as text. -/
def decoded (lines : List (List UInt8)) : List String :=
  lines.filterMap fun line => (decodeUtf8 line).toOption

@[simp] theorem decoded_append (xs ys : List (List UInt8)) :
    decoded (xs ++ ys) = decoded xs ++ decoded ys := List.filterMap_append

theorem decoded_cons_ok {line : List UInt8} {text : String} (h : decodeUtf8 line = .ok text)
    (rest : List (List UInt8)) : decoded (line :: rest) = text :: decoded rest := by
  simp [decoded, h, Except.toOption]

theorem decoded_cons_error {line : List UInt8} {e : String} (h : decodeUtf8 line = .error e)
    (rest : List (List UInt8)) : decoded (line :: rest) = decoded rest := by
  simp [decoded, h, Except.toOption]

/-- Either every line is text, or there is a first one that is not. -/
theorem map_decodeUtf8_cases (lines : List (List UInt8)) :
    lines.map decodeUtf8 = (decoded lines).map .ok ∨
      ∃ before bad after e, lines = before ++ bad :: after ∧ decodeUtf8 bad = .error e ∧
        before.map decodeUtf8 = (decoded before).map .ok := by
  induction lines with
  | nil => exact .inl rfl
  | cons line rest ih =>
    cases h : decodeUtf8 line with
    | error e => exact .inr ⟨[], line, rest, e, rfl, h, rfl⟩
    | ok text =>
      rcases ih with hall | ⟨before, bad, after, e, rfl, hbad, hbefore⟩
      · left
        rw [List.map_cons, h, hall, decoded_cons_ok h, List.map_cons]
      · refine .inr ⟨line :: before, bad, after, e, rfl, hbad, ?_⟩
        rw [List.map_cons, h, hbefore, decoded_cons_ok h, List.map_cons]

/-- A text without a line feed is one line. -/
theorem lines_toByteArray {s : String} (hs : s.toByteArray.data.toList ≠ [])
    (h : 10 ∉ s.toByteArray.data.toList) :
    (Stream.mk s.toByteArray.data.toList none).lines = [.ok s] := by
  unfold Stream.lines
  rw [linesFrom_last h, List.nil_append, if_neg hs, decodeUtf8_toByteArray]

end Base.Text
