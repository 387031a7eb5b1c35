import MusicbrainzIngestion.Base.Pattern
import MusicbrainzIngestion.Base.Sorted
import MusicbrainzIngestion.Types
import Mathlib.Data.String.Basic

/-! The versions of the dump index. The pattern finds every link whose target starts with
a version, and does not look at how the target goes on. -/

namespace MusicbrainzIngestion
open Base

/-! ## The parser -/

/-- What `\d` accepts: the decimal digits of every script, of ASCII the ten alone. -/
structure DigitClass where
  isDigit : Char → Bool
  ascii : ∀ c : Char, c.toNat < 128 → isDigit c = Text.isAsciiDigit c

def versionShape (isDigit : Char → Bool) : Shape Char :=
  List.replicate 8 isDigit ++ [(· == '-')] ++ List.replicate 6 isDigit

def hrefOpening : String := "href=\""

/-- `href="(\d{8}-\d{6})/?` -/
def versionPattern (d : DigitClass) : Pattern Char where
  before := Shape.literal hrefOpening.toList
  captured := versionShape d.isDigit
  optional := (· == '/')

def parseVersionDirectories (d : DigitClass) (html : String) : List String :=
  sortDedup (· ≥ ·) (((versionPattern d).captures 0 html.toList).map String.ofList)

/-- The version that `download_latest` goes on with. -/
def latestVersion (d : DigitClass) (baseUrl html : String) : Except Error String :=
  match parseVersionDirectories d html with
  | [] => .error ["No version directories found at " ++ baseUrl]
  | version :: _ => .ok version

/-! ## The index -/

/-- Eight digits, a hyphen and six digits. -/
def IsVersion (v : String) : Prop := Shape.fits (versionShape Text.isAsciiDigit) v.toList = true

/-- The moment of a version, as a number of fourteen digits. -/
def stampFrom : Nat → List Char → Nat
  | n, [] => n
  | n, c :: cs => stampFrom (if c = '-' then n else 10 * n + (c.toNat - '0'.toNat)) cs

def stamp (v : String) : Nat := stampFrom 0 v.toList

/-- The white space before an attribute. -/
def attributeSpace (c : Char) : Bool := decide (c.toNat ∈ [9, 10, 12, 13, 32])

/-- The page has an `href` attribute in double quotes, and this is its complete value. The text is
read as the server writes it: a name in capitals, white space around the `=` or single quotes make
no attribute here, and one inside a comment of the page counts as any other. -/
def HrefValue (html value : String) : Prop :=
  (∀ c ∈ value.toList, c.toNat ≠ 34) ∧ ∃ pre post,
    html.toList = pre ++ hrefOpening.toList ++ value.toList ++ "\"".toList ++ post ∧
      pre.getLast?.any attributeSpace = true

/-- The index lists the version. -/
def Listed (html v : String) : Prop := IsVersion v ∧ (HrefValue html v ∨ HrefValue html (v ++ "/"))

/-- Somewhere on the page a value goes on from `href="` with these characters, which have the
form of a version in the digits of some script. -/
def Opens (d : DigitClass) (html v : String) : Prop :=
  Shape.fits (versionShape d.isDigit) v.toList = true ∧
    ∃ pre post, html.toList = pre ++ hrefOpening.toList ++ v.toList ++ post

/-- The versions found are the versions listed, the newest first. -/
structure VersionsExact (d : DigitClass) (html : String) : Prop where
  descending : (parseVersionDirectories d html).Pairwise (· > ·)
  newestFirst : (parseVersionDirectories d html).Pairwise fun v w => stamp w < stamp v
  members : ∀ v, v ∈ parseVersionDirectories d html ↔ Listed html v
  latest : ∀ baseUrl v, latestVersion d baseUrl html = .ok v →
    Listed html v ∧ ∀ w, Listed html w → stamp w ≤ stamp v

/-! ## What the pattern finds -/

theorem isAsciiDigit_iff {c : Char} : Text.isAsciiDigit c = true ↔ 48 ≤ c.toNat ∧ c.toNat ≤ 57 := by
  simp only [Text.isAsciiDigit, Bool.and_eq_true, decide_eq_true_eq, Char.le_def, UInt32.le_iff_toNat_le]
  rfl

variable {d : DigitClass} {html v w : String}

theorem mem_versionShape {isDigit : Char → Bool} {p : Char → Bool} (hp : p ∈ versionShape isDigit) :
    p = isDigit ∨ p = (· == '-') := by
  simp only [versionShape, List.mem_append, List.mem_replicate, List.mem_singleton] at hp
  rcases hp with (⟨-, rfl⟩ | rfl) | ⟨-, rfl⟩
  · exact .inl rfl
  · exact .inr rfl
  · exact .inl rfl

theorem separated_versionPattern (d : DigitClass) : (versionPattern d).Separated := by
  have hstarts : ∀ a, (versionPattern d).starts a = true → a = 'h' := by
    intro a ha
    simpa [Pattern.starts, versionPattern, Shape.literal, hrefOpening] using ha
  refine ⟨by simp [versionPattern, Shape.literal, hrefOpening], fun a ha => ?_, fun a ha q hq => ?_⟩
  · rw [hstarts a ha]
    rfl
  · rw [hstarts a ha]
    rcases List.mem_append.mp hq with hq | hq
    · have hrest : ∀ q ∈ (Shape.literal hrefOpening.toList).tail, q 'h' = false := by decide
      exact hrest q hq
    · rcases mem_versionShape hq with rfl | rfl
      · exact d.ascii 'h' (by decide)
      · rfl

theorem mem_parseVersionDirectories : v ∈ parseVersionDirectories d html ↔ Opens d html v := by
  have hcapture : v ∈ ((versionPattern d).captures 0 html.toList).map String.ofList ↔
      (versionPattern d).Occurs v.toList html.toList := by
    rw [← Pattern.mem_captures (separated_versionPattern d) 0 (by simp), List.mem_map]
    constructor
    · rintro ⟨capture, hmem, rfl⟩
      rwa [String.toList_ofList]
    · exact fun hmem => ⟨v.toList, hmem, String.ofList_toList⟩
  rw [parseVersionDirectories, mem_sortDedup, hcapture]
  constructor
  · rintro ⟨pre, rest, hhtml, x, post, rfl, hx, hv⟩
    refine ⟨hv, pre, post, ?_⟩
    rw [hhtml, Shape.fits_literal.mp hx]
    simp only [List.append_assoc]
  · rintro ⟨hv, pre, post, hhtml⟩
    refine ⟨pre, _, ?_, hrefOpening.toList, post, rfl, Shape.fits_literal.mpr rfl, hv⟩
    rw [hhtml]
    simp only [List.append_assoc]

theorem parseVersionDirectories_descending (d : DigitClass) (html : String) :
    (parseVersionDirectories d html).Pairwise (· > ·) :=
  pairwise_sortDedup.imp fun h => lt_of_le_of_ne h.1 h.2.symm

/-- A listed version is found. -/
theorem Listed.opens (d : DigitClass) (h : Listed html v) : Opens d html v := by
  obtain ⟨hversion, hvalue⟩ := h
  have hdigit : ∀ c, Text.isAsciiDigit c = true → d.isDigit c = true := by
    intro c hc
    have hascii := isAsciiDigit_iff.mp hc
    rw [d.ascii c (by omega), hc]
  refine ⟨Shape.fits_mono ?_ hversion, ?_⟩
  · simpa [versionShape, List.replicate] using hdigit
  · rcases hvalue with ⟨-, pre, post, hhtml, -⟩ | ⟨-, pre, post, hhtml, -⟩
    · exact ⟨pre, "\"".toList ++ post, by rw [hhtml, List.append_assoc]⟩
    · refine ⟨pre, "/".toList ++ "\"".toList ++ post, ?_⟩
      rw [hhtml, String.toList_append]
      simp only [List.append_assoc]

/-! ## The order of time -/

theorem stampFrom_digit {c : Char} (hc : Text.isAsciiDigit c = true) (n : Nat) (cs : List Char) :
    stampFrom n (c :: cs) = stampFrom (10 * n + (c.toNat - 48)) cs := by
  have hne : c ≠ '-' := by
    rintro rfl
    cases hc
  rw [stampFrom, if_neg hne]
  rfl

/-- Texts of one shape compare as their numbers do once they differ before it. -/
theorem stampFrom_lt {ps : Shape Char} (hps : ∀ p ∈ ps, p = Text.isAsciiDigit ∨ p = (· == '-'))
    {s t : List Char} (hs : Shape.fits ps s = true) (ht : Shape.fits ps t = true) {n m : Nat}
    (hlt : n < m ∨ n = m ∧ s < t) : stampFrom n s < stampFrom m t := by
  induction ps generalizing s t n m with
  | nil =>
    cases s with
    | nil => cases t with
      | nil => simpa [stampFrom] using hlt
      | cons b t => cases ht
    | cons a s => cases hs
  | cons p ps ih =>
    cases s with
    | nil => cases hs
    | cons a s => cases t with
      | nil => cases ht
      | cons b t =>
        obtain ⟨ha, hs⟩ := Bool.and_eq_true_iff.mp hs
        obtain ⟨hb, ht⟩ := Bool.and_eq_true_iff.mp ht
        have hrest := @ih (fun q hq => hps q (List.mem_cons_of_mem _ hq)) s t hs ht
        rw [List.cons_lt_cons_iff, Char.lt_def, UInt32.lt_iff_toNat_lt] at hlt
        rcases hps p List.mem_cons_self with rfl | rfl
        · rw [stampFrom_digit ha, stampFrom_digit hb]
          have hadigit := isAsciiDigit_iff.mp ha
          have hbdigit := isAsciiDigit_iff.mp hb
          refine hrest ?_
          rcases hlt with hlt | ⟨rfl, hlt | ⟨rfl, hlt⟩⟩
          · omega
          · have hcode : a.toNat < b.toNat := hlt
            omega
          · exact .inr ⟨rfl, hlt⟩
        · have hsame : a = b := (beq_iff_eq.mp ha).trans (beq_iff_eq.mp hb).symm
          subst hsame
          refine hrest ?_
          rw [if_pos (beq_iff_eq.mp ha), if_pos (beq_iff_eq.mp ha)]
          rcases hlt with hlt | ⟨hn, hlt | ⟨-, hlt⟩⟩
          · exact .inl hlt
          · exact absurd hlt (Nat.lt_irrefl _)
          · exact .inr ⟨hn, hlt⟩

/-- The order of strings is the order of time. -/
theorem stamp_lt_of_lt (hv : IsVersion v) (hw : IsVersion w) (hlt : v < w) : stamp v < stamp w :=
  stampFrom_lt (fun _ hp => mem_versionShape hp) hv hw (.inr ⟨rfl, String.lt_iff_toList_lt.mp hlt⟩)

/-! ## Exact pages -/

theorem latestVersion_ok {baseUrl : String} (h : latestVersion d baseUrl html = .ok v) :
    (parseVersionDirectories d html).head? = some v := by
  unfold latestVersion at h
  cases hversions : parseVersionDirectories d html with
  | nil => rw [hversions] at h; cases h
  | cons version rest =>
    rw [hversions] at h
    cases h
    rfl

/-- Exactly the listed versions are found on the pages where a value that opens like a version
is one that some link has whole. -/
theorem versions_exact_iff (d : DigitClass) (html : String) :
    VersionsExact d html ↔ ∀ v, Opens d html v → Listed html v := by
  constructor
  · intro h v hv
    exact (h.members v).mp (mem_parseVersionDirectories.mpr hv)
  · intro h
    have hmembers : ∀ v, v ∈ parseVersionDirectories d html ↔ Listed html v := fun v =>
      mem_parseVersionDirectories.trans ⟨h v, Listed.opens d⟩
    have hdescending := parseVersionDirectories_descending d html
    have hnewest : (parseVersionDirectories d html).Pairwise fun v w => stamp w < stamp v :=
      hdescending.imp_of_mem fun hv hw hlt =>
        stamp_lt_of_lt ((hmembers _).mp hw).1 ((hmembers _).mp hv).1 hlt
    refine ⟨hdescending, hnewest, hmembers, fun baseUrl v hlatest => ?_⟩
    obtain ⟨rest, hrest⟩ := List.head?_eq_some_iff.mp (latestVersion_ok hlatest)
    rw [hrest, List.pairwise_cons] at hnewest
    refine ⟨(hmembers v).mp (by rw [hrest]; exact List.mem_cons_self), fun w hw => ?_⟩
    have hmem := (hmembers w).mpr hw
    rw [hrest] at hmem
    rcases List.mem_cons.mp hmem with rfl | hmem
    · exact Nat.le_refl _
    · exact Nat.le_of_lt (hnewest.1 w hmem)

def asciiDigits : DigitClass where
  isDigit := Text.isAsciiDigit
  ascii _ _ := rfl

/-- An archive next to the directories of an index. -/
def archivePage : String := "<a href=\"20260321-001002/\">\n<a href=\"20260325-001001.tar\">"

theorem HrefValue.contained {value : String} (h : HrefValue html value) :
    hrefOpening.toList ++ value.toList ++ "\"".toList <:+: html.toList := by
  obtain ⟨-, pre, post, hhtml, -⟩ := h
  refine ⟨pre, post, ?_⟩
  rw [hhtml]
  simp only [List.append_assoc]

/-- The archive is found as a version, and is the latest. -/
theorem archive_taken_for_version : ¬ VersionsExact asciiDigits archivePage := by
  intro h
  have hopens : Opens asciiDigits archivePage "20260325-001001" :=
    ⟨by decide, "<a href=\"20260321-001002/\">\n<a ".toList, ".tar\">".toList, by decide⟩
  obtain ⟨-, hvalue⟩ := (h.members _).mp (mem_parseVersionDirectories.mpr hopens)
  rcases hvalue with hvalue | hvalue
  · exact absurd hvalue.contained (by decide +kernel)
  · exact absurd hvalue.contained (by decide +kernel)

end MusicbrainzIngestion
