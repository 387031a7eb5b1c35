import Mathlib.Data.List.Basic
import Mathlib.Data.List.Infix

/-! Patterns of a fixed shape, one character class for each character, and the search for
them: leftmost first, each search going on behind the match before it. When no match can
start inside another, the search finds every occurrence. -/

namespace Base

universe u

variable {α : Type u}

/-- One class for each character. -/
abbrev Shape (α : Type u) := List (α → Bool)

namespace Shape

def fits : Shape α → List α → Bool
  | [], [] => true
  | p :: ps, a :: s => p a && fits ps s
  | _, _ => false

def literal [BEq α] (word : List α) : Shape α := word.map fun a b => b == a

theorem length_of_fits {ps : Shape α} {s : List α} (h : fits ps s = true) : s.length = ps.length := by
  induction ps generalizing s with
  | nil => cases s with
    | nil => rfl
    | cons a s => cases h
  | cons p ps ih => cases s with
    | nil => cases h
    | cons a s => exact congrArg (· + 1) (ih (Bool.and_eq_true_iff.mp h).2)

theorem mem_of_fits {ps : Shape α} {s : List α} (h : fits ps s = true) {a : α} (ha : a ∈ s) :
    ∃ p ∈ ps, p a = true := by
  induction ps generalizing s with
  | nil => cases s with
    | nil => cases ha
    | cons b s => cases h
  | cons p ps ih => cases s with
    | nil => cases ha
    | cons b s =>
      obtain ⟨hb, hs⟩ := Bool.and_eq_true_iff.mp h
      rcases List.mem_cons.mp ha with rfl | ha
      · exact ⟨p, List.mem_cons_self, hb⟩
      · obtain ⟨q, hq, hqa⟩ := ih hs ha
        exact ⟨q, List.mem_cons_of_mem _ hq, hqa⟩

theorem fits_append {ps qs : Shape α} {s t : List α} (hlength : s.length = ps.length) :
    fits (ps ++ qs) (s ++ t) = (fits ps s && fits qs t) := by
  induction ps generalizing s with
  | nil =>
    rw [List.length_eq_zero_iff.mp hlength]
    rfl
  | cons p ps ih => cases s with
    | nil => cases hlength
    | cons a s =>
      simp only [List.cons_append, fits, ih (Nat.succ.inj hlength), Bool.and_assoc]

theorem fits_mono {ps qs : Shape α} (h : List.Forall₂ (fun p q => ∀ a, p a = true → q a = true) ps qs)
    {s : List α} (hs : fits ps s = true) : fits qs s = true := by
  induction h generalizing s with
  | nil => exact hs
  | cons hpq _ ih => cases s with
    | nil => cases hs
    | cons a s =>
      obtain ⟨ha, hrest⟩ := Bool.and_eq_true_iff.mp hs
      exact Bool.and_eq_true_iff.mpr ⟨hpq a ha, ih hrest⟩

theorem fits_literal [BEq α] [LawfulBEq α] {word s : List α} : fits (literal word) s = true ↔ s = word := by
  induction word generalizing s with
  | nil => cases s <;> simp [literal, fits]
  | cons a word ih => cases s with
    | nil => simp [literal, fits]
    | cons b s => simpa [literal, fits] using fun _ => ih

end Shape

/-- What precedes the capture, the capture, and one character that may follow. -/
structure Pattern (α : Type u) where
  before : Shape α
  captured : Shape α
  optional : α → Bool

namespace Pattern

variable (pat : Pattern α)

/-- The length without the optional character. -/
def length : Nat := pat.before.length + pat.captured.length

/-- The capture of a match at the start of the text. -/
def matchAt (s : List α) : Option (List α) :=
  if Shape.fits (pat.before ++ pat.captured) (s.take pat.length) then
    some ((s.drop pat.before.length).take pat.captured.length)
  else none

/-- The length of that match. -/
def matchLength (s : List α) : Nat :=
  pat.length + if (s.drop pat.length).head?.any pat.optional then 1 else 0

/-- The captures of the matches in a text of which `skip` characters are behind the last one. -/
def captures : Nat → List α → List (List α)
  | _, [] => []
  | skip + 1, _ :: s => captures skip s
  | 0, a :: s =>
    match pat.matchAt (a :: s) with
    | some capture => capture :: captures (pat.matchLength (a :: s) - 1) s
    | none => captures 0 s

/-- The text starts with what precedes the capture, and then the capture. -/
def StartsWith (capture s : List α) : Prop :=
  ∃ x post, s = x ++ capture ++ post ∧ Shape.fits pat.before x = true ∧
    Shape.fits pat.captured capture = true

def Occurs (capture s : List α) : Prop := ∃ pre rest, s = pre ++ rest ∧ pat.StartsWith capture rest

def starts (a : α) : Bool := pat.before.head?.any (· a)

/-- A character that starts a match is in no other place of one. -/
structure Separated : Prop where
  nonempty : pat.before ≠ []
  optional : ∀ a, pat.starts a = true → pat.optional a = false
  apart : ∀ a, pat.starts a = true → ∀ q ∈ pat.before.tail ++ pat.captured, q a = false

variable {pat} {capture s : List α} {a : α}

theorem take_of_startsWith {x post : List α} (hs : s = x ++ capture ++ post)
    (hx : Shape.fits pat.before x = true) (hc : Shape.fits pat.captured capture = true) :
    s.take pat.length = x ++ capture ∧ (s.drop pat.before.length).take pat.captured.length = capture ∧
      s.drop pat.length = post := by
  have hxlen := Shape.length_of_fits hx
  have hclen := Shape.length_of_fits hc
  have hlen : pat.length = (x ++ capture).length := by rw [List.length_append, hxlen, hclen, length]
  refine ⟨?_, ?_, ?_⟩
  · rw [hlen, hs, List.take_left]
  · rw [hs, List.append_assoc, ← hxlen, List.drop_left, ← hclen, List.take_left]
  · rw [hlen, hs, List.drop_left]

theorem startsWith_iff : pat.StartsWith capture s ↔ pat.matchAt s = some capture := by
  constructor
  · rintro ⟨x, post, hs, hx, hc⟩
    obtain ⟨htake, hcapture, -⟩ := take_of_startsWith hs hx hc
    rw [matchAt, htake, Shape.fits_append (Shape.length_of_fits hx), hx, hc, hcapture]
    rfl
  · intro hmatch
    unfold matchAt at hmatch
    split at hmatch
    · next hfits =>
      have hlen := Shape.length_of_fits hfits
      have hsplit : s.take pat.length =
          s.take pat.before.length ++ (s.drop pat.before.length).take pat.captured.length := by
        rw [length, List.take_add]
      have hbefore : (s.take pat.before.length).length = pat.before.length := by
        rw [List.length_append] at hlen
        rw [List.length_take] at hlen ⊢
        simp only [length] at hlen
        omega
      rw [hsplit, Shape.fits_append hbefore, Bool.and_eq_true] at hfits
      cases hmatch
      exact ⟨_, s.drop pat.length, by rw [← hsplit, List.take_append_drop], hfits.1, hfits.2⟩
    · cases hmatch

theorem startsWith_unique {other : List α} (h : pat.StartsWith capture s)
    (hother : pat.StartsWith other s) : capture = other :=
  Option.some.inj ((startsWith_iff.mp h).symm.trans (startsWith_iff.mp hother))

/-- The first character of a match starts it, and the rest of the match is apart from it. -/
theorem startsWith_cons (hsep : pat.Separated) (h : pat.StartsWith capture (a :: s)) :
    pat.starts a = true ∧ ∃ x post, s = x ++ capture ++ post ∧ x.length + 1 = pat.before.length ∧
      Shape.fits pat.captured capture = true ∧ ∀ b ∈ x ++ capture, pat.starts b = false := by
  obtain ⟨x, post, hs, hx, hc⟩ := h
  have hapart := hsep.apart
  unfold starts at hapart ⊢
  cases hbefore : pat.before with
  | nil => exact absurd hbefore hsep.nonempty
  | cons p ps =>
    rw [hbefore] at hx hapart
    cases x with
    | nil => cases hx
    | cons b x =>
      cases hs
      obtain ⟨hp, hps⟩ := Bool.and_eq_true_iff.mp hx
      refine ⟨hp, x, post, rfl, congrArg (· + 1) (Shape.length_of_fits hps), hc, fun b hb => ?_⟩
      have hclass : ∃ q ∈ ps ++ pat.captured, q b = true := by
        rcases List.mem_append.mp hb with hb | hb
        · obtain ⟨q, hq, hqb⟩ := Shape.mem_of_fits hps hb
          exact ⟨q, List.mem_append_left _ hq, hqb⟩
        · obtain ⟨q, hq, hqb⟩ := Shape.mem_of_fits hc hb
          exact ⟨q, List.mem_append_right _ hq, hqb⟩
      obtain ⟨q, hq, hqb⟩ := hclass
      by_contra hb
      have hstarts := hapart b (by simpa using hb) q hq
      rw [hqb] at hstarts
      cases hstarts

theorem occurs_cons : pat.Occurs capture (a :: s) ↔
    pat.StartsWith capture (a :: s) ∨ pat.Occurs capture s := by
  constructor
  · rintro ⟨pre, rest, hs, hstart⟩
    cases pre with
    | nil => exact .inl (by rwa [hs])
    | cons b pre =>
      cases hs
      exact .inr ⟨pre, rest, rfl, hstart⟩
  · rintro (hstart | ⟨pre, rest, rfl, hstart⟩)
    · exact ⟨[], a :: s, rfl, hstart⟩
    · exact ⟨a :: pre, rest, rfl, hstart⟩

theorem not_occurs_nil (hsep : pat.Separated) : ¬ pat.Occurs capture [] := by
  rintro ⟨pre, rest, hs, x, post, hrest, hx, -⟩
  obtain ⟨rfl, rfl⟩ := List.append_eq_nil_iff.mp hs.symm
  obtain ⟨hempty, rfl⟩ := List.append_eq_nil_iff.mp hrest.symm
  obtain ⟨rfl, rfl⟩ := List.append_eq_nil_iff.mp hempty
  exact hsep.nonempty (List.length_eq_zero_iff.mp (Shape.length_of_fits hx).symm)

/-- No match starts in what a match leaves behind itself. -/
theorem not_starts_of_match (hsep : pat.Separated) (h : pat.StartsWith capture (a :: s)) :
    ∀ b ∈ s.take (pat.matchLength (a :: s) - 1), pat.starts b = false := by
  obtain ⟨-, x, post, rfl, hx, hc, hinside⟩ := startsWith_cons hsep h
  have hlen : pat.length = (x ++ capture).length + 1 := by
    rw [List.length_append, Shape.length_of_fits hc, length]
    omega
  have hdrop : (a :: (x ++ capture ++ post)).drop pat.length = post := by
    rw [hlen, List.drop_succ_cons, List.drop_left]
  intro b hb
  rw [matchLength, hdrop, hlen, Nat.add_right_comm, Nat.add_sub_cancel, List.take_length_add_append] at hb
  rcases List.mem_append.mp hb with hb | hb
  · exact hinside b hb
  · -- the optional character
    cases post with
    | nil => cases hb
    | cons c post =>
      cases hopt : pat.optional c with
      | false => simp [hopt] at hb
      | true =>
        have hbc : b = c := by simpa [hopt] using hb
        by_contra hstarts
        have hfalse := hsep.optional c (by simpa [hbc] using hstarts)
        rw [hopt] at hfalse
        cases hfalse

/-- The search finds every occurrence. -/
theorem mem_captures (hsep : pat.Separated) (skip : Nat)
    (hskip : ∀ b ∈ s.take skip, pat.starts b = false) :
    capture ∈ pat.captures skip s ↔ pat.Occurs capture s := by
  induction s generalizing skip with
  | nil =>
    rw [captures]
    exact iff_of_false List.not_mem_nil (not_occurs_nil hsep)
  | cons a s ih =>
    rw [occurs_cons]
    cases skip with
    | succ skip =>
      have hno : ¬ pat.StartsWith capture (a :: s) := fun h => by
        have ha := hskip a (by simp)
        rw [(startsWith_cons hsep h).1] at ha
        cases ha
      rw [captures, ih skip fun b hb => hskip b (by simp [hb])]
      exact (or_iff_right hno).symm
    | zero =>
      rw [captures]
      cases hmatch : pat.matchAt (a :: s) with
      | none =>
        have hno : ¬ pat.StartsWith capture (a :: s) := fun h => by
          rw [startsWith_iff.mp h] at hmatch
          cases hmatch
        exact (ih 0 (by simp)).trans (or_iff_right hno).symm
      | some first =>
        have hfirst := startsWith_iff.mpr hmatch
        have hhere : capture = first ↔ pat.StartsWith capture (a :: s) :=
          ⟨fun h => h ▸ hfirst, fun h => startsWith_unique h hfirst⟩
        show capture ∈ first :: _ ↔ _
        rw [List.mem_cons, hhere, ih _ (not_starts_of_match hsep hfirst)]

end Pattern

end Base
