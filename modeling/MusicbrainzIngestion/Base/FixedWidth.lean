import MusicbrainzIngestion.Base.Text
import Mathlib.Data.Nat.Basic

/-! Arithmetic of fixed width as a compiled program does it: a step gives the wrapped
result and says whether the exact one was out of range. One build stops at such a step,
another goes on with the wrapped value. -/

namespace Base

/-- What a computation gives, and whether a step of it overflowed. -/
structure Computed (α : Type) where
  value : α
  overflowed : Bool
deriving DecidableEq

/-- Whether overflow is checked for when the program runs. -/
inductive Build
  | checked
  | wrapping
deriving DecidableEq

namespace Computed

variable {α β : Type} {w : Nat}

def exact (a : α) : Computed α := ⟨a, false⟩

def map (f : α → β) (c : Computed α) : Computed β := ⟨f c.value, c.overflowed⟩

def bind (c : Computed α) (f : α → Computed β) : Computed β :=
  ⟨(f c.value).value, c.overflowed || (f c.value).overflowed⟩

def add (a b : BitVec w) : Computed (BitVec w) := ⟨a + b, a.uaddOverflow b⟩

def mul (a b : BitVec w) : Computed (BitVec w) := ⟨a * b, a.umulOverflow b⟩

/-- Only the amount is checked: bits shifted out are lost in every build. -/
def shl (a : BitVec w) (n : Nat) : Computed (BitVec w) := ⟨a <<< (n % w), decide (w ≤ n)⟩

@[simp] theorem exact_value (a : α) : (exact a).value = a := rfl

@[simp] theorem exact_overflowed (a : α) : (exact a).overflowed = false := rfl

@[simp] theorem map_value (f : α → β) (c : Computed α) : (c.map f).value = f c.value := rfl

@[simp] theorem map_overflowed (f : α → β) (c : Computed α) :
    (c.map f).overflowed = c.overflowed := rfl

@[simp] theorem bind_value (c : Computed α) (f : α → Computed β) :
    (c.bind f).value = (f c.value).value := rfl

@[simp] theorem bind_overflowed (c : Computed α) (f : α → Computed β) :
    (c.bind f).overflowed = (c.overflowed || (f c.value).overflowed) := rfl

@[simp] theorem add_overflowed (a b : BitVec w) :
    (add a b).overflowed = decide (2 ^ w ≤ a.toNat + b.toNat) := rfl

@[simp] theorem mul_overflowed (a b : BitVec w) :
    (mul a b).overflowed = decide (2 ^ w ≤ a.toNat * b.toNat) := rfl

@[simp] theorem shl_overflowed (a : BitVec w) (n : Nat) :
    (shl a n).overflowed = decide (w ≤ n) := rfl

theorem add_toNat {a b : BitVec w} (h : a.toNat + b.toNat < 2 ^ w) :
    (add a b).value.toNat = a.toNat + b.toNat :=
  BitVec.toNat_add_of_lt h

theorem mul_toNat {a b : BitVec w} (h : a.toNat * b.toNat < 2 ^ w) :
    (mul a b).value.toNat = a.toNat * b.toNat :=
  BitVec.toNat_mul_of_lt h

/-- One, shifted by less than the width. -/
theorem shl_one_toNat {n : Nat} (h : n < w) : (shl (1 : BitVec w) n).value.toNat = 2 ^ n := by
  have hw : 1 < 2 ^ w := Nat.one_lt_two_pow (by omega)
  have hn : 2 ^ n < 2 ^ w := Nat.pow_lt_pow_right (by decide) h
  show ((1 : BitVec w) <<< (n % w)).toNat = 2 ^ n
  rw [Nat.mod_eq_of_lt h, BitVec.toNat_shiftLeft, BitVec.ofNat_eq_ofNat, BitVec.toNat_ofNat,
    Nat.mod_eq_of_lt hw, Nat.one_shiftLeft, Nat.mod_eq_of_lt hn]

end Computed

/-- The value a build goes on with, unless it stops. -/
def Build.run {α : Type} (b : Build) (c : Computed α) : Option α :=
  if b = .checked ∧ c.overflowed = true then none else some c.value

theorem Build.run_exact {α : Type} (b : Build) {c : Computed α} (h : c.overflowed = false) :
    b.run c = some c.value := by
  unfold Build.run
  simp [h]

/-! ## Saturating steps -/

section
variable {w : Nat}

def saturatingSub (a b : BitVec w) : BitVec w := if a < b then 0 else a - b

def saturatingMul (a b : BitVec w) : BitVec w :=
  if a.umulOverflow b then BitVec.allOnes w else a * b

theorem saturatingSub_toNat (a b : BitVec w) : (saturatingSub a b).toNat = a.toNat - b.toNat := by
  unfold saturatingSub
  by_cases h : a < b
  · have hlt : a.toNat < b.toNat := h
    rw [if_pos h, Nat.sub_eq_zero_of_le (Nat.le_of_lt hlt)]
    exact BitVec.toNat_zero
  · rw [if_neg h, BitVec.toNat_sub_of_le (BitVec.not_lt.mp h)]

theorem saturatingMul_toNat (a b : BitVec w) :
    (saturatingMul a b).toNat = min (a.toNat * b.toNat) (2 ^ w - 1) := by
  unfold saturatingMul
  by_cases h : 2 ^ w ≤ a.toNat * b.toNat
  · have hover : a.umulOverflow b = true := decide_eq_true h
    rw [if_pos hover, BitVec.toNat_allOnes]
    omega
  · have hover : a.umulOverflow b = false := decide_eq_false h
    rw [if_neg (by simp [hover]), BitVec.toNat_mul_of_lt (by omega)]
    omega

/-! ## Numbers read from a text -/

/-- A plus sign at most, then at least one ASCII digit; of any size. -/
def unsignedValue (s : String) : Option Nat :=
  match s.toList with
  | '+' :: cs => Text.digitsValue cs
  | cs => Text.digitsValue cs

/-- `str::parse` at an unsigned type. -/
def parseUnsigned (w : Nat) (s : String) : Option (BitVec w) :=
  (unsignedValue s).bind fun n => if n < 2 ^ w then some (BitVec.ofNat w n) else none

theorem parseUnsigned_eq_none {s : String} :
    parseUnsigned w s = none ↔ ∀ n, unsignedValue s = some n → 2 ^ w ≤ n := by
  unfold parseUnsigned
  cases unsignedValue s with
  | none => simp
  | some n => simp

theorem parseUnsigned_of_value {s : String} {n : Nat} (hs : unsignedValue s = some n)
    (hn : n < 2 ^ w) : parseUnsigned w s = some (BitVec.ofNat w n) := by
  rw [parseUnsigned, hs, Option.bind_some, if_pos hn]

end

/-! ## Durations -/

def nanosPerSec : Nat := 1000000000

/-- A length of time in nanoseconds, of fewer seconds than 64 bits count. -/
structure Duration where
  nanos : Nat
  inRange : nanos < 2 ^ 64 * nanosPerSec
deriving DecidableEq

namespace Duration

def fromSecs (n : BitVec 64) : Duration :=
  ⟨n.toNat * nanosPerSec, Nat.mul_lt_mul_of_pos_right n.isLt (by decide)⟩

def min (a b : Duration) : Duration := if a.nanos ≤ b.nanos then a else b

/-- The difference, where there is one. -/
def sub (a b : Duration) (_ : b.nanos ≤ a.nanos) : Duration :=
  ⟨a.nanos - b.nanos, Nat.lt_of_le_of_lt (Nat.sub_le _ _) a.inRange⟩

@[simp] theorem fromSecs_nanos (n : BitVec 64) : (fromSecs n).nanos = n.toNat * nanosPerSec := rfl

@[simp] theorem min_nanos (a b : Duration) : (a.min b).nanos = Min.min a.nanos b.nanos := by
  unfold min
  by_cases h : a.nanos ≤ b.nanos
  · rw [if_pos h]
    exact (Nat.min_eq_left h).symm
  · rw [if_neg h]
    exact (Nat.min_eq_right (by omega)).symm

/-- The debug text of a duration of whole seconds. -/
def debugText (d : Duration) : String :=
  if d.nanos = 0 then "0ns" else toString (d.nanos / nanosPerSec) ++ "s"

end Duration

end Base
