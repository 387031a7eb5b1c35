import Mathlib.Data.List.Basic

/-! Percent-encoding of bytes: letters, digits and four marks stand for themselves, every other
byte is written as an escape. Reading takes any text: an escape that is not one stands for
itself. -/

namespace Base.PercentCode

def unreserved (b : UInt8) : Bool :=
  (48 ≤ b && b ≤ 57) || (65 ≤ b && b ≤ 90) || (97 ≤ b && b ≤ 122) || [45, 46, 95, 126].contains b

def hexDigit (n : Nat) : Char := Char.ofNat (if n < 10 then 48 + n else 55 + n)

def hexValue (c : Char) : Option Nat :=
  if '0' ≤ c ∧ c ≤ '9' then some (c.toNat - 48)
  else if 'A' ≤ c ∧ c ≤ 'F' then some (c.toNat - 55)
  else if 'a' ≤ c ∧ c ≤ 'f' then some (c.toNat - 87)
  else none

def hexPair (high low : Char) : Option UInt8 :=
  (hexValue high).bind fun h => (hexValue low).map fun l => UInt8.ofNat (16 * h + l)

def encodeByte (b : UInt8) : List Char :=
  if unreserved b then [Char.ofNat b.toNat]
  else ['%', hexDigit (b.toNat / 16), hexDigit (b.toNat % 16)]

def encode (bytes : List UInt8) : List Char := bytes.flatMap encodeByte

def decode : List Char → List UInt8
  | [] => []
  | '%' :: high :: low :: rest =>
    match hexPair high low with
    | some b => b :: decode rest
    | none => String.utf8EncodeChar '%' ++ decode (high :: low :: rest)
  | c :: rest => String.utf8EncodeChar c ++ decode rest

/-- The characters an encoding is made of. -/
def Plain (c : Char) : Prop := c.isAlphanum = true ∨ c ∈ ['%', '-', '.', '_', '~']

instance (c : Char) : Decidable (Plain c) := inferInstanceAs (Decidable (_ ∨ _))

/-- What is to be shown of a byte is checked for all of them. -/
theorem forall_byte {P : UInt8 → Prop} (h : ∀ n : Fin 256, P (UInt8.ofNat n)) (b : UInt8) : P b := by
  have hb := h ⟨b.toNat, b.toNat_lt⟩
  rw [UInt8.ofNat_toNat] at hb
  exact hb

theorem unreserved_char (b : UInt8) (h : unreserved b = true) :
    Char.ofNat b.toNat ≠ '%' ∧ String.utf8EncodeChar (Char.ofNat b.toNat) = [b] := by
  have hall : ∀ b, unreserved b = true →
      Char.ofNat b.toNat ≠ '%' ∧ String.utf8EncodeChar (Char.ofNat b.toNat) = [b] :=
    forall_byte (by decide +kernel)
  exact hall b h

theorem hexPair_digits (b : UInt8) :
    hexPair (hexDigit (b.toNat / 16)) (hexDigit (b.toNat % 16)) = some b := by
  have hall : ∀ b : UInt8, hexPair (hexDigit (b.toNat / 16)) (hexDigit (b.toNat % 16)) = some b :=
    forall_byte (by decide +kernel)
  exact hall b

theorem plain_encodeByte (b : UInt8) : ∀ c ∈ encodeByte b, Plain c := by
  have hall : ∀ b, (encodeByte b).all (fun c => decide (Plain c)) = true :=
    forall_byte (by decide +kernel)
  intro c hc
  exact of_decide_eq_true (List.all_eq_true.mp (hall b) c hc)

theorem decode_of_ne {c : Char} (h : c ≠ '%') (rest : List Char) :
    decode (c :: rest) = String.utf8EncodeChar c ++ decode rest := by
  rw [decode]
  intro high low rest' hc
  exact absurd hc h

theorem decode_encodeByte (b : UInt8) (rest : List Char) :
    decode (encodeByte b ++ rest) = b :: decode rest := by
  unfold encodeByte
  split
  · next h =>
    obtain ⟨hne, hutf8⟩ := unreserved_char b h
    rw [List.singleton_append, decode_of_ne hne, hutf8, List.singleton_append]
  · simp only [List.cons_append, List.nil_append, decode, hexPair_digits]

/-- What was written is read back, whatever comes after it. -/
theorem decode_encode_append (bytes : List UInt8) (rest : List Char) :
    decode (encode bytes ++ rest) = bytes ++ decode rest := by
  induction bytes with
  | nil => rfl
  | cons b bytes ih =>
    have hsplit : encode (b :: bytes) = encodeByte b ++ encode bytes := List.flatMap_cons
    rw [hsplit, List.append_assoc, decode_encodeByte, ih, List.cons_append]

theorem decode_encode (bytes : List UInt8) : decode (encode bytes) = bytes := by
  have h := decode_encode_append bytes []
  rwa [List.append_nil, decode, List.append_nil] at h

theorem plain_encode (bytes : List UInt8) : ∀ c ∈ encode bytes, Plain c := by
  intro c hc
  obtain ⟨b, -, hb⟩ := List.mem_flatMap.mp hc
  exact plain_encodeByte b c hb

end Base.PercentCode
