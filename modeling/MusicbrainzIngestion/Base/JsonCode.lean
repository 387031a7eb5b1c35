import MusicbrainzIngestion.Base.Json
import Mathlib.Logic.Equiv.List
import Mathlib.Logic.Embedding.Basic

/-! A prefix code for JSON values. It makes them countable, so an injective
printing or hashing of values exists, whatever it must be at given values. -/

namespace Base.Json

def encodeText (s : String) : List Nat := s.toList.map (fun c => c.toNat + 1) ++ [0]

def Number.encode : Number → List Nat
  | .posInt n => [0, n.toNat]
  | .negInt n => [1, n.toBitVec.toNat]
  | .float text => 2 :: encodeText text

mutual

def Value.encode : Value → List Nat
  | .null => [0]
  | .bool b => [1, b.toNat]
  | .number n => 2 :: n.encode
  | .string s => 3 :: encodeText s
  | .array vs => 4 :: encodeElements vs
  | .object es => 5 :: encodeEntries es

/-- Every element and every entry is announced by a one, the end by a zero. -/
def encodeElements : List Value → List Nat
  | [] => [0]
  | v :: vs => 1 :: (v.encode ++ encodeElements vs)

def encodeEntries : List (String × Value) → List Nat
  | [] => [0]
  | (k, v) :: es => 1 :: (encodeText k ++ (v.encode ++ encodeEntries es))

end

theorem encodeText_prefix_unique {s t : String} {x y : List Nat}
    (h : encodeText s ++ x = encodeText t ++ y) : s = t ∧ x = y := by
  suffices h : s.toList = t.toList ∧ x = y from ⟨String.toList_injective h.1, h.2⟩
  unfold encodeText at h
  generalize s.toList = cs at h ⊢
  generalize t.toList = ds at h ⊢
  induction cs generalizing ds with
  | nil =>
    cases ds with
    | nil => simpa using h
    | cons d ds => simp at h
  | cons c cs ih =>
    cases ds with
    | nil => simp at h
    | cons d ds =>
      simp only [List.map_cons, List.cons_append, List.cons.injEq, Nat.add_right_cancel_iff] at h
      obtain ⟨rfl, rfl⟩ := ih ds h.2
      exact ⟨by rw [Char.toNat_inj.mp h.1], rfl⟩

theorem Number.encode_prefix_unique {m n : Number} {x y : List Nat}
    (h : m.encode ++ x = n.encode ++ y) : m = n ∧ x = y := by
  cases m <;> cases n <;> simp [encode] at h
  case posInt.posInt a b => exact ⟨congrArg _ (UInt64.toNat_inj.mp h.1), h.2⟩
  case negInt.negInt a b => exact ⟨congrArg _ (Int64.toBitVec_inj.mp (BitVec.toNat_inj.mp h.1)), h.2⟩
  case float.float a b =>
    obtain ⟨rfl, hxy⟩ := encodeText_prefix_unique h
    exact ⟨rfl, hxy⟩

mutual

theorem Value.encode_prefix_unique : ∀ {v w : Value} {x y : List Nat},
    v.encode ++ x = w.encode ++ y → v = w ∧ x = y
  | v, w, x, y, h => by
    cases v <;> cases w <;> simp [Value.encode] at h
    case null.null => exact ⟨rfl, h⟩
    case bool.bool a b => cases a <;> cases b <;> simp_all
    case number.number m n =>
      obtain ⟨rfl, hxy⟩ := Number.encode_prefix_unique h
      exact ⟨rfl, hxy⟩
    case string.string s t =>
      obtain ⟨rfl, hxy⟩ := encodeText_prefix_unique h
      exact ⟨rfl, hxy⟩
    case array.array vs ws =>
      obtain ⟨rfl, hxy⟩ := encodeElements_prefix_unique h
      exact ⟨rfl, hxy⟩
    case object.object es fs =>
      obtain ⟨rfl, hxy⟩ := encodeEntries_prefix_unique h
      exact ⟨rfl, hxy⟩

theorem encodeElements_prefix_unique : ∀ {vs ws : List Value} {x y : List Nat},
    encodeElements vs ++ x = encodeElements ws ++ y → vs = ws ∧ x = y
  | [], ws, x, y, h => by
    cases ws <;> simp [encodeElements] at h
    exact ⟨rfl, h⟩
  | v :: vs, ws, x, y, h => by
    cases ws <;> simp [encodeElements] at h
    obtain ⟨rfl, hvs⟩ := Value.encode_prefix_unique h
    obtain ⟨rfl, hxy⟩ := encodeElements_prefix_unique hvs
    exact ⟨rfl, hxy⟩

theorem encodeEntries_prefix_unique : ∀ {es fs : List (String × Value)} {x y : List Nat},
    encodeEntries es ++ x = encodeEntries fs ++ y → es = fs ∧ x = y
  | [], fs, x, y, h => by
    cases fs <;> simp [encodeEntries] at h
    exact ⟨rfl, h⟩
  | (k, v) :: es, fs, x, y, h => by
    rcases fs with _ | ⟨⟨j, w⟩, fs⟩ <;> simp [encodeEntries] at h
    obtain ⟨rfl, hv⟩ := encodeText_prefix_unique h
    obtain ⟨rfl, hes⟩ := Value.encode_prefix_unique hv
    obtain ⟨rfl, hxy⟩ := encodeEntries_prefix_unique hes
    exact ⟨rfl, hxy⟩

end

theorem Value.encode_injective : Function.Injective Value.encode := fun v w h =>
  (Value.encode_prefix_unique (x := []) (y := []) (by simpa using h)).1

instance Value.decidableEq : DecidableEq Value := fun v w =>
  decidable_of_iff (v.encode = w.encode) ⟨fun h => Value.encode_injective h, congrArg Value.encode⟩

/-- Tally marks: one text for each number. -/
theorem tally_injective : Function.Injective fun n : Nat => String.ofList (List.replicate n '|') :=
  fun m n h => by simpa using congrArg (fun s : String => s.toList.length) h

theorem nonempty_embedding_text (α : Type) [Countable α] : Nonempty (α ↪ String) := by
  obtain ⟨f, hf⟩ := exists_injective_nat α
  exact ⟨⟨_, tally_injective.comp hf⟩⟩

/-- An injective text code with the texts of two elements prescribed. -/
theorem exists_embedding_text {α : Type} [Countable α] {a b : α} {s t : String} (hab : a ≠ b)
    (hst : s ≠ t) : ∃ f : α ↪ String, f a = s ∧ f b = t := by
  classical
  obtain ⟨f⟩ := nonempty_embedding_text α
  refine ⟨(f.setValue a s).setValue b t, ?_, Function.Embedding.setValue_eq _ _ _⟩
  have ha : f.setValue a s a = s := Function.Embedding.setValue_eq _ _ _
  rw [Function.Embedding.setValue_eq_of_ne hab (by rwa [ha]), ha]

theorem encodeText_injective : Function.Injective encodeText := fun s t h =>
  (encodeText_prefix_unique (x := []) (y := []) (by simpa using h)).1

instance countableString : Countable String := encodeText_injective.countable

instance countableValue : Countable Value := Value.encode_injective.countable

end Base.Json
