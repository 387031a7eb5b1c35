import MusicbrainzIngestion.Base.Text

/-! Blocking readers, and the programs that are given one. A read may be short; a program
knows a reader by its replies alone, so a program is a tree of them. -/

namespace Base

/-- A reader over what is still to come. Nothing is promised of a reader after an error. -/
structure Reader (ρ ε : Type) where
  read : ρ → Nat → Except ε (List UInt8) × ρ
  rest : ρ → List UInt8
  read_rest : ∀ {r r' size out}, read r size = (.ok out, r') → rest r = out ++ rest r'
  read_length : ∀ {r r' size out}, read r size = (.ok out, r') → out.length ≤ size
  read_end : ∀ {r r' size}, read r size = (.ok [], r') → size = 0 ∨ rest r = []

/-- A program that ends, or reads at most `size` bytes and goes on as the reply has it. -/
inductive Reading (ε α : Type) where
  | done (a : α)
  | read (size : Nat) (next : Except ε (List UInt8) → Reading ε α)

/-- What a program gives, the reader it leaves, and whether one of its reads failed. -/
structure Ran (α ρ : Type) where
  result : α
  reader : ρ
  failed : Bool

namespace Reading

variable {ρ ε α β : Type}

def bind : Reading ε α → (α → Reading ε β) → Reading ε β
  | .done a, k => k a
  | .read size next, k => .read size fun reply => (next reply).bind k

def run (source : Reader ρ ε) : Reading ε α → ρ → Ran α ρ
  | .done a, r => ⟨a, r, false⟩
  | .read size next, r =>
    match source.read r size with
    | (.ok out, r') => (next (.ok out)).run source r'
    | (.error e, r') => { (next (.error e)).run source r' with failed := true }

variable (source : Reader ρ ε)

@[simp] theorem run_done (a : α) (r : ρ) : (done a : Reading ε α).run source r = ⟨a, r, false⟩ := rfl

theorem run_read_ok {size : Nat} {next : Except ε (List UInt8) → Reading ε α} {r r' : ρ}
    {out : List UInt8} (h : source.read r size = (.ok out, r')) :
    (read size next).run source r = (next (.ok out)).run source r' := by
  rw [run, h]

theorem run_read_error {size : Nat} {next : Except ε (List UInt8) → Reading ε α} {r r' : ρ} {e : ε}
    (h : source.read r size = (.error e, r')) :
    (read size next).run source r = { (next (.error e)).run source r' with failed := true } := by
  rw [run, h]

theorem run_bind (p : Reading ε α) (k : α → Reading ε β) (r : ρ) :
    (p.bind k).run source r =
      { (k (p.run source r).result).run source (p.run source r).reader with
        failed := (p.run source r).failed ||
          ((k (p.run source r).result).run source (p.run source r).reader).failed } := by
  induction p generalizing r with
  | done a => rfl
  | read size next ih =>
    rcases hread : source.read r size with ⟨reply, r'⟩
    cases reply with
    | ok out => rw [bind, run_read_ok source hread, run_read_ok source hread, ih]
    | error e =>
      rw [bind, run_read_error source hread, run_read_error source hread, ih]
      rfl

/-- What every read that succeeds preserves, a run without a failed read preserves. -/
theorem run_preserves {source : Reader ρ ε} {P : ρ → Prop}
    (hstep : ∀ {r r' size out}, P r → source.read r size = (.ok out, r') → P r')
    {p : Reading ε α} {r : ρ} (hr : P r) (h : (p.run source r).failed = false) :
    P (p.run source r).reader := by
  induction p generalizing r with
  | done a => exact hr
  | read size next ih =>
    rcases hread : source.read r size with ⟨reply, r'⟩
    cases reply with
    | ok out =>
      rw [run_read_ok source hread] at h ⊢
      exact ih (.ok out) (hstep hr hread) h
    | error e =>
      rw [run_read_error source hread] at h
      cases h

/-! ## Programs that surface errors -/

/-- However its reads go from here, the program fails. -/
def Always (fails : α → Prop) : Reading ε α → Prop
  | .done a => fails a
  | .read _ next => ∀ reply, (next reply).Always fails

/-- A read that fails makes the program fail. -/
def Surfaces (fails : α → Prop) : Reading ε α → Prop
  | .done _ => True
  | .read _ next => (∀ e, (next (.error e)).Always fails) ∧ ∀ out, (next (.ok out)).Surfaces fails

variable {source} {fails : α → Prop} {fails' : β → Prop}

theorem Always.run {p : Reading ε α} (h : p.Always fails) (r : ρ) :
    fails (p.run source r).result := by
  induction p generalizing r with
  | done a => exact h
  | read size next ih =>
    rcases hread : source.read r size with ⟨reply, r'⟩
    cases reply with
    | ok out =>
      rw [run_read_ok source hread]
      exact ih (.ok out) (h (.ok out)) r'
    | error e =>
      rw [run_read_error source hread]
      exact ih (.error e) (h (.error e)) r'

theorem Surfaces.run {p : Reading ε α} (h : p.Surfaces fails) {r : ρ}
    (hfailed : (p.run source r).failed = true) : fails (p.run source r).result := by
  induction p generalizing r with
  | done a => cases hfailed
  | read size next ih =>
    rcases hread : source.read r size with ⟨reply, r'⟩
    cases reply with
    | ok out =>
      rw [run_read_ok source hread] at hfailed ⊢
      exact ih (.ok out) (h.2 out) hfailed
    | error e =>
      rw [run_read_error source hread]
      exact (h.1 e).run r'

/-- A program that does not fail met no failed read. -/
theorem Surfaces.clean {p : Reading ε α} (h : p.Surfaces fails) {r : ρ}
    (hok : ¬ fails (p.run source r).result) : (p.run source r).failed = false := by
  rw [Bool.eq_false_iff]
  intro hfailed
  exact hok (h.run hfailed)

theorem Always.bind {p : Reading ε α} {k : α → Reading ε β} (h : p.Always fails)
    (hk : ∀ a, fails a → (k a).Always fails') : (p.bind k).Always fails' := by
  induction p with
  | done a => exact hk a h
  | read size next ih => exact fun reply => ih reply (h reply)

theorem Surfaces.bind {p : Reading ε α} {k : α → Reading ε β} (h : p.Surfaces fails)
    (hfails : ∀ a, fails a → (k a).Always fails') (hk : ∀ a, (k a).Surfaces fails') :
    (p.bind k).Surfaces fails' := by
  induction p with
  | done a => exact hk a
  | read size next ih => exact ⟨fun e => (h.1 e).bind hfails, fun out => ih (.ok out) (h.2 out)⟩

end Reading

/-! ## Streams in chunks -/

/-- A stream read in chunks that `pick` chooses, from the number of the read and its size. -/
structure ChunkedStream where
  stream : Text.Stream
  reads : Nat

namespace ChunkedStream

/-- At least one byte, where one is asked for and left. -/
def read (pick : Nat → Nat → Nat) (s : ChunkedStream) (size : Nat) :
    Except String (List UInt8) × ChunkedStream :=
  if s.stream.bytes = [] then
    match s.stream.failure with
    | some e => (.error e, s)
    | none => (.ok [], s)
  else
    let n := min (max 1 (pick s.reads size)) size
    (.ok (s.stream.bytes.take n), ⟨⟨s.stream.bytes.drop n, s.stream.failure⟩, s.reads + 1⟩)

/-- A read gives part of what is left, or the end of the stream. -/
theorem read_ok {pick : Nat → Nat → Nat} {s s' : ChunkedStream} {size : Nat} {out : List UInt8}
    (h : s.read pick size = (.ok out, s')) :
    s.stream.bytes = out ++ s'.stream.bytes ∧ s'.stream.failure = s.stream.failure ∧
      out.length ≤ size ∧ (out = [] → size = 0 ∨ s.stream.bytes = []) := by
  unfold read at h
  by_cases hend : s.stream.bytes = []
  · rw [if_pos hend] at h
    cases hfailure : s.stream.failure with
    | some e =>
      rw [hfailure] at h
      cases h
    | none =>
      rw [hfailure] at h
      cases h
      exact ⟨rfl, hfailure, Nat.zero_le _, fun _ => .inr hend⟩
  · rw [if_neg hend] at h
    cases h
    refine ⟨(List.take_append_drop _ _).symm, rfl, ?_, fun hnil => ?_⟩
    · rw [List.length_take]
      omega
    · rcases List.take_eq_nil_iff.mp hnil with hzero | hnil
      · left
        omega
      · exact .inr hnil

/-- A read fails at the end of a stream that does. -/
theorem read_error {pick : Nat → Nat → Nat} {s s' : ChunkedStream} {size : Nat} {e : String}
    (h : s.read pick size = (.error e, s')) : s.stream.failure = some e := by
  unfold read at h
  by_cases hend : s.stream.bytes = []
  · rw [if_pos hend] at h
    cases hfailure : s.stream.failure with
    | some e' =>
      rw [hfailure] at h
      cases h
      rfl
    | none =>
      rw [hfailure] at h
      cases h
  · rw [if_neg hend] at h
    cases h

/-- At its end a stream does not fail, if a read there succeeds. -/
theorem read_end_ok {pick : Nat → Nat → Nat} {s s' : ChunkedStream} {size : Nat} {out : List UInt8}
    (h : s.read pick size = (.ok out, s')) (hend : s.stream.bytes = []) :
    s.stream.failure = none := by
  unfold read at h
  rw [if_pos hend] at h
  cases hfailure : s.stream.failure with
  | some e =>
    rw [hfailure] at h
    cases h
  | none => rfl

end ChunkedStream

def Reader.chunked (pick : Nat → Nat → Nat) : Reader ChunkedStream String where
  read := ChunkedStream.read pick
  rest s := s.stream.bytes
  read_rest h := (ChunkedStream.read_ok h).1
  read_length h := (ChunkedStream.read_ok h).2.2.1
  read_end h := (ChunkedStream.read_ok h).2.2.2 rfl

/-! ## Hashes that are fed a message in pieces -/

/-- A hash function with a state: feeding pieces in order is feeding them joined. -/
structure IncrementalHash where
  State : Type
  new : State
  update : State → List UInt8 → State
  finalize : State → List UInt8
  update_nil : ∀ h, update h [] = h
  update_append : ∀ h a b, update (update h a) b = update h (a ++ b)

/-- The hash of a message fed at once. -/
def IncrementalHash.digest (H : IncrementalHash) (message : List UInt8) : List UInt8 :=
  H.finalize (H.update H.new message)

end Base
