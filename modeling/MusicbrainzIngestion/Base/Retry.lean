/-! A loop that tries an operation a bounded number of times. An attempt sees its number
and the state the attempts before it left; the last error is returned when none succeeds. -/

namespace Base

variable {α ε σ : Type}

/-- What a loop returns, the state it leaves, and how many attempts it made. -/
structure Retried (α ε σ : Type) where
  result : Except ε α
  state : σ
  attempts : Nat

namespace Retry

/-- Up to `remaining` attempts from number `n` on, after `n` is counted up by each failure. -/
def loop (run : Nat → σ → Except ε α × σ) : Nat → Nat → Nat → ε → σ → Retried α ε σ
  | 0, _, made, last, s => ⟨.error last, s, made⟩
  | remaining + 1, n, made, _, s =>
    match run n s with
    | (.ok a, s') => ⟨.ok a, s', made + 1⟩
    | (.error e, s') => loop run remaining (n + 1) (made + 1) e s'

/-- The first `k` attempts failed, the last of them with `e`, and left `s`. -/
inductive Failed (run : Nat → σ → Except ε α × σ) (first : Nat) (e₀ : ε) (s₀ : σ) :
    Nat → ε → σ → Prop
  | none : Failed run first e₀ s₀ 0 e₀ s₀
  | more {k : Nat} {e e' : ε} {s s' : σ} : Failed run first e₀ s₀ k e s →
      run (first + k) s = (.error e', s') → Failed run first e₀ s₀ (k + 1) e' s'

variable {run : Nat → σ → Except ε α × σ} {first : Nat} {e₀ : ε} {s₀ : σ}

/-- A loop ends at the first success, or when all its attempts have failed. -/
theorem Failed.loop_cases {k : Nat} {e : ε} {s : σ} (h : Failed run first e₀ s₀ k e s)
    (remaining : Nat) :
    (∃ j e' s' a s'', j < k + remaining ∧ Failed run first e₀ s₀ j e' s' ∧
      run (first + j) s' = (.ok a, s'') ∧
      loop run remaining (first + k) k e s = ⟨.ok a, s'', j + 1⟩) ∨
    ∃ e' s', Failed run first e₀ s₀ (k + remaining) e' s' ∧
      loop run remaining (first + k) k e s = ⟨.error e', s', k + remaining⟩ := by
  induction remaining generalizing k e s with
  | zero => exact .inr ⟨e, s, h, rfl⟩
  | succ remaining ih =>
    rcases hrun : run (first + k) s with ⟨result, s'⟩
    cases result with
    | ok a => exact .inl ⟨k, e, s, a, s', by omega, h, hrun, by simp only [loop, hrun]⟩
    | error e' =>
      have hnext := ih (h.more hrun)
      have hcount : k + 1 + remaining = k + (remaining + 1) := by omega
      have hloop : loop run (remaining + 1) (first + k) k e s =
          loop run remaining (first + (k + 1)) (k + 1) e' s' := by
        rw [loop, hrun, Nat.add_assoc]
      rw [hcount] at hnext
      rw [hloop]
      exact hnext

/-- An invariant of failed attempts holds of what they leave. -/
theorem Failed.invariant (Inv : Nat → ε → σ → Prop) (hstart : Inv 0 e₀ s₀)
    (hstep : ∀ k e s e' s', Inv k e s → run (first + k) s = (.error e', s') → Inv (k + 1) e' s')
    {k : Nat} {e : ε} {s : σ} (h : Failed run first e₀ s₀ k e s) : Inv k e s := by
  induction h with
  | none => exact hstart
  | more _ hrun ih => exact hstep _ _ _ _ _ ih hrun

/-- Each of the failed attempts failed on its own. -/
theorem Failed.each {k : Nat} {e : ε} {s : σ} (h : Failed run first e₀ s₀ k e s) {j : Nat}
    (hj : j < k) : ∃ e' s' s'', run (first + j) s' = (.error e', s'') := by
  induction h with
  | none => omega
  | @more k e e' s s' _ hrun ih =>
    by_cases hlast : j = k
    · exact ⟨e', s, s', hlast ▸ hrun⟩
    · exact ih (by omega)

end Retry

end Base
