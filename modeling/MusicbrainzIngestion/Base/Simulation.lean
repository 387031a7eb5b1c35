import MusicbrainzIngestion.Base.Machine

/-! Forward simulation between two machines. A step of the lower machine is answered by any
number of steps of the upper one, and the relation may speak of everything both have done
so far; so what the upper machine never does, the lower one never does either. -/

namespace Base

universe u v w x

namespace Machine

/-- Each machine is given with the labels it has taken so far, `R` relates the two. -/
structure Simulates {σ : Type u} {α : Type v} {τ : Type w} {β : Type x} (m : Machine σ α)
    (n : Machine τ β) (R : List α → σ → List β → τ → Prop) : Prop where
  init : ∀ s, m.init s → ∃ t, n.init t ∧ R [] s [] t
  step : ∀ ls s ms t l s', R ls s ms t → m.step s l = some s' →
    ∃ ns t', n.run t ns = some t' ∧ R (ls ++ [l]) s' (ms ++ ns) t'

variable {σ : Type u} {α : Type v} {τ : Type w} {β : Type x} {m : Machine σ α} {n : Machine τ β}
  {R : List α → σ → List β → τ → Prop}

/-- A run goes on, and the run that answers it goes on with it. -/
theorem Simulates.run_from (h : m.Simulates n R) {ls more : List α} {s s' : σ} {ms : List β} {t : τ}
    (hr : R ls s ms t) (hrun : m.run s more = some s') :
    ∃ ns t', n.run t ns = some t' ∧ R (ls ++ more) s' (ms ++ ns) t' := by
  induction more generalizing ls s ms t with
  | nil =>
    cases hrun
    exact ⟨[], t, rfl, by rw [List.append_nil, List.append_nil]; exact hr⟩
  | cons l more ih =>
    obtain ⟨mid, hstep, hrest⟩ := m.run_cons_some hrun
    obtain ⟨ns, u, hns, hu⟩ := h.step ls s ms t l mid hr hstep
    obtain ⟨ns', t', hns', ht'⟩ := ih hu hrest
    refine ⟨ns ++ ns', t', n.run_trans hns hns', ?_⟩
    rw [List.append_assoc, List.append_assoc] at ht'
    exact ht'

theorem Simulates.run (h : m.Simulates n R) {s₀ s : σ} {ls : List α} (hinit : m.init s₀)
    (hrun : m.run s₀ ls = some s) :
    ∃ t₀ ms t, (n.init t₀ ∧ R [] s₀ [] t₀) ∧ n.run t₀ ms = some t ∧ R ls s ms t := by
  obtain ⟨t₀, ht₀, hr⟩ := h.init s₀ hinit
  obtain ⟨ms, t, hms, ht⟩ := h.run_from hr hrun
  exact ⟨t₀, ms, t, ⟨ht₀, hr⟩, hms, ht⟩

end Machine

end Base
