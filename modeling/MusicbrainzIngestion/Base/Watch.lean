import MusicbrainzIngestion.Base.Machine

/-! A machine that is watched. What the watcher keeps is brought up to date by every
step and has no say in any, so a watched machine has the runs of the plain one; and
what the watcher knows is proved with all that is known of the plain machine. -/

namespace Base.Machine

universe u v w

variable {σ : Type u} {α : Type v} {γ : Type w} (m : Machine σ α)

/-- Beside the state goes what `see` makes of each step, from `start` on. -/
def watched (see : σ → α → σ → γ → γ) (start : σ → γ) : Machine (σ × γ) α where
  init p := m.init p.1 ∧ p.2 = start p.1
  step p l := (m.step p.1 l).map fun t => (t, see p.1 l t p.2)

variable {m} {see : σ → α → σ → γ → γ} {start : σ → γ}

theorem watched_step {p q : σ × γ} {l : α} :
    (m.watched see start).step p l = some q ↔
      m.step p.1 l = some q.1 ∧ see p.1 l q.1 p.2 = q.2 := by
  rw [watched, Option.map_eq_some_iff]
  constructor
  · rintro ⟨t, ht, rfl⟩
    exact ⟨ht, rfl⟩
  · rintro ⟨ht, hsee⟩
    exact ⟨q.1, ht, Prod.ext rfl hsee⟩

theorem watched_of_run {ls : List α} {s t : σ} (h : m.run s ls = some t) (g : γ) :
    ∃ g', (m.watched see start).run (s, g) ls = some (t, g') := by
  induction ls generalizing s g with
  | nil =>
    cases h
    exact ⟨g, rfl⟩
  | cons l ls ih =>
    obtain ⟨mid, hl, hrest⟩ := m.run_cons_some h
    obtain ⟨g', hg'⟩ := ih hrest (see s l mid g)
    have hfirst : (m.watched see start).step (s, g) l = some (mid, see s l mid g) :=
      watched_step.mpr ⟨hl, rfl⟩
    exact ⟨g', by rw [run_cons, hfirst]; exact hg'⟩

theorem Reachable.watched {s : σ} (h : m.Reachable s) :
    ∃ g, (m.watched see start).Reachable (s, g) := by
  obtain ⟨s₀, ls, hinit, hok, hrun⟩ := h
  obtain ⟨g, hg⟩ : ∃ g, (m.watched see start).run (s₀, start s₀) ls = some (s, g) :=
    watched_of_run hrun (start s₀)
  exact ⟨g, (s₀, start s₀), ls, ⟨hinit, rfl⟩, hok, hg⟩

end Base.Machine
