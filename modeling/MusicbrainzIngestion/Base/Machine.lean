import Mathlib.Data.List.Basic

/-! Machines with a partial, executable step. A label carries every choice the
environment makes, so a run is a list of labels and replaying it is a fold.
The rules below package the inductions over runs: what a step preserves, under
a condition on the states and labels met along the way, a run preserves. -/

namespace Base

universe u v

/-- `step s l = none` says that label `l` is not enabled in `s`. -/
structure Machine (σ : Type u) (α : Type v) where
  init : σ → Prop
  step : σ → α → Option σ

namespace Machine

variable {σ : Type u} {α : Type v} (m : Machine σ α)

def run (s : σ) : List α → Option σ
  | [] => some s
  | l :: ls => (m.step s l).bind fun t => run t ls

@[simp] theorem run_nil (s : σ) : m.run s [] = some s := rfl

@[simp] theorem run_cons (s : σ) (l : α) (ls : List α) :
    m.run s (l :: ls) = (m.step s l).bind fun t => m.run t ls := rfl

theorem run_cons_some {s t : σ} {l : α} {ls : List α} (h : m.run s (l :: ls) = some t) :
    ∃ mid, m.step s l = some mid ∧ m.run mid ls = some t :=
  Option.bind_eq_some_iff.mp h

theorem run_append (s : σ) (ls ms : List α) :
    m.run s (ls ++ ms) = (m.run s ls).bind fun t => m.run t ms := by
  induction ls generalizing s with
  | nil => rfl
  | cons l ls ih =>
    simp only [List.cons_append, run_cons, Option.bind_assoc]
    exact congrArg _ (funext fun t => ih t)

theorem run_append_some {s t : σ} {ls ms : List α} (h : m.run s (ls ++ ms) = some t) :
    ∃ mid, m.run s ls = some mid ∧ m.run mid ms = some t := by
  rw [run_append] at h
  exact Option.bind_eq_some_iff.mp h

theorem run_trans {s t u : σ} {ls ms : List α} (h : m.run s ls = some t)
    (h' : m.run t ms = some u) : m.run s (ls ++ ms) = some u := by
  rw [run_append, h]
  exact h'

theorem run_snoc {s t u : σ} {ls : List α} {l : α} (h : m.run s ls = some t)
    (h' : m.step t l = some u) : m.run s (ls ++ [l]) = some u :=
  m.run_trans h (by simp [h'])

theorem run_single {s t : σ} {l : α} (h : m.step s l = some t) : m.run s [l] = some t :=
  m.run_snoc (m.run_nil s) h

/-- Every step of the run from `s` meets `c` in the state it is taken from. -/
def Along (c : σ → α → Prop) (s : σ) : List α → Prop
  | [] => True
  | l :: ls => c s l ∧ ∀ t, m.step s l = some t → Along c t ls

theorem along_of_labels {ok : α → Prop} {ls : List α} (h : ∀ l ∈ ls, ok l) (s : σ) :
    m.Along (fun _ l => ok l) s ls := by
  induction ls generalizing s with
  | nil => trivial
  | cons l ls ih =>
    exact ⟨h l List.mem_cons_self, fun t _ => ih (fun l' hl => h l' (List.mem_cons_of_mem _ hl)) t⟩

theorem along_of_forall {c : σ → α → Prop} (h : ∀ s l, c s l) (s : σ) (ls : List α) :
    m.Along c s ls := by
  induction ls generalizing s with
  | nil => trivial
  | cons l ls ih => exact ⟨h s l, fun t _ => ih t⟩

/-- The condition is checked on the run itself. -/
def checks (c : σ → α → Bool) (s : σ) : List α → Bool
  | [] => true
  | l :: ls => c s l && (m.step s l).all fun t => checks c t ls

theorem along_of_checks {c : σ → α → Bool} {s : σ} {ls : List α} (h : m.checks c s ls = true) :
    m.Along (fun s l => c s l = true) s ls := by
  induction ls generalizing s with
  | nil => trivial
  | cons l ls ih =>
    obtain ⟨hc, hrest⟩ := Bool.and_eq_true_iff.mp h
    exact ⟨hc, fun t ht => ih ((Option.all_eq_true _ _).mp hrest t ht)⟩

theorem along_append {c : σ → α → Prop} {s : σ} {ls ms : List α} :
    m.Along c s (ls ++ ms) ↔
      m.Along c s ls ∧ ∀ t, m.run s ls = some t → m.Along c t ms := by
  induction ls generalizing s with
  | nil => simp [Along]
  | cons l ls ih =>
    simp only [List.cons_append, Along, ih, run_cons, Option.bind_eq_some_iff]
    constructor
    · rintro ⟨hc, h⟩
      exact ⟨⟨hc, fun t ht => (h t ht).1⟩, fun u ⟨t, ht, hu⟩ => (h t ht).2 u hu⟩
    · rintro ⟨⟨hc, h⟩, h'⟩
      exact ⟨hc, fun t ht => ⟨h t ht, fun u hu => h' u ⟨t, ht, hu⟩⟩⟩

theorem Along.imp {m : Machine σ α} {c d : σ → α → Prop} {s : σ} {ls : List α} (h : m.Along c s ls)
    (hcd : ∀ s l, c s l → d s l) : m.Along d s ls := by
  induction ls generalizing s with
  | nil => trivial
  | cons l ls ih => exact ⟨hcd s l h.1, fun t ht => ih (h.2 t ht)⟩

/-- What each step meeting `c` preserves, holds wherever a run of such steps takes one. -/
theorem Along.invariant {m : Machine σ α} {P : σ → Prop} {c : σ → α → Prop} {s : σ} {ls : List α}
    (h : m.Along c s ls) (hstep : ∀ s l t, c s l → P s → m.step s l = some t → P t) (hs : P s) :
    m.Along (fun s l => P s ∧ c s l) s ls := by
  induction ls generalizing s with
  | nil => trivial
  | cons l ls ih =>
    exact ⟨⟨hs, h.1⟩, fun t ht => ih (h.2 t ht) (hstep s l t h.1 hs ht)⟩

/-- What each step meeting `c` preserves, a run all of whose steps meet `c` preserves. -/
theorem run_preserves {P : σ → Prop} {c : σ → α → Prop}
    (hstep : ∀ s l t, c s l → P s → m.step s l = some t → P t) {ls : List α} {s t : σ}
    (hc : m.Along c s ls) (hs : P s) (h : m.run s ls = some t) : P t := by
  induction ls generalizing s with
  | nil => cases h; exact hs
  | cons l ls ih =>
    obtain ⟨mid, hl, hrest⟩ := m.run_cons_some h
    exact ih (hc.2 mid hl) (hstep s l mid hc.1 hs hl) hrest

/-- If the steps meeting `c` preserve an invariant that implies `P`, and any other step is
enabled and breaks `P`, then `P` holds at every point of a run exactly when its steps meet `c`. -/
theorem forall_prefix_iff_along {P I : σ → Prop} {c : σ → α → Prop} (hI : ∀ s, I s → P s)
    (hstep : ∀ s l t, c s l → I s → m.step s l = some t → I t)
    (hbreak : ∀ s l, ¬ c s l → I s → ∃ t, m.step s l = some t ∧ ¬ P t) {s : σ} (hs : I s)
    (ls : List α) :
    (∀ pre post t, ls = pre ++ post → m.run s pre = some t → P t) ↔ m.Along c s ls := by
  constructor
  · intro h
    induction ls generalizing s with
    | nil => trivial
    | cons l ls ih =>
      have hc : c s l := by
        by_contra hc
        obtain ⟨t, ht, hP⟩ := hbreak s l hc hs
        exact hP (h [l] ls t rfl (m.run_single ht))
      refine ⟨hc, fun t ht => ih (hstep s l t hc hs ht) fun pre post u hls hrun => ?_⟩
      exact h (l :: pre) post u (by rw [hls]; rfl) (by rw [run_cons, ht]; exact hrun)
  · intro h pre post t hls hrun
    subst hls
    exact hI t (m.run_preserves hstep (m.along_append.mp h).1 hs hrun)

/-- The first step that fails `c`, with the run up to it. -/
theorem exists_of_not_along {c : σ → α → Prop} [∀ s l, Decidable (c s l)] {ls : List α} {s t : σ}
    (h : m.run s ls = some t) (hc : ¬ m.Along c s ls) :
    ∃ pre l post mid, ls = pre ++ l :: post ∧ m.run s pre = some mid ∧
      m.Along c s pre ∧ ¬ c mid l := by
  induction ls generalizing s with
  | nil => exact absurd trivial hc
  | cons l ls ih =>
    by_cases hl : c s l
    · obtain ⟨mid, hm, hrest⟩ := m.run_cons_some h
      have hmid : ¬ m.Along c mid ls := fun ha =>
        hc ⟨hl, fun t ht => by rw [hm] at ht; cases ht; exact ha⟩
      obtain ⟨pre, l', post, mid', rfl, hpre, hal, hbad⟩ := ih hrest hmid
      refine ⟨l :: pre, l', post, mid', rfl, by simp [hm, hpre], ⟨hl, fun t ht => ?_⟩, hbad⟩
      rw [hm] at ht
      cases ht
      exact hal
    · exact ⟨[], l, ls, s, rfl, rfl, trivial, hl⟩

/-! ## What is seen of a run -/

section Observed

variable {β : Type*} (see : σ → α → σ → List β)

/-- What `see` makes of the steps of a run, in order. -/
def observed (s : σ) : List α → List β
  | [] => []
  | l :: ls => match m.step s l with
    | some t => see s l t ++ observed t ls
    | none => []

theorem observed_cons_some {s t : σ} {l : α} (h : m.step s l = some t) (ls : List α) :
    m.observed see s (l :: ls) = see s l t ++ m.observed see t ls := by
  rw [observed, h]

/-- An invariant of the state and of what was seen so far. -/
theorem run_observed {P : σ → List β → Prop} {ok : α → Prop}
    (hstep : ∀ s l t h, ok l → P s h → m.step s l = some t → P t (h ++ see s l t)) {ls : List α}
    {s t : σ} {h : List β} (hok : ∀ l ∈ ls, ok l) (hs : P s h) (hrun : m.run s ls = some t) :
    P t (h ++ m.observed see s ls) := by
  induction ls generalizing s h with
  | nil =>
    cases hrun
    rw [observed, List.append_nil]
    exact hs
  | cons l ls ih =>
    obtain ⟨mid, hl, hrest⟩ := m.run_cons_some hrun
    rw [m.observed_cons_some see hl, ← List.append_assoc]
    exact ih (fun l' hl' => hok l' (List.mem_cons_of_mem _ hl'))
      (hstep s l mid h (hok l List.mem_cons_self) hs hl) hrest

end Observed

/-- States that runs of labels satisfying `ok` end in. -/
def ReachableBy (ok : α → Prop) (s : σ) : Prop :=
  ∃ s₀ ls, m.init s₀ ∧ (∀ l ∈ ls, ok l) ∧ m.run s₀ ls = some s

def Reachable (s : σ) : Prop := m.ReachableBy (fun _ => True) s

theorem ReachableBy.invariant {m : Machine σ α} {ok : α → Prop} {P : σ → Prop}
    (hinit : ∀ s, m.init s → P s)
    (hstep : ∀ s l t, ok l → P s → m.step s l = some t → P t) {s : σ}
    (h : m.ReachableBy ok s) : P s := by
  obtain ⟨s₀, ls, h₀, hok, hrun⟩ := h
  exact m.run_preserves (c := fun _ l => ok l) (fun s l t hl => hstep s l t hl)
    (m.along_of_labels hok s₀) (hinit s₀ h₀) hrun

theorem ReachableBy.step {m : Machine σ α} {ok : α → Prop} {s t : σ} {l : α}
    (h : m.ReachableBy ok s) (hl : ok l) (hs : m.step s l = some t) : m.ReachableBy ok t := by
  obtain ⟨s₀, ls, h₀, hok, hrun⟩ := h
  refine ⟨s₀, ls ++ [l], h₀, ?_, m.run_snoc hrun hs⟩
  intro l' hl'
  rcases List.mem_append.mp hl' with h' | h'
  · exact hok l' h'
  · rw [List.mem_singleton.mp h']
    exact hl

theorem Reachable.run {m : Machine σ α} {s t : σ} (h : m.Reachable s) {ls : List α}
    (hrun : m.run s ls = some t) : m.Reachable t := by
  obtain ⟨s₀, ls₀, h₀, -, hrun₀⟩ := h
  exact ⟨s₀, ls₀ ++ ls, h₀, fun _ _ => trivial, m.run_trans hrun₀ hrun⟩

end Machine

end Base
