import MusicbrainzIngestion.Base.Machine

/-! How much work a machine does. Some steps count as work, and each of them uses up
some of what is left; so no run works longer than what was left when it began. When
moreover work is never stuck before the end, whatever the environment answers, then
every run can be carried to its end. -/

namespace Base.Machine

universe u v w

variable {σ : Type u} {α : Type v} (m : Machine σ α)

/-- The steps of a run that count as work. -/
def work (works : σ → α → Bool) (s : σ) : List α → Nat
  | [] => 0
  | l :: ls => (if works s l then 1 else 0) +
      match m.step s l with
      | some t => work works t ls
      | none => 0

/-- Where the label says what is work, a run works as often as such labels are in it. -/
theorem work_of_labels (p : α → Bool) {ls : List α} {s t : σ} (hrun : m.run s ls = some t) :
    m.work (fun _ l => p l) s ls = ls.countP p := by
  induction ls generalizing s with
  | nil => rfl
  | cons l ls ih =>
    obtain ⟨mid, hl, hrest⟩ := m.run_cons_some hrun
    simp only [work, hl, ih hrest]
    rw [List.countP_cons, Nat.add_comm]

/-- In the states of `I`, a step of work uses up some of what is left, and no other step
adds to it. Only the steps whose label is `ok` are looked at. -/
structure CountsDown (I : σ → Prop) (ok : α → Prop) (works : σ → α → Bool) (left : σ → Nat) :
    Prop where
  keeps : ∀ s l t, ok l → I s → m.step s l = some t → I t
  works_lt : ∀ s l t, ok l → I s → m.step s l = some t → works s l = true → left t < left s
  rests_le : ∀ s l t, ok l → I s → m.step s l = some t → left t ≤ left s

variable {β : Type w}

/-- In the states of `I` that are not final, some step of work is open whatever the
environment answers. -/
def NeverStuck (I final : σ → Prop) (ok : α → Prop) (works : σ → α → Bool) (good : β → Prop)
    (offers : β → σ → List α) : Prop :=
  ∀ s b, good b → I s → ¬ final s →
    ∃ l ∈ offers b s, ok l ∧ works s l = true ∧ (m.step s l).isSome

/-- Every step of the run is one that the environment's next answer offers. -/
def Follows (offers : β → σ → List α) (answers : Nat → β) (s : σ) : List α → Prop
  | [] => True
  | l :: ls => l ∈ offers (answers 0) s ∧
      ∀ t, m.step s l = some t → Follows offers (fun i => answers (i + 1)) t ls

namespace CountsDown

variable {m} {I final : σ → Prop} {ok : α → Prop} {works : σ → α → Bool} {left : σ → Nat}

theorem run_keeps (h : m.CountsDown I ok works left) {ls : List α} {s t : σ}
    (hok : ∀ l ∈ ls, ok l) (hs : I s) (hrun : m.run s ls = some t) : I t :=
  m.run_preserves (c := fun _ l => ok l) (fun s l t hl => h.keeps s l t hl)
    (m.along_of_labels hok s) hs hrun

theorem work_le (h : m.CountsDown I ok works left) {ls : List α} {s t : σ}
    (hok : ∀ l ∈ ls, ok l) (hs : I s) (hrun : m.run s ls = some t) :
    m.work works s ls + left t ≤ left s := by
  induction ls generalizing s with
  | nil =>
    cases hrun
    simp [work]
  | cons l ls ih =>
    obtain ⟨mid, hl, hrest⟩ := m.run_cons_some hrun
    have hfirst : ok l := hok l List.mem_cons_self
    have hmid := ih (fun l' hl' => hok l' (List.mem_cons_of_mem _ hl'))
      (h.keeps s l mid hfirst hs hl) hrest
    simp only [work, hl]
    by_cases hw : works s l = true
    · have hlt := h.works_lt s l mid hfirst hs hl hw
      rw [if_pos hw]
      omega
    · have hle := h.rests_le s l mid hfirst hs hl
      rw [if_neg hw]
      omega

/-- A machine that counts down and is never stuck can be carried to a final state along any
sequence of answers. -/
theorem completes {offers : β → σ → List α} {good : β → Prop}
    (h : m.CountsDown I ok works left) (hgo : m.NeverStuck I final ok works good offers)
    {answers : Nat → β} (hgood : ∀ i, good (answers i)) {s : σ} (hs : I s) :
    ∃ ls t, m.run s ls = some t ∧ final t ∧ (∀ l ∈ ls, ok l) ∧
      ls.length + left t ≤ left s ∧ m.Follows offers answers s ls := by
  induction hn : left s using Nat.strongRecOn generalizing s answers with
  | _ n ih =>
    by_cases hf : final s
    · exact ⟨[], s, rfl, hf, by simp, by simp [hn], trivial⟩
    · obtain ⟨l, hl, hok, hw, hsome⟩ := hgo s (answers 0) (hgood 0) hs hf
      obtain ⟨mid, hmid⟩ := Option.isSome_iff_exists.mp hsome
      have hlt := h.works_lt s l mid hok hs hmid hw
      obtain ⟨ls, t, hrun, hft, hall, hlen, hfollows⟩ :=
        ih (left mid) (hn ▸ hlt) (fun i => hgood (i + 1)) (h.keeps s l mid hok hs hmid) rfl
      refine ⟨l :: ls, t, ?_, hft, ?_, ?_, hl, ?_⟩
      · rw [run_cons, hmid]
        exact hrun
      · exact List.forall_mem_cons.mpr ⟨hok, hall⟩
      · rw [List.length_cons]
        omega
      · intro u hu
        rw [hmid] at hu
        cases hu
        exact hfollows

end CountsDown

end Base.Machine
