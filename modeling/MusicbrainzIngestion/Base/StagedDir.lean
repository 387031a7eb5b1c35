import MusicbrainzIngestion.Base.DurableDir

/-! What the readers of a staged directory see of its writer. A writer creates, writes,
syncs and removes temporary files, and publishes one under a final name that is free. A
reader then never sees a published file change, and a power loss leaves each published file
as it was or takes it away. -/

namespace Base

universe u v w

namespace Volume

variable {ν : Type u} {β : Type v} [DecidableEq ν] {vol : Volume ν β} {name : ν}

/-- The name leads nowhere, however a power loss comes. -/
def Absent (vol : Volume ν β) (name : ν) : Prop := ∀ d, vol.Outcome d → d name = none

theorem Absent.push (h : vol.Absent name) {update : Update ν}
    (hu : ∀ d : ν → Option Nat, update.apply d name = d name) : (vol.push update).Absent name := by
  intro d hd
  rcases outcome_push hd with hd | ⟨d', hd', rfl⟩
  · exact h d hd
  · rw [hu]
    exact h d' hd'

theorem Absent.powerLoss (h : vol.Absent name) {kept : List (Update ν)}
    (hk : kept.Sublist vol.pending) (garbled : Nat → β) :
    (vol.powerLoss kept garbled).Absent name := by
  intro d hd
  rw [outcome_powerLoss hd]
  exact h _ ⟨kept, hk, rfl⟩

theorem absent_emptied (vol : Volume ν β) (name : ν) : vol.emptied.Absent name := by
  intro d hd
  rw [outcome_of_settled rfl hd]
  rfl

theorem visible_powerLoss (vol : Volume ν β) (kept : List (Update ν)) (garbled : Nat → β) :
    (vol.powerLoss kept garbled).visible = vol.after kept := rfl

end Volume

namespace Staging

variable {κ : Type w} {ν : Type u} {β : Type v} [DecidableEq ν]

/-- The steps of a writer. -/
inductive Work (names : Staging κ ν) (vol : Volume ν β) : Volume ν β → Prop where
  | same : Work names vol vol
  | create (k : κ) (empty : β) : Work names vol (vol.create (names.tmp k) empty)
  | write {k : κ} {i : Nat} (hv : vol.visible (names.tmp k) = some i) (data : β) :
    Work names vol (vol.write i data)
  | fsync (i : Nat) : Work names vol (vol.fsync i)
  | remove (k : κ) : Work names vol (vol.remove (names.tmp k))
  | publish {k : κ} {i : Nat} (hv : vol.visible (names.tmp k) = some i)
    (hfree : vol.visible (names.final k) = none) :
    Work names vol (vol.rename (names.tmp k) (names.final k))
  | fsyncDir : Work names vol vol.fsyncDir

/-- What a reader finds. -/
def content (names : Staging κ ν) (vol : Volume ν β) (k : κ) : Option β :=
  (vol.visible (names.final k)).map vol.data

/-- No power loss puts another file under a final name than the one that is found there. -/
def Steady (names : Staging κ ν) (vol : Volume ν β) : Prop :=
  ∀ d, vol.Outcome d → ∀ k i, d (names.final k) = some i → vol.visible (names.final k) = some i

variable {names : Staging κ ν} {Good : κ → β → Prop} {vol vol' : Volume ν β} {k : κ} {b : β}

theorem content_eq_some {i : Nat} (hv : vol.visible (names.final k) = some i) :
    names.content vol k = some (vol.data i) := by
  rw [content, hv, Option.map_some]

/-- The file stays under its name, and nobody writes to it. -/
theorem content_kept_of (h : names.content vol k = some b)
    (hv : ∀ i, vol.visible (names.final k) = some i →
      vol'.visible (names.final k) = some i ∧ vol'.data i = vol.data i) :
    names.content vol' k = some b := by
  obtain ⟨i, hi, rfl⟩ := Option.map_eq_some_iff.mp h
  obtain ⟨hi', hdata⟩ := hv i hi
  rw [content_eq_some hi', hdata]

theorem visible_create_final (names : Staging κ ν) (vol : Volume ν β) (j k : κ) (empty : β) :
    (vol.create (names.tmp j) empty).visible (names.final k) = vol.visible (names.final k) := by
  rw [Volume.visible_create, Function.update_of_ne (names.disjoint j k).symm]

theorem visible_remove_final (names : Staging κ ν) (vol : Volume ν β) (j k : κ) :
    (vol.remove (names.tmp j)).visible (names.final k) = vol.visible (names.final k) := by
  rw [Volume.remove, Volume.visible_push, Update.apply,
    Function.update_of_ne (names.disjoint j k).symm]

theorem visible_publish {j : κ} {i : Nat} (hv : vol.visible (names.tmp j) = some i) (hne : k ≠ j) :
    (vol.rename (names.tmp j) (names.final j)).visible (names.final k) =
      vol.visible (names.final k) := by
  rw [Volume.visible_rename hv, Function.update_of_ne fun heq => hne (names.final_injective heq),
    Function.update_of_ne (names.disjoint j k).symm]

theorem data_create_of_ne {j : Nat} {name : ν} {empty : β} (hne : j ≠ vol.opened name) :
    (vol.create name empty).data j = vol.data j := by
  unfold Volume.opened at hne
  unfold Volume.create
  cases hv : vol.visible name with
  | some i =>
    rw [hv] at hne
    exact Function.update_of_ne hne _ _
  | none =>
    rw [hv] at hne
    exact Function.update_of_ne hne _ _

/-- A temporary file is opened, never a published one. -/
theorem Published.opened_ne (h : Published names Good vol) {j : κ} {i : Nat}
    (hi : vol.visible (names.final k) = some i) : i ≠ vol.opened (names.tmp j) := by
  obtain ⟨hn, -, -⟩ := h.good _ vol.outcome_visible k i hi
  unfold Volume.opened
  cases hv : vol.visible (names.tmp j) with
  | none => exact Nat.ne_of_lt hn
  | some i' =>
    rintro rfl
    exact h.writable j _ hv _ vol.outcome_visible k hi

theorem Work.content_kept (hw : Work names vol vol') (h : Published names Good vol)
    (hc : names.content vol k = some b) : names.content vol' k = some b := by
  refine content_kept_of hc fun i hi => ?_
  cases hw with
  | same => exact ⟨hi, rfl⟩
  | create j empty =>
    exact ⟨(visible_create_final names vol j k empty).trans hi, data_create_of_ne (h.opened_ne hi)⟩
  | @write j i' hv data =>
    have hne : i ≠ i' := by
      rintro rfl
      exact h.writable j i hv _ vol.outcome_visible k hi
    exact ⟨hi, Function.update_of_ne hne _ _⟩
  | fsync => exact ⟨hi, rfl⟩
  | remove j => exact ⟨(visible_remove_final names vol j k).trans hi, rfl⟩
  | @publish j i' hv hfree =>
    have hne : k ≠ j := by
      rintro rfl
      rw [hi] at hfree
      cases hfree
    refine ⟨(visible_publish hv hne).trans hi, ?_⟩
    rw [Volume.rename, hv]
    rfl
  | fsyncDir => exact ⟨hi, rfl⟩

/-- A change that no final name is part of. -/
theorem Steady.push (h : Steady names vol) {update : Update ν}
    (hu : ∀ (d : ν → Option Nat) k, update.apply d (names.final k) = d (names.final k)) :
    Steady names (vol.push update) := by
  intro d hd k i hi
  rw [Volume.visible_push, hu]
  rcases Volume.outcome_push hd with hd | ⟨d', hd', rfl⟩
  · exact h d hd k i hi
  · rw [hu] at hi
    exact h d' hd' k i hi

theorem Steady.create (h : Steady names vol) (j : κ) (empty : β) :
    Steady names (vol.create (names.tmp j) empty) := by
  unfold Volume.create
  cases vol.visible (names.tmp j) with
  | some i => exact h
  | none => exact h.push fun d k => Function.update_of_ne (names.disjoint j k).symm _ _

/-- What was free before holds nothing but the published file. -/
theorem Steady.publish (h : Steady names vol) {j : κ} {i : Nat}
    (hv : vol.visible (names.tmp j) = some i) (hfree : vol.visible (names.final j) = none) :
    Steady names (vol.rename (names.tmp j) (names.final j)) := by
  have hpush : vol.rename (names.tmp j) (names.final j) =
      vol.push (.rename (names.tmp j) (names.final j) i) := by
    rw [Volume.rename, hv]
  have hother : ∀ (d : ν → Option Nat) k, k ≠ j →
      (Update.rename (names.tmp j) (names.final j) i).apply d (names.final k) =
        d (names.final k) := by
    intro d k hne
    rw [Update.apply, Function.update_of_ne fun heq => hne (names.final_injective heq),
      Function.update_of_ne (names.disjoint j k).symm]
  intro d hd k i' hi'
  rw [hpush] at hd
  by_cases heq : k = j
  · subst heq
    rw [Volume.visible_rename hv, Function.update_self]
    rcases Volume.outcome_push hd with hd | ⟨d', hd', rfl⟩
    · have hseen := h d hd k i' hi'
      rw [hfree] at hseen
      cases hseen
    · rw [Update.apply, Function.update_self] at hi'
      exact hi'
  · rw [visible_publish hv heq]
    rcases Volume.outcome_push hd with hd | ⟨d', hd', rfl⟩
    · exact h d hd k i' hi'
    · rw [hother d' k heq] at hi'
      exact h d' hd' k i' hi'

theorem Work.steady (hw : Work names vol vol') (h : Steady names vol) : Steady names vol' := by
  cases hw with
  | same | write | fsync => exact h
  | create j empty => exact h.create j empty
  | remove j => exact h.push fun d k => Function.update_of_ne (names.disjoint j k).symm _ _
  | publish hv hfree => exact h.publish hv hfree
  | fsyncDir =>
    intro d hd k i hi
    rw [Volume.outcome_fsyncDir hd] at hi
    exact hi

/-- A name that is neither temporary nor final stays absent. -/
theorem Work.absent (hw : Work names vol vol') {name : ν} (htmp : ∀ k, name ≠ names.tmp k)
    (hfinal : ∀ k, name ≠ names.final k) (h : vol.Absent name) : vol'.Absent name := by
  cases hw with
  | same | write | fsync => exact h
  | create j empty =>
    unfold Volume.create
    cases vol.visible (names.tmp j) with
    | some i => exact h
    | none => exact h.push fun d => Function.update_of_ne (htmp j) _ _
  | remove j => exact h.push fun d => Function.update_of_ne (htmp j) _ _
  | @publish j i hv hfree =>
    rw [Volume.rename, hv]
    refine h.push fun d => ?_
    rw [Update.apply, Function.update_of_ne (hfinal j), Function.update_of_ne (htmp j)]
  | fsyncDir =>
    intro d hd
    rw [Volume.outcome_fsyncDir hd]
    exact h _ vol.outcome_visible

theorem Steady.powerLoss {kept : List (Update ν)} (garbled : Nat → β) :
    Steady names (vol.powerLoss kept garbled) := by
  intro d hd k i hi
  rw [Volume.outcome_powerLoss hd] at hi
  exact hi

theorem steady_emptied : Steady names vol.emptied := by
  intro d hd k i hi
  rw [Volume.absent_emptied vol _ d hd] at hi
  cases hi

/-- Published files were synced: a power loss takes one away or leaves it as it was. -/
theorem content_powerLoss (h : Published names Good vol) (hs : Steady names vol)
    {kept : List (Update ν)} (hk : kept.Sublist vol.pending) (garbled : Nat → β) (k : κ) :
    names.content (vol.powerLoss kept garbled) k = none ∨
      names.content (vol.powerLoss kept garbled) k = names.content vol k := by
  have hkept : vol.Outcome (vol.after kept) := ⟨kept, hk, rfl⟩
  cases hv : vol.after kept (names.final k) with
  | none =>
    left
    rw [content, Volume.visible_powerLoss, hv, Option.map_none]
  | some i =>
    right
    obtain ⟨-, hsynced, -⟩ := h.good _ hkept k i hv
    rw [content_eq_some (hs _ hkept k i hv), content, Volume.visible_powerLoss, hv, Option.map_some]
    simp only [Volume.powerLoss, hsynced, if_true]

end Staging

end Base
