import Mathlib.Data.List.Basic
import Mathlib.Logic.Function.Basic

/-! A directory that survives power loss. Data is durable once its inode was synced;
names are durable once the directory was synced, and until then a power loss may keep
any of the changes made to them and drop the others. On top of it the protocol by which
data is published under a name: write a temporary sibling, sync it, rename it. -/

namespace Base

universe u v w

/-- A change of the names. A rename replaces its target by the inode in one step. -/
inductive Update (ν : Type u) where
  | link (name : ν) (inode : Nat)
  | unlink (name : ν)
  | rename (source target : ν) (inode : Nat)
deriving DecidableEq

/-- Inodes and names; `durable` are the names that a power loss leaves at least, `pending` the
changes made since, oldest first. -/
structure Volume (ν : Type u) (β : Type v) where
  data : Nat → β
  synced : Nat → Bool
  next : Nat
  durable : ν → Option Nat
  pending : List (Update ν)

namespace Update

variable {ν : Type u} [DecidableEq ν]

def apply (names : ν → Option Nat) : Update ν → ν → Option Nat
  | link name inode => Function.update names name (some inode)
  | unlink name => Function.update names name none
  | rename source target inode =>
    Function.update (Function.update names source none) target (some inode)

end Update

namespace Volume

variable {ν : Type u} {β : Type v} [DecidableEq ν]

/-- The names after some of the pending changes. -/
def after (vol : Volume ν β) (updates : List (Update ν)) : ν → Option Nat :=
  updates.foldl Update.apply vol.durable

/-- The names as a running system sees them. -/
def visible (vol : Volume ν β) : ν → Option Nat := vol.after vol.pending

/-- The names as a power loss may leave them. -/
def Outcome (vol : Volume ν β) (names : ν → Option Nat) : Prop :=
  ∃ updates, updates.Sublist vol.pending ∧ names = vol.after updates

/-! ## Operations -/

def write (vol : Volume ν β) (inode : Nat) (data : β) : Volume ν β :=
  { vol with
    data := Function.update vol.data inode data
    synced := Function.update vol.synced inode false }

def push (vol : Volume ν β) (update : Update ν) : Volume ν β :=
  { vol with pending := vol.pending ++ [update] }

/-- The inode that creating a name opens. -/
def opened (vol : Volume ν β) (name : ν) : Nat := (vol.visible name).getD vol.next

/-- Create or truncate. -/
def create (vol : Volume ν β) (name : ν) (empty : β) : Volume ν β :=
  match vol.visible name with
  | some inode => vol.write inode empty
  | none => ({ vol.write vol.next empty with next := vol.next + 1 }).push (.link name vol.next)

def fsync (vol : Volume ν β) (inode : Nat) : Volume ν β :=
  { vol with synced := Function.update vol.synced inode true }

def rename (vol : Volume ν β) (source target : ν) : Volume ν β :=
  match vol.visible source with
  | some inode => vol.push (.rename source target inode)
  | none => vol

def remove (vol : Volume ν β) (name : ν) : Volume ν β := vol.push (.unlink name)

def fsyncDir (vol : Volume ν β) : Volume ν β :=
  { vol with durable := vol.visible, pending := [] }

/-- What was not synced may come back as anything. -/
def powerLoss (vol : Volume ν β) (kept : List (Update ν)) (garbled : Nat → β) : Volume ν β where
  data inode := if vol.synced inode then vol.data inode else garbled inode
  synced _ := true
  next := vol.next
  durable := vol.after kept
  pending := []

/-- The directory itself is gone, and its names with it. -/
def emptied (vol : Volume ν β) : Volume ν β := { vol with durable := fun _ => none, pending := [] }

/-! ## What the operations do to names -/

theorem visible_push (vol : Volume ν β) (update : Update ν) :
    (vol.push update).visible = update.apply vol.visible := by
  unfold visible after push
  rw [List.foldl_append]
  rfl

theorem visible_create (vol : Volume ν β) (name : ν) (empty : β) :
    (vol.create name empty).visible =
      Function.update vol.visible name (some (vol.opened name)) := by
  unfold create opened
  cases h : vol.visible name with
  | some inode => exact (Function.update_eq_self_iff.mpr h.symm).symm
  | none => exact visible_push _ _

theorem data_create (vol : Volume ν β) (name : ν) (empty : β) :
    (vol.create name empty).data (vol.opened name) = empty := by
  unfold create opened
  cases vol.visible name with
  | some inode => exact Function.update_self ..
  | none => exact Function.update_self ..

theorem visible_rename {vol : Volume ν β} {source : ν} {inode : Nat}
    (h : vol.visible source = some inode) (target : ν) :
    (vol.rename source target).visible =
      Function.update (Function.update vol.visible source none) target (some inode) := by
  rw [rename, h, visible_push]
  rfl

/-- Nothing is in flight: a power loss leaves the names as they are. -/
theorem outcome_of_settled {vol : Volume ν β} (hp : vol.pending = []) {names : ν → Option Nat}
    (h : vol.Outcome names) : names = vol.durable := by
  obtain ⟨updates, hsub, rfl⟩ := h
  rw [hp] at hsub
  rw [List.sublist_nil.mp hsub]
  rfl

theorem outcome_visible (vol : Volume ν β) : vol.Outcome vol.visible :=
  ⟨vol.pending, List.Sublist.refl _, rfl⟩

/-- A further change is kept or dropped. -/
theorem outcome_push {vol : Volume ν β} {update : Update ν} {names : ν → Option Nat}
    (h : (vol.push update).Outcome names) :
    vol.Outcome names ∨ ∃ before, vol.Outcome before ∧ names = update.apply before := by
  obtain ⟨updates, hsub, rfl⟩ := h
  rcases List.sublist_append_iff.mp hsub with ⟨kept, last, rfl, hkept, hlast⟩
  rcases List.sublist_singleton.mp hlast with rfl | rfl
  · exact Or.inl ⟨kept, hkept, by rw [List.append_nil]; rfl⟩
  · refine Or.inr ⟨vol.after kept, ⟨kept, hkept, rfl⟩, ?_⟩
    unfold after
    rw [List.foldl_append]
    rfl

theorem outcome_fsyncDir {vol : Volume ν β} {names : ν → Option Nat}
    (h : vol.fsyncDir.Outcome names) : names = vol.visible := by
  obtain ⟨updates, hsub, rfl⟩ := h
  rw [List.sublist_nil.mp hsub]
  rfl

theorem outcome_powerLoss {vol : Volume ν β} {kept : List (Update ν)} {garbled : Nat → β}
    {names : ν → Option Nat} (h : (vol.powerLoss kept garbled).Outcome names) :
    names = vol.after kept := by
  obtain ⟨updates, hsub, rfl⟩ := h
  rw [List.sublist_nil.mp hsub]
  rfl

/-! ## Names that stay -/

/-- The name leads to a file, however a power loss comes. -/
def Holds (vol : Volume ν β) (name : ν) : Prop := ∀ d, vol.Outcome d → ∃ i, d name = some i

variable {vol : Volume ν β} {name source : ν}

theorem Holds.push (h : vol.Holds name) {update : Update ν}
    (hu : ∀ names, (∃ i, names name = some i) → ∃ i, update.apply names name = some i) :
    (vol.push update).Holds name := by
  intro d hd
  rcases outcome_push hd with hd | ⟨d', hd', rfl⟩
  · exact h d hd
  · exact hu d' (h d' hd')

theorem Holds.create (h : vol.Holds name) (source : ν) (empty : β) :
    (vol.create source empty).Holds name := by
  unfold Volume.create
  cases vol.visible source with
  | some i => exact h
  | none =>
    refine Holds.push h fun names hnames => ?_
    by_cases heq : name = source
    · subst heq
      exact ⟨vol.next, Function.update_self ..⟩
    · rw [Update.apply, Function.update_of_ne heq]
      exact hnames

/-- A rename replaces its target and leaves no moment without one. -/
theorem Holds.rename (h : vol.Holds name) :
    (vol.rename source name).Holds name := by
  unfold Volume.rename
  cases vol.visible source with
  | none => exact h
  | some i => exact h.push fun names _ => ⟨i, Function.update_self ..⟩

theorem Holds.fsyncDir {i : Nat} (h : vol.visible name = some i) : vol.fsyncDir.Holds name := by
  intro d hd
  rw [outcome_fsyncDir hd]
  exact ⟨i, h⟩

theorem Holds.powerLoss (h : vol.Holds name) {kept : List (Update ν)}
    (hk : kept.Sublist vol.pending) (garbled : Nat → β) : (vol.powerLoss kept garbled).Holds name := by
  intro d hd
  rw [outcome_powerLoss hd]
  exact h _ ⟨kept, hk, rfl⟩

end Volume

/-! ## Publishing by rename -/

/-- The temporary and the final name of each thing that is published. -/
structure Staging (κ : Type w) (ν : Type u) where
  tmp : κ → ν
  final : κ → ν
  tmp_injective : Function.Injective tmp
  final_injective : Function.Injective final
  disjoint : ∀ k k', tmp k ≠ final k'

namespace Staging

variable {κ : Type w} {ν : Type u} {β : Type v} [DecidableEq ν]

/-- However a power loss comes, what is found under a final name was synced and is good, and
no temporary name leads to it. -/
structure Published (names : Staging κ ν) (Good : κ → β → Prop) (vol : Volume ν β) : Prop where
  bounded : ∀ d, vol.Outcome d → ∀ k i, d (names.tmp k) = some i → i < vol.next
  good : ∀ d, vol.Outcome d → ∀ k i, d (names.final k) = some i →
    i < vol.next ∧ vol.synced i = true ∧ Good k (vol.data i)
  owned : ∀ d d', vol.Outcome d → vol.Outcome d' → ∀ k k' i,
    d (names.tmp k) = some i → d' (names.tmp k') = some i → k = k'
  apart : ∀ d, vol.Outcome d → ∀ k k' i, d (names.tmp k) = some i → d (names.final k') ≠ some i
  writable : ∀ k i, vol.visible (names.tmp k) = some i →
    ∀ d, vol.Outcome d → ∀ k', d (names.final k') ≠ some i

variable {names : Staging κ ν} {Good Good' : κ → β → Prop} {vol : Volume ν β} {k : κ} {i : Nat}

/-- What is found under the final names may be described anew. -/
theorem Published.redescribe (h : Published names Good vol)
    (hg : ∀ d, vol.Outcome d → ∀ k i, d (names.final k) = some i → Good' k (vol.data i)) :
    Published names Good' vol where
  bounded := h.bounded
  good d hd k i hi := by
    obtain ⟨hn, hs, -⟩ := h.good d hd k i hi
    exact ⟨hn, hs, hg d hd k i hi⟩
  owned := h.owned
  apart := h.apart
  writable := h.writable

theorem Published.mono (h : Published names Good vol) (hg : ∀ k b, Good k b → Good' k b) :
    Published names Good' vol :=
  h.redescribe fun d hd k i hi => hg k _ (h.good d hd k i hi).2.2

/-- Nothing is published yet and no temporary file is left. -/
theorem Published.empty (hp : vol.pending = []) (ht : ∀ k, vol.durable (names.tmp k) = none)
    (hf : ∀ k, vol.durable (names.final k) = none) : Published names Good vol := by
  have hd : ∀ d, vol.Outcome d → d = vol.durable := fun d => Volume.outcome_of_settled hp
  have htmp : ∀ d, vol.Outcome d → ∀ k i, d (names.tmp k) ≠ some i := fun d h k i hi => by
    rw [hd d h, ht] at hi
    cases hi
  exact {
    bounded := fun d h k i hi => absurd hi (htmp d h k i)
    good := fun d h k i hi => by
      rw [hd d h, hf] at hi
      cases hi
    owned := fun d _ h _ k _ i hi => absurd hi (htmp d h k i)
    apart := fun d h k _ i hi => absurd hi (htmp d h k i)
    writable := fun k i hi => absurd hi (htmp _ vol.outcome_visible k i) }

/-- An inode that a temporary name leads to may be written. -/
theorem Published.write (h : Published names Good vol) (hi : vol.visible (names.tmp k) = some i)
    (data : β) : Published names Good (vol.write i data) where
  bounded := h.bounded
  good d hd k' j hj := by
    have hne : j ≠ i := fun heq => h.writable k i hi d hd k' (heq ▸ hj)
    obtain ⟨hn, hs, hq⟩ := h.good d hd k' j hj
    refine ⟨hn, ?_, ?_⟩
    · exact (Function.update_of_ne hne _ _).trans hs
    · rw [show (vol.write i data).data j = vol.data j from Function.update_of_ne hne _ _]
      exact hq
  owned := h.owned
  apart := h.apart
  writable := h.writable

theorem Published.fsync (h : Published names Good vol) (i : Nat) :
    Published names Good (vol.fsync i) where
  bounded := h.bounded
  good d hd k j hj := by
    obtain ⟨hn, hs, hq⟩ := h.good d hd k j hj
    refine ⟨hn, ?_, hq⟩
    unfold Volume.fsync
    dsimp only
    by_cases heq : j = i
    · rw [heq, Function.update_self]
    · rw [Function.update_of_ne heq]
      exact hs
  owned := h.owned
  apart := h.apart
  writable := h.writable

/-- A fresh temporary file. -/
theorem Published.linkFresh (h : Published names Good vol) (k : κ) (data : β) :
    Published names Good
      (({ vol.write vol.next data with next := vol.next + 1 }).push (.link (names.tmp k) vol.next)) := by
  have hfinal : ∀ (d : ν → Option Nat) k',
      (Update.link (names.tmp k) vol.next).apply d (names.final k') = d (names.final k') :=
    fun d k' => Function.update_of_ne (fun heq => names.disjoint k k' heq.symm) _ _
  have htmp : ∀ (d : ν → Option Nat) k' i,
      (Update.link (names.tmp k) vol.next).apply d (names.tmp k') = some i →
        (k' = k ∧ i = vol.next) ∨ d (names.tmp k') = some i := by
    intro d k' i hi
    by_cases heq : k' = k
    · subst heq
      rw [Update.apply, Function.update_self] at hi
      exact Or.inl ⟨rfl, (Option.some.inj hi).symm⟩
    · rw [Update.apply, Function.update_of_ne (fun ht => heq (names.tmp_injective ht))] at hi
      exact Or.inr hi
  have hold : ∀ {d}, vol.Outcome d → ∀ {k' i}, d (names.tmp k') = some i → i < vol.next :=
    fun hd => h.bounded _ hd _ _
  have hgood : ∀ d, vol.Outcome d → ∀ k' i, d (names.final k') = some i →
      i < vol.next + 1 ∧ (vol.write vol.next data).synced i = true ∧
        Good k' ((vol.write vol.next data).data i) := by
    intro d hd k' i hi
    obtain ⟨hn, hs, hq⟩ := h.good d hd k' i hi
    have hne : i ≠ vol.next := Nat.ne_of_lt hn
    refine ⟨Nat.lt_succ_of_lt hn, (Function.update_of_ne hne _ _).trans hs, ?_⟩
    rw [show (vol.write vol.next data).data i = vol.data i from Function.update_of_ne hne _ _]
    exact hq
  have hnext : ∀ {d}, vol.Outcome d → ∀ {k'}, d (names.final k') ≠ some vol.next := fun hd k' hi =>
    Nat.lt_irrefl _ (h.good _ hd _ _ hi).1
  exact {
    bounded := fun d hd k' i hi => by
      rcases Volume.outcome_push hd with hd | ⟨d', hd', rfl⟩
      · exact Nat.lt_succ_of_lt (hold hd hi)
      · rcases htmp d' k' i hi with ⟨-, rfl⟩ | hi
        · exact Nat.lt_succ_self _
        · exact Nat.lt_succ_of_lt (hold hd' hi)
    good := fun d hd k' i hi => by
      rcases Volume.outcome_push hd with hd | ⟨d', hd', rfl⟩
      · exact hgood d hd k' i hi
      · rw [hfinal] at hi
        exact hgood d' hd' k' i hi
    owned := fun d d' hd hd' k₁ k₂ i h₁ h₂ => by
      have hcase : ∀ d, (Volume.push { vol.write vol.next data with next := vol.next + 1 }
          (.link (names.tmp k) vol.next)).Outcome d → ∀ k' i, d (names.tmp k') = some i →
            (k' = k ∧ i = vol.next) ∨ ∃ d, vol.Outcome d ∧ d (names.tmp k') = some i := by
        intro d hd k' i hi
        rcases Volume.outcome_push hd with hd | ⟨d', hd', rfl⟩
        · exact Or.inr ⟨d, hd, hi⟩
        · exact (htmp d' k' i hi).imp_right fun hi => ⟨d', hd', hi⟩
      rcases hcase d hd k₁ i h₁ with ⟨rfl, hi₁⟩ | ⟨d₁, hd₁, hi₁⟩
      · rcases hcase d' hd' k₂ i h₂ with ⟨rfl, -⟩ | ⟨d₂, hd₂, hi₂⟩
        · rfl
        · exact absurd (hold hd₂ hi₂) (by rw [hi₁]; exact Nat.lt_irrefl _)
      · rcases hcase d' hd' k₂ i h₂ with ⟨rfl, hi₂⟩ | ⟨d₂, hd₂, hi₂⟩
        · exact absurd (hold hd₁ hi₁) (by rw [hi₂]; exact Nat.lt_irrefl _)
        · exact h.owned d₁ d₂ hd₁ hd₂ k₁ k₂ i hi₁ hi₂
    apart := fun d hd k₁ k₂ i h₁ => by
      rcases Volume.outcome_push hd with hd | ⟨d', hd', rfl⟩
      · exact h.apart d hd k₁ k₂ i h₁
      · rw [hfinal]
        rcases htmp d' k₁ i h₁ with ⟨-, rfl⟩ | hi
        · exact hnext hd'
        · exact h.apart d' hd' k₁ k₂ i hi
    writable := fun k₁ i h₁ d hd k₂ => by
      rw [Volume.visible_push] at h₁
      have hne : ∀ d, vol.Outcome d → d (names.final k₂) ≠ some i := by
        intro d hd
        rcases htmp _ k₁ i h₁ with ⟨-, rfl⟩ | hi
        · exact hnext hd
        · exact h.writable k₁ i hi d hd k₂
      rcases Volume.outcome_push hd with hd | ⟨d', hd', rfl⟩
      · exact hne d hd
      · rw [hfinal]
        exact hne d' hd' }

theorem Published.create (h : Published names Good vol) (k : κ) (empty : β) :
    Published names Good (vol.create (names.tmp k) empty) := by
  unfold Volume.create
  cases hv : vol.visible (names.tmp k) with
  | some i => exact h.write hv empty
  | none => exact h.linkFresh k empty

theorem Published.remove (h : Published names Good vol) (k : κ) :
    Published names Good (vol.remove (names.tmp k)) := by
  have hfinal : ∀ (d : ν → Option Nat) k',
      (Update.unlink (names.tmp k)).apply d (names.final k') = d (names.final k') :=
    fun d k' => Function.update_of_ne (fun heq => names.disjoint k k' heq.symm) _ _
  have htmp : ∀ (d : ν → Option Nat) k' i,
      (Update.unlink (names.tmp k)).apply d (names.tmp k') = some i → d (names.tmp k') = some i := by
    intro d k' i hi
    by_cases heq : k' = k
    · subst heq
      rw [Update.apply, Function.update_self] at hi
      cases hi
    · rwa [Update.apply, Function.update_of_ne (fun ht => heq (names.tmp_injective ht))] at hi
  have hcase : ∀ d, (vol.remove (names.tmp k)).Outcome d → ∃ d', vol.Outcome d' ∧
      (∀ k' i, d (names.tmp k') = some i → d' (names.tmp k') = some i) ∧
      ∀ k', d (names.final k') = d' (names.final k') := by
    intro d hd
    rcases Volume.outcome_push hd with hd | ⟨d', hd', rfl⟩
    · exact ⟨d, hd, fun _ _ hi => hi, fun _ => rfl⟩
    · exact ⟨d', hd', htmp d', hfinal d'⟩
  exact {
    bounded := fun d hd k' i hi => by
      obtain ⟨d', hd', ht, -⟩ := hcase d hd
      exact h.bounded d' hd' k' i (ht k' i hi)
    good := fun d hd k' i hi => by
      obtain ⟨d', hd', -, hf⟩ := hcase d hd
      exact h.good d' hd' k' i ((hf k').symm.trans hi)
    owned := fun d₁ d₂ hd₁ hd₂ k₁ k₂ i h₁ h₂ => by
      obtain ⟨d₁', hd₁', ht₁, -⟩ := hcase d₁ hd₁
      obtain ⟨d₂', hd₂', ht₂, -⟩ := hcase d₂ hd₂
      exact h.owned d₁' d₂' hd₁' hd₂' k₁ k₂ i (ht₁ k₁ i h₁) (ht₂ k₂ i h₂)
    apart := fun d hd k₁ k₂ i h₁ => by
      obtain ⟨d', hd', ht, hf⟩ := hcase d hd
      rw [hf]
      exact h.apart d' hd' k₁ k₂ i (ht k₁ i h₁)
    writable := fun k₁ i h₁ d hd k₂ => by
      obtain ⟨d', hd', -, hf⟩ := hcase d hd
      rw [hf]
      refine h.writable k₁ i (htmp _ k₁ i ?_) d' hd' k₂
      rw [← Volume.visible_push]
      exact h₁ }

/-- A temporary file that is synced and good is published. -/
theorem Published.rename (h : Published names Good vol)
    (hv : vol.visible (names.tmp k) = some i) (hs : vol.synced i = true)
    (hq : Good k (vol.data i)) :
    Published names Good (vol.rename (names.tmp k) (names.final k)) := by
  have htmp : ∀ (d : ν → Option Nat) k' j,
      (Update.rename (names.tmp k) (names.final k) i).apply d (names.tmp k') = some j →
        k' ≠ k ∧ d (names.tmp k') = some j := by
    intro d k' j hj
    rw [Update.apply, Function.update_of_ne (names.disjoint k' k)] at hj
    by_cases heq : k' = k
    · subst heq
      rw [Function.update_self] at hj
      cases hj
    · rw [Function.update_of_ne (fun ht => heq (names.tmp_injective ht))] at hj
      exact ⟨heq, hj⟩
  have hfinal : ∀ (d : ν → Option Nat) k' j,
      (Update.rename (names.tmp k) (names.final k) i).apply d (names.final k') = some j →
        (k' = k ∧ j = i) ∨ d (names.final k') = some j := by
    intro d k' j hj
    by_cases heq : k' = k
    · subst heq
      rw [Update.apply, Function.update_self] at hj
      exact Or.inl ⟨rfl, (Option.some.inj hj).symm⟩
    · rw [Update.apply, Function.update_of_ne (fun hf => heq (names.final_injective hf)),
        Function.update_of_ne (fun hf => names.disjoint k k' hf.symm)] at hj
      exact Or.inr hj
  have hbound : i < vol.next := h.bounded _ vol.outcome_visible k i hv
  have hapart : ∀ d, vol.Outcome d → ∀ k₁ j, k₁ ≠ k → d (names.tmp k₁) = some j → j ≠ i := by
    intro d hd k₁ j hne hj heq
    subst heq
    exact hne (h.owned d vol.visible hd vol.outcome_visible k₁ k j hj hv)
  unfold Volume.rename
  rw [hv]
  exact {
    bounded := fun d hd k' j hj => by
      rcases Volume.outcome_push hd with hd | ⟨d', hd', rfl⟩
      · exact h.bounded d hd k' j hj
      · exact h.bounded d' hd' k' j (htmp d' k' j hj).2
    good := fun d hd k' j hj => by
      rcases Volume.outcome_push hd with hd | ⟨d', hd', rfl⟩
      · exact h.good d hd k' j hj
      · rcases hfinal d' k' j hj with ⟨rfl, rfl⟩ | hj
        · exact ⟨hbound, hs, hq⟩
        · exact h.good d' hd' k' j hj
    owned := fun d₁ d₂ hd₁ hd₂ k₁ k₂ j h₁ h₂ => by
      have hcase : ∀ d, (vol.push (.rename (names.tmp k) (names.final k) i)).Outcome d →
          ∃ d', vol.Outcome d' ∧ ∀ k' j, d (names.tmp k') = some j → d' (names.tmp k') = some j := by
        intro d hd
        rcases Volume.outcome_push hd with hd | ⟨d', hd', rfl⟩
        · exact ⟨d, hd, fun _ _ hj => hj⟩
        · exact ⟨d', hd', fun k' j hj => (htmp d' k' j hj).2⟩
      obtain ⟨d₁', hd₁', ht₁⟩ := hcase d₁ hd₁
      obtain ⟨d₂', hd₂', ht₂⟩ := hcase d₂ hd₂
      exact h.owned d₁' d₂' hd₁' hd₂' k₁ k₂ j (ht₁ k₁ j h₁) (ht₂ k₂ j h₂)
    apart := fun d hd k₁ k₂ j h₁ h₂ => by
      rcases Volume.outcome_push hd with hd | ⟨d', hd', rfl⟩
      · exact h.apart d hd k₁ k₂ j h₁ h₂
      · obtain ⟨hne, hj⟩ := htmp d' k₁ j h₁
        rcases hfinal d' k₂ j h₂ with ⟨-, heq⟩ | h₂
        · exact hapart d' hd' k₁ j hne hj heq
        · exact h.apart d' hd' k₁ k₂ j hj h₂
    writable := fun k₁ j h₁ d hd k₂ h₂ => by
      rw [Volume.visible_push] at h₁
      obtain ⟨hne, hj⟩ := htmp _ k₁ j h₁
      rcases Volume.outcome_push hd with hd | ⟨d', hd', rfl⟩
      · exact h.writable k₁ j hj d hd k₂ h₂
      · rcases hfinal d' k₂ j h₂ with ⟨-, heq⟩ | h₂
        · exact hapart _ vol.outcome_visible k₁ j hne hj heq
        · exact h.writable k₁ j hj d' hd' k₂ h₂ }

theorem Published.fsyncDir (h : Published names Good vol) : Published names Good vol.fsyncDir := by
  have hd : ∀ d, vol.fsyncDir.Outcome d → vol.Outcome d := fun d hd => by
    rw [Volume.outcome_fsyncDir hd]
    exact vol.outcome_visible
  exact {
    bounded := fun d hd' => h.bounded d (hd d hd')
    good := fun d hd' => h.good d (hd d hd')
    owned := fun d₁ d₂ h₁ h₂ => h.owned d₁ d₂ (hd d₁ h₁) (hd d₂ h₂)
    apart := fun d hd' => h.apart d (hd d hd')
    writable := fun k i hi d hd' => h.writable k i hi d (hd d hd') }

/-- Whatever a power loss keeps of the names, and makes of what was not synced. -/
theorem Published.powerLoss (h : Published names Good vol) {kept : List (Update ν)}
    (hk : kept.Sublist vol.pending) (garbled : Nat → β) :
    Published names Good (vol.powerLoss kept garbled) := by
  have hkept : vol.Outcome (vol.after kept) := ⟨kept, hk, rfl⟩
  exact {
    bounded := fun d hd k i hi => by
      rw [Volume.outcome_powerLoss hd] at hi
      exact h.bounded _ hkept k i hi
    good := fun d hd k i hi => by
      rw [Volume.outcome_powerLoss hd] at hi
      obtain ⟨hn, hs, hq⟩ := h.good _ hkept k i hi
      refine ⟨hn, rfl, ?_⟩
      unfold Volume.powerLoss
      dsimp only
      rw [if_pos hs]
      exact hq
    owned := fun d₁ d₂ h₁ h₂ k₁ k₂ i hi₁ hi₂ => by
      rw [Volume.outcome_powerLoss h₁] at hi₁
      rw [Volume.outcome_powerLoss h₂] at hi₂
      exact h.owned _ _ hkept hkept k₁ k₂ i hi₁ hi₂
    apart := fun d hd k₁ k₂ i hi => by
      rw [Volume.outcome_powerLoss hd] at hi ⊢
      exact h.apart _ hkept k₁ k₂ i hi
    writable := fun k i hi d hd k' => by
      rw [Volume.outcome_powerLoss hd]
      exact h.apart _ hkept k k' i hi }

end Staging

end Base
