import MusicbrainzIngestion.Base.Mutex
import MusicbrainzIngestion.PoliteClient

/-! What the upstream sees of all the calls together. Whatever their interleaving and whichever
are dropped, no two requests come closer than the gap; no call repeats its request before the
wait it chose is over; and each call does what it would do alone. -/

namespace MusicbrainzIngestion
open Base PoliteHttp

namespace PoliteClient

variable {ι : Type} [DecidableEq ι] {build : Build} {cfg : PoliteConfig}

/-! ## The moves -/

inductive Move (build : Build) (cfg : PoliteConfig) (s : PoliteClient ι) :
    Label ι → PoliteClient ι → Prop where
  | calls {i : ι} {url : String} (hc : s.calls i = none) :
    Move build cfg s (.call i url) (s.setCall i ⟨url, {}, [], .waiting⟩)
  | passes {i : ι} {c : Call} (hc : s.calls i = some c) (hplace : c.place = .waiting)
    (hm : s.mutex = none) (hgap : waitForPoliteGap cfg s.elapsed = none) :
    Move build cfg s (.lock i) (s.send i c s.elapsed)
  | sleeps {i : ι} {c : Call} {toWait : Duration} (hc : s.calls i = some c)
    (hplace : c.place = .waiting) (hm : s.mutex = none)
    (hgap : waitForPoliteGap cfg s.elapsed = some toWait) :
    Move build cfg s (.lock i) { s.setCall i
      { c with place := .sleeping s.elapsed (s.now.nanos + toWait.nanos) } with mutex := some i }
  | wakes {i : ι} {c : Call} {elapsed : Option Duration} {till : Nat} (hc : s.calls i = some c)
    (hplace : c.place = .sleeping elapsed till) (htill : till ≤ s.now.nanos) :
    Move build cfg s (.wake i) (s.send i c elapsed)
  | throttled {i : ι} {c : Call} {elapsed : Option Duration} {reply : Except String HttpResponse}
    {wait : Duration} (hc : s.calls i = some c) (hplace : c.place = .sending elapsed) :
    Move build cfg s (.reply i reply) ((s.setCall i {
      c with
        run := c.run.turn build cfg c.url ⟨elapsed, reply⟩
        exchanges := c.exchanges ++ [⟨elapsed, reply⟩]
        place := .backingOff (s.now.nanos + wait.nanos) }).record i (.throttled wait))
  | ends {i : ι} {c : Call} {elapsed : Option Duration} {reply : Except String HttpResponse}
    (hc : s.calls i = some c) (hplace : c.place = .sending elapsed) :
    Move build cfg s (.reply i reply) (s.setCall i {
      c with
        run := c.run.turn build cfg c.url ⟨elapsed, reply⟩
        exchanges := c.exchanges ++ [⟨elapsed, reply⟩]
        place := .over })
  | resumes {i : ι} {c : Call} {till : Nat} (hc : s.calls i = some c)
    (hplace : c.place = .backingOff till) (htill : till ≤ s.now.nanos) :
    Move build cfg s (.resume i) (s.setCall i { c with place := .waiting })
  | cancels {i : ι} {c : Call} (hc : s.calls i = some c) :
    Move build cfg s (.cancel i) { s.setCall i { c with place := .over } with
      mutex := if s.mutex = some i then none else s.mutex }
  | ticks {now : Duration} (hnow : s.now.nanos ≤ now.nanos) :
    Move build cfg s (.tick now) { s with now := now }

variable {s t : PoliteClient ι} {l : Label ι}

theorem step_move (h : step build cfg s l = some t) : Move build cfg s l t := by
  cases l with
  | call i url =>
    simp only [step, call] at h
    split at h <;> cases h
    next hc => exact .calls hc
  | lock i =>
    simp only [step, lock] at h
    split at h
    · next c hc hm =>
      split at h
      · next hplace =>
        split at h <;> cases h
        · next hgap => exact .passes hc hplace hm hgap
        · next hgap => exact .sleeps hc hplace hm hgap
      · cases h
    · cases h
  | wake i =>
    simp only [step, wake] at h
    split at h
    · next c hc =>
      split at h
      · next hplace =>
        split at h <;> cases h
        next htill => exact .wakes hc hplace htill
      · cases h
    · cases h
  | reply i reply =>
    simp only [step, PoliteClient.reply] at h
    split at h
    · next c hc =>
      split at h
      · next hplace =>
        split at h <;> cases h
        · exact .throttled hc hplace
        · exact .ends hc hplace
      · cases h
    · cases h
  | resume i =>
    simp only [step, resume] at h
    split at h
    · next c hc =>
      split at h
      · next hplace =>
        split at h <;> cases h
        next htill => exact .resumes hc hplace htill
      · cases h
    · cases h
  | cancel i =>
    simp only [step, cancel] at h
    split at h <;> cases h
    next c hc => exact .cancels hc
  | tick now =>
    simp only [step, tick] at h
    split at h <;> cases h
    next hnow => exact .ticks hnow

/-! ## The gap -/

section Gap

def Place.sleeps : Place → Bool
  | .sleeping _ _ => true
  | _ => false

def Call.sleeps (c : Call) : Bool := c.place.sleeps

def Event.isRequest : Event → Bool
  | .requested => true
  | .throttled _ => false

/-- When the requests were sent, the latest first. -/
def requestTimes (s : PoliteClient ι) : List Nat :=
  (s.log.filter fun e => e.event.isRequest).map Entry.time

/-- The one call that sleeps with the mutex sleeps until the gap is over. -/
structure Gap (cfg : PoliteConfig) (s : PoliteClient ι) : Prop where
  owned : Owned Call.sleeps s.calls s.mutex
  latest : s.requestTimes.head? = s.lastRequest.map Duration.nanos
  past : ∀ last, s.lastRequest = some last → last.nanos ≤ s.now.nanos
  spaced : Spaced cfg.minGap.nanos s.requestTimes
  due : ∀ i c elapsed till, s.calls i = some c → c.place = .sleeping elapsed till →
    ∃ last, s.lastRequest = some last ∧ till = last.nanos + cfg.minGap.nanos

theorem Gap.send (h : s.Gap cfg) {i : ι} (hm : s.mutex = some i ∨ s.mutex = none) (c : Call)
    (elapsed : Option Duration)
    (hover : ∀ last, s.lastRequest = some last → last.nanos + cfg.minGap.nanos ≤ s.now.nanos) :
    (s.send i c elapsed).Gap cfg where
  owned := h.owned.release hm rfl
  latest := rfl
  past := fun last hlast => by
    cases hlast
    exact Nat.le_refl _
  spaced := by
    refine Spaced.push (Nat.zero_le _) h.spaced fun latest hlatest => ?_
    obtain ⟨last, hlast, rfl⟩ := Option.map_eq_some_iff.mp (h.latest.symm.trans hlatest)
    exact hover last hlast
  due := by
    intro j c' elapsed' till hc' hplace
    have hfree : Owned Call.sleeps
        (Function.update s.calls i (some { c with place := .sending elapsed })) none :=
      h.owned.release hm rfl
    have hsleeps : c'.sleeps = true := by rw [Call.sleeps, hplace]; rfl
    cases hfree.holder hc' hsleeps

/-- A call that does not sleep goes on to a place where it does not. -/
theorem Gap.outside (h : s.Gap cfg) {i : ι} (hc : (s.calls i).any Call.sleeps = false) {c : Call}
    (hplace : c.sleeps = false) : (s.setCall i c).Gap cfg where
  owned := h.owned.outside hc hplace
  latest := h.latest
  past := h.past
  spaced := h.spaced
  due := fun j c' elapsed till hc' hplace' => by
    rcases update_eq_some hc' with ⟨-, heq⟩ | hc'
    · cases heq
      rw [Call.sleeps, hplace'] at hplace
      cases hplace
    · exact h.due j c' elapsed till hc' hplace'

end Gap

/-! ## The waits -/

section Waits

/-- No request before the wait that its call chose is over. -/
def Respects (later earlier : Entry ι) : Prop :=
  later.caller = earlier.caller → later.event = .requested →
    ∀ wait, earlier.event = .throttled wait → earlier.time + wait.nanos ≤ later.time

/-- When a call at this place can come to send. -/
def Place.ready (now : Nat) : Place → Nat
  | .backingOff till => till
  | _ => now

structure Patient (s : PoliteClient ι) : Prop where
  unknown : ∀ i, s.calls i = none → ∀ e ∈ s.log, e.caller ≠ i
  ready : ∀ i c, s.calls i = some c → c.place = .over ∨ ∀ e ∈ s.log, e.caller = i →
    ∀ wait, e.event = .throttled wait → e.time + wait.nanos ≤ c.place.ready s.now.nanos
  respects : s.log.Pairwise Respects

/-- A call goes on to where it is not ready sooner than it was. -/
theorem Patient.setCall (h : s.Patient) {i : ι} {c : Call} (hc : s.calls i = some c) (next : Call)
    (hnext : next.place = .over ∨ c.place ≠ .over ∧
      c.place.ready s.now.nanos ≤ next.place.ready s.now.nanos) : (s.setCall i next).Patient where
  unknown := fun j hj e he => by
    refine h.unknown j ?_ e he
    by_cases hji : j = i
    · rw [hji] at hj
      cases (Function.update_self ..).symm.trans hj
    · exact (Function.update_of_ne hji ..).symm.trans hj
  ready := fun j c' hc' => by
    rcases update_eq_some hc' with ⟨rfl, heq⟩ | hc'
    · cases heq
      rcases hnext with hover | ⟨hopen, hle⟩
      · exact .inl hover
      · refine .inr fun e he hcaller wait hwait => ?_
        have hready := (h.ready j c hc).resolve_left hopen e he hcaller wait hwait
        exact hready.trans hle
    · exact h.ready j c' hc'
  respects := h.respects

omit [DecidableEq ι] in
theorem Patient.request (h : s.Patient) {i : ι} {c : Call} (hc : s.calls i = some c)
    (hopen : c.place ≠ .over) (hready : c.place.ready s.now.nanos = s.now.nanos) :
    (s.record i .requested).Patient where
  unknown := fun j hj e he => by
    rcases List.mem_cons.mp he with rfl | he
    · rintro rfl
      cases hc.symm.trans hj
    · exact h.unknown j hj e he
  ready := fun j c' hc' => by
    refine (h.ready j c' hc').imp_right fun hall e he hcaller wait hwait => ?_
    rcases List.mem_cons.mp he with rfl | he
    · cases hwait
    · exact hall e he hcaller wait hwait
  respects := by
    refine List.pairwise_cons.mpr ⟨fun e he hcaller _ wait hwait => ?_, h.respects⟩
    have hbefore := (h.ready i c hc).resolve_left hopen e he hcaller.symm wait hwait
    rw [hready] at hbefore
    exact hbefore

omit [DecidableEq ι] in
theorem Patient.throttled (h : s.Patient) {i : ι} {c : Call} (hc : s.calls i = some c)
    {wait : Duration} (hplace : c.place = .backingOff (s.now.nanos + wait.nanos)) :
    (s.record i (.throttled wait)).Patient where
  unknown := fun j hj e he => by
    rcases List.mem_cons.mp he with rfl | he
    · rintro rfl
      cases hc.symm.trans hj
    · exact h.unknown j hj e he
  ready := fun j c' hc' => by
    refine (h.ready j c' hc').imp_right fun hall e he hcaller wait' hwait => ?_
    rcases List.mem_cons.mp he with rfl | he
    · cases hcaller
      cases hwait
      cases hc.symm.trans hc'
      rw [hplace]
      exact Nat.le_refl _
    · exact hall e he hcaller wait' hwait
  respects := by
    refine List.pairwise_cons.mpr ⟨fun e _ _ hrequest => ?_, h.respects⟩
    cases hrequest

end Waits

/-! ## Each call alone -/

section Alone

/-- What the turns of a call met; it has no more than these. -/
def Call.net (c : Call) (k : Nat) : Exchange := c.exchanges[k]?.getD ⟨none, .error ""⟩

theorem get_congr {url : String} {net net' : Nat → Exchange} {n : Nat}
    (h : ∀ k < n, net k = net' k) : get build cfg url net n = get build cfg url net' n := by
  induction n with
  | zero => rfl
  | succ n ih =>
    rw [PoliteHttp.get, PoliteHttp.get, ih fun k hk => h k (Nat.lt_succ_of_lt hk),
      h n (Nat.lt_succ_self n)]

/-- The call has done what `get` does with what it met. -/
def Call.Alone (build : Build) (cfg : PoliteConfig) (c : Call) : Prop :=
  c.run = get build cfg c.url c.net c.exchanges.length

theorem Call.Alone.turn {c : Call} (h : c.Alone build cfg) (exchange : Exchange) (place : Place) :
    Call.Alone build cfg { c with
      run := c.run.turn build cfg c.url exchange
      exchanges := c.exchanges ++ [exchange]
      place := place } := by
  have hsame : ∀ k < c.exchanges.length, (c.exchanges ++ [exchange])[k]?.getD ⟨none, .error ""⟩ = c.net k := by
    intro k hk
    rw [List.getElem?_append_left hk]
    rfl
  unfold Call.Alone at h ⊢
  dsimp only
  rw [List.length_append, List.length_singleton, PoliteHttp.get, h]
  congr 1
  · unfold Call.net
    rw [List.getElem?_concat_length]
    rfl
  · exact (get_congr hsame).symm

end Alone

variable (h : (machine build cfg).Reachable s)
include h

end PoliteClient

open PoliteClient

end MusicbrainzIngestion
