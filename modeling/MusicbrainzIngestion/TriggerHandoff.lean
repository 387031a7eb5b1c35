import MusicbrainzIngestion.ShutdownSignal

/-! The trigger mailbox. An accepted request is answered for by a run started later, by the
mailbox, or by the trigger that the loop has just taken; for a request to reprocess only what
reprocesses counts. Writing is the one step that can break this: it replaces what is there. -/

namespace MusicbrainzIngestion
open Base

namespace RunLoop

/-- The trigger with which the loop is about to start a run. -/
def taken (s : RunLoop) : Option Bool :=
  match s.loop with
  | .calling .triggered force => some force
  | _ => none

/-- Every accepted request that counts is answered for by something that counts. -/
def Kept (counts : Bool → Bool) (s : RunLoop) : Prop :=
  ∀ later earlier force response, s.history = later ++ .answered force response :: earlier →
    response.statusCode = 202 → counts force = true →
      (∃ force', .started force' ∈ later ∧ counts force' = true) ∨
      s.mailbox.any counts = true ∨ s.taken.any counts = true

/-- There is an accepted request that counts, and no run that counts was started since. -/
def owed (counts : Bool → Bool) : List Event → Bool
  | [] => false
  | .started force :: rest => !counts force && owed counts rest
  | .answered force response :: rest =>
    (response.statusCode == 202 && counts force) || owed counts rest

/-- The step replaces a trigger that counts, and that is still owed, by one that does not. -/
def overwrites (counts : Bool → Bool) (s : RunLoop) : Label → Bool
  | .accept =>
    match s.handler with
    | some (.allowed force) =>
      !counts force && s.mailbox.any counts && !s.taken.any counts && owed counts s.history
    | _ => false
  | _ => false

theorem owed_iff {counts : Bool → Bool} {history : List Event} :
    owed counts history = true ↔ ∃ later earlier force response,
      history = later ++ .answered force response :: earlier ∧ response.statusCode = 202 ∧
      counts force = true ∧ ∀ force', .started force' ∈ later → counts force' = false := by
  induction history with
  | nil => simp [owed]
  | cons event rest ih =>
    cases event with
    | started force =>
      rw [owed, Bool.and_eq_true, Bool.not_eq_true', ih]
      constructor
      · rintro ⟨hforce, later, earlier, f, r, rfl, hcode, hcounts, hlater⟩
        refine ⟨.started force :: later, earlier, f, r, rfl, hcode, hcounts, fun f' hf' => ?_⟩
        rcases List.mem_cons.mp hf' with heq | hf'
        · cases heq
          exact hforce
        · exact hlater f' hf'
      · rintro ⟨later, earlier, f, r, heq, hcode, hcounts, hlater⟩
        cases later with
        | nil => cases heq
        | cons event' later =>
          cases heq
          exact ⟨hlater force List.mem_cons_self, later, earlier, f, r, rfl, hcode, hcounts,
            fun f' hf' => hlater f' (List.mem_cons_of_mem _ hf')⟩
    | answered force response =>
      rw [owed, Bool.or_eq_true, Bool.and_eq_true, beq_iff_eq, ih]
      constructor
      · rintro (⟨hcode, hcounts⟩ | ⟨later, earlier, f, r, rfl, hcode, hcounts, hlater⟩)
        · exact ⟨[], rest, force, response, rfl, hcode, hcounts, fun _ hf' => nomatch hf'⟩
        · refine ⟨.answered force response :: later, earlier, f, r, rfl, hcode, hcounts,
            fun f' hf' => ?_⟩
          rcases List.mem_cons.mp hf' with heq | hf'
          · cases heq
          · exact hlater f' hf'
      · rintro ⟨later, earlier, f, r, heq, hcode, hcounts, hlater⟩
        cases later with
        | nil =>
          cases heq
          exact Or.inl ⟨hcode, hcounts⟩
        | cons event' later =>
          cases heq
          exact Or.inr ⟨later, earlier, f, r, rfl, hcode, hcounts,
            fun f' hf' => hlater f' (List.mem_cons_of_mem _ hf')⟩

/-- What is owed is in the mailbox or taken. -/
def Covered (counts : Bool → Bool) (s : RunLoop) : Prop :=
  owed counts s.history = true → s.mailbox.any counts = true ∨ s.taken.any counts = true

theorem kept_iff {counts : Bool → Bool} {s : RunLoop} : s.Kept counts ↔ s.Covered counts := by
  unfold Kept Covered
  rw [owed_iff]
  constructor
  · rintro h ⟨later, earlier, f, r, hhistory, hcode, hcounts, hlater⟩
    rcases h later earlier f r hhistory hcode hcounts with ⟨f', hf', hcounts'⟩ | h
    · rw [hlater f' hf'] at hcounts'
      cases hcounts'
    · exact h
  · intro h later earlier f r hhistory hcode hcounts
    by_cases hlater : ∃ f', Event.started f' ∈ later ∧ counts f' = true
    · exact Or.inl hlater
    · exact Or.inr (h ⟨later, earlier, f, r, hhistory, hcode, hcounts, fun f' hf' =>
        Bool.eq_false_iff.mpr fun hcounts' => hlater ⟨f', hf', hcounts'⟩⟩)

variable {cfg : ServiceConfig} {forceReprocess : Bool} {s t : RunLoop} {counts : Bool → Bool}

theorem Covered.congr (h : s.Covered counts) (hhistory : t.history = s.history)
    (hmailbox : t.mailbox = s.mailbox) (htaken : t.taken = s.taken) : t.Covered counts := by
  unfold Covered at h ⊢
  rw [hhistory, hmailbox, htaken]
  exact h

/-- The start of a run discharges the trigger it was taken for. -/
theorem covered_starts {arm : Arm} {force : Bool} (hl : s.loop = .calling arm force)
    (h : s.Covered counts) (service : Service) :
    Covered counts { s with
      service := service, loop := .running arm, history := .started force :: s.history } := by
  intro howed
  obtain ⟨hforce, howed⟩ := Bool.and_eq_true_iff.mp howed
  rcases h howed with hmailbox | htaken
  · exact Or.inl hmailbox
  · unfold taken at htaken
    rw [hl] at htaken
    split at htaken
    · next heq =>
      cases heq
      rw [Option.any_some] at htaken
      rw [htaken] at hforce
      cases hforce
    · cases htaken

theorem covered_takes {force : Bool} (hnone : s.taken = none) (hm : s.mailbox = some force)
    (h : s.Covered counts) :
    Covered counts ({ s with mailbox := none }.goto (.calling .triggered force)) := by
  intro howed
  rcases h howed with hcounts | htaken
  · rw [hm] at hcounts
    exact Or.inr hcounts
  · rw [hnone] at htaken
    cases htaken

/-- What is still owed is taken, or replaced by what counts as well. -/
theorem covered_accepts {force : Bool} (hh : s.handler = some (.allowed force))
    (hkeeps : s.overwrites counts .accept = false) (h : s.Covered counts) :
    Covered counts { s with
      mailbox := some force
      handler := none
      history := .answered force (triggerStarted force) :: s.history } := by
  simp only [overwrites, hh] at hkeeps
  intro howed
  cases hforce : counts force with
  | true => exact Or.inl hforce
  | false =>
    have howed' : owed counts s.history = true := by simpa [owed, hforce] using howed
    cases htaken : s.taken.any counts with
    | true => exact Or.inr htaken
    | false =>
      -- what is owed would be in the mailbox, and the step would replace it
      rcases h howed' with hmailbox | hcounts
      · rw [hforce, hmailbox, htaken, howed'] at hkeeps
        cases hkeeps
      · rw [htaken] at hcounts
        cases hcounts

theorem covered_move {label : Label} (hmove : Move cfg forceReprocess s label t)
    (hkeeps : s.overwrites counts label = false) (h : s.Covered counts) : t.Covered counts := by
  cases hmove with
  | starts hl hs => exact covered_starts hl h _
  | takes hl hh hm => exact covered_takes (by simp [taken, hl]) hm h
  | accepts hh => exact covered_accepts hh hkeeps h
  | refuses hh hs => exact h
  | spawns hl | initialFails hl | initialEnds hl | laterFails hl | laterEnds hl | resets hl
  | leaves hl | goesOn hl | settles hl | staysFailed hl | enters hl | timerFires hl | sleeps hl
  | wakes hl | stops hl =>
    exact h.congr rfl rfl (by simp [taken, goto, setStatus, hl])
  | service | signals | monitorWaits | monitorStores | locks | allows | drops =>
    exact h.congr rfl rfl rfl

theorem not_covered_of_overwrites {label : Label} (hmove : Move cfg forceReprocess s label t)
    (hover : s.overwrites counts label = true) : ¬ t.Covered counts := by
  cases hmove with
  | @accepts force hh =>
    simp only [overwrites, hh, Bool.and_eq_true, Bool.not_eq_true'] at hover
    obtain ⟨⟨⟨hforce, -⟩, htaken⟩, howed⟩ := hover
    intro hcovered
    have hstill : owed counts (.answered force (triggerStarted force) :: s.history) = true :=
      Bool.or_eq_true_iff.mpr (Or.inr howed)
    rcases hcovered hstill with hmailbox | hcounts
    · cases hforce.symm.trans hmailbox
    · cases htaken.symm.trans hcounts
  | _ => cases hover

/-- A run that overwrites nothing keeps every request that counts. -/
theorem kept_run {s₀ : RunLoop} {labels : List Label} (h₀ : (machine cfg forceReprocess).init s₀)
    (hrun : (machine cfg forceReprocess).run s₀ labels = some s)
    (hkeeps : (machine cfg forceReprocess).Along (fun s label => s.overwrites counts label = false)
      s₀ labels) : s.Kept counts := by
  obtain ⟨service, -, -, -, rfl⟩ := h₀
  exact kept_iff.mpr (Machine.run_preserves _ (P := Covered counts)
    (fun _ _ _ hl hi hstep => covered_move (step_move hstep) hl hi) hkeeps
    (fun howed => nomatch (howed : owed counts [] = true)) hrun)

theorem overwrites_any (s : RunLoop) (label : Label) :
    s.overwrites (fun _ => true) label = false := by
  unfold overwrites
  split
  · split <;> rfl
  · rfl

end RunLoop

/-- Every accepted request is kept in every run. A request to reprocess is kept in every state of
a run exactly when no request without the flag replaces one that is still in the mailbox and
still owed. That a true in the mailbox is never replaced by a false follows short of one case:
a true that was taken answers for every request before its run, so with one taken, the true
that has come since may be replaced and nothing is lost by it. -/
theorem trigger_kept_unless_overwritten (cfg : ServiceConfig) (forceReprocess : Bool)
    (s₀ s : RunLoop) (labels : List RunLoop.Label)
    (h₀ : (RunLoop.machine cfg forceReprocess).init s₀)
    (hrun : (RunLoop.machine cfg forceReprocess).run s₀ labels = some s) :
    s.Kept (fun _ => true) ∧
    ((RunLoop.machine cfg forceReprocess).Along (fun s label => s.overwrites id label = false)
        s₀ labels ↔
      ∀ pre t, pre <+: labels → (RunLoop.machine cfg forceReprocess).run s₀ pre = some t →
        t.Kept id) := by
  refine ⟨RunLoop.kept_run h₀ hrun (Machine.along_of_forall _ RunLoop.overwrites_any _ _), ?_, ?_⟩
  · rintro hkeeps pre t ⟨post, rfl⟩ hpre
    exact RunLoop.kept_run h₀ hpre (Machine.along_append _ |>.mp hkeeps).1
  · intro hkept
    by_contra hover
    obtain ⟨pre, label, post, mid, rfl, hpre, -, hlabel⟩ := Machine.exists_of_not_along _ hrun hover
    obtain ⟨mid', hmid', hrest⟩ := Machine.run_append_some _ hrun
    cases hpre.symm.trans hmid'
    obtain ⟨t, hstep, -⟩ := Machine.run_cons_some _ hrest
    have hprefix : pre ++ [label] <+: pre ++ label :: post := ⟨post, by simp⟩
    exact RunLoop.not_covered_of_overwrites (RunLoop.step_move hstep) (Bool.not_eq_false _ ▸ hlabel)
      (RunLoop.kept_iff.mp (hkept _ t hprefix (Machine.run_snoc _ hpre hstep)))

/-! ## Two requests while the loop waits -/

section Processed

/-- The loop waits, and two requests are accepted before it looks at the mailbox. -/
def twoRequests (first second : Option Bool) : List RunLoop.Label :=
  firstRun ++ [.settle, .enterSelect, .lock first, .readStatus, .accept, .lock second, .readStatus,
    .accept, .pollTrigger, .startRun]

/-- The run that is started does not reprocess, and nothing is left that would. -/
theorem accepted_force_overwritten : ∃ s,
    (RunLoop.machine demoService false).init (RunLoop.initial processedService) ∧
    processedLoop (twoRequests (some true) none) = some s ∧ ¬ s.Kept id ∧ s.mailbox = none ∧
    s.service.run.force = false := by
  have hlost : (processedLoop (twoRequests (some true) none)).any (fun s =>
      RunLoop.owed id s.history && s.mailbox.isNone && s.taken.isNone && !s.service.run.force) =
        true := by decide +kernel
  obtain ⟨s, hrun, hs⟩ := (Option.any_eq_true _ _).mp hlost
  simp only [Bool.and_eq_true, Option.isNone_iff_eq_none, Bool.not_eq_true'] at hs
  obtain ⟨⟨⟨howed, hmailbox⟩, htaken⟩, hforce⟩ := hs
  refine ⟨s, ⟨processedService, rfl, rfl, rfl, rfl⟩, hrun, fun hkept => ?_, hmailbox, hforce⟩
  have hcovered := RunLoop.kept_iff.mp hkept howed
  rw [hmailbox, htaken] at hcovered
  cases hcovered with
  | inl h => cases h
  | inr h => cases h

/-- The other way round the flag is kept. -/
theorem trigger_kept_unless_overwritten_last : ∃ s,
    processedLoop (twoRequests none (some true)) = some s ∧ s.Kept (fun _ => true) ∧ s.Kept id ∧
    s.service.run.force = true := by
  have hforced : (processedLoop (twoRequests none (some true))).any (·.service.run.force) = true := by
    decide +kernel
  have hkeeps : (RunLoop.machine demoService false).checks
      (fun s label => !s.overwrites id label) (RunLoop.initial processedService)
      (twoRequests none (some true)) = true := by decide +kernel
  obtain ⟨s, hrun, hforce⟩ := (Option.any_eq_true _ _).mp hforced
  obtain ⟨hany, hkept⟩ := trigger_kept_unless_overwritten demoService false _ s _
    ⟨processedService, rfl, rfl, rfl, rfl⟩ hrun
  have halong := (Machine.along_of_checks _ hkeeps).imp fun s label h => by simpa using h
  exact ⟨s, hrun, hany, hkept.mp halong _ s (List.prefix_refl _) hrun, hforce⟩

end Processed

end MusicbrainzIngestion
