import Stylesheet.Evaluation.Machine

/-!
# Scripts

An evaluation asks two things of its host: whether it has cancelled, and to take a diagnostic. A
script lists what is asked, in order, and what comes of it in the end if the host neither cancels
nor fails. An act of an evaluation is scripted if one and the same script describes it for all
hosts, so that no host can change what it is asked except by ending the evaluation.
-/

namespace Stylesheet

variable {σ : Type} {α β : Type}

/-! ## Acts of a host -/

theorem bind_of_ok {ε : Type} {act : HostM ε σ α} {next : α → HostM ε σ β} {host host' : σ} {a : α}
    (h : act host = .ok a host') : (act >>= next) host = next a host' := by
  simp only [bind, EStateM.bind, h]

theorem bind_of_error {ε : Type} {act : HostM ε σ α} {next : α → HostM ε σ β} {host host' : σ}
    {error : ε} (h : act host = .error error host') :
    (act >>= next) host = .error error host' := by
  simp only [bind, EStateM.bind, h]

theorem get_bind {ε : Type} (next : σ → HostM ε σ β) (host : σ) :
    ((get : HostM ε σ σ) >>= next) host = next host host := rfl

theorem Setting.checkCancelled_apply (setting : Setting σ) (host : σ) :
    setting.checkCancelled host =
      if setting.isCancelled (setting.meanwhile host) then
        .error .cancelled (setting.meanwhile host)
      else .ok () (setting.meanwhile host) := by
  have hrun : setting.checkCancelled host =
      (if setting.isCancelled (setting.meanwhile host) then throw .cancelled else pure () :
        HostM _ _ _) (setting.meanwhile host) := rfl
  rw [hrun]
  split <;> rfl

theorem Setting.checkCancelled_of_true {setting : Setting σ} {host : σ}
    (h : setting.isCancelled (setting.meanwhile host) = true) :
    setting.checkCancelled host = .error .cancelled (setting.meanwhile host) := by
  rw [checkCancelled_apply, if_pos h]

theorem Setting.checkCancelled_of_false {setting : Setting σ} {host : σ}
    (h : setting.isCancelled (setting.meanwhile host) = false) :
    setting.checkCancelled host = .ok () (setting.meanwhile host) := by
  rw [checkCancelled_apply, if_neg (Bool.eq_false_iff.mp h)]

/-- The machine when its host is asked whether it has cancelled. -/
def Machine.polled (setting : Setting σ) (machine : Machine σ) : Machine σ :=
  { machine with host := setting.meanwhile machine.host }

theorem Machine.check_of_true {setting : Setting σ} {machine : Machine σ}
    (h : setting.isCancelled (machine.polled setting).host = true) :
    Machine.onHost setting.checkCancelled machine = .error .cancelled (machine.polled setting) := by
  rw [Machine.onHost, Setting.checkCancelled_of_true h]
  rfl

theorem Machine.check_of_false {setting : Setting σ} {machine : Machine σ}
    (h : setting.isCancelled (machine.polled setting).host = false) :
    Machine.onHost setting.checkCancelled machine = .ok () (machine.polled setting) := by
  rw [Machine.onHost, Setting.checkCancelled_of_false h]
  rfl

/-! ## Steps -/

/-- What an evaluation can ask of its host. -/
inductive Step where
  /-- Whether it has cancelled. -/
  | poll
  /-- To take a diagnostic, unless it has cancelled. -/
  | report (diagnostic : Diagnostic)
deriving DecidableEq

namespace Step

def run (setting : Setting σ) : Step → HostM CompileError σ Unit
  | poll => setting.checkCancelled
  | report diagnostic => do
    setting.checkCancelled
    setting.deliver diagnostic

def runAll (setting : Setting σ) : List Step → HostM CompileError σ Unit
  | [] => pure ()
  | step :: steps => do
    step.run setting
    runAll setting steps

def diagnostic? : Step → Option Diagnostic
  | poll => none
  | report diagnostic => some diagnostic

/-- The diagnostics that steps report, in order. -/
def reported (steps : List Step) : List Diagnostic := steps.filterMap diagnostic?

@[simp] theorem reported_nil : reported [] = [] := rfl

@[simp] theorem reported_poll (steps : List Step) : reported (.poll :: steps) = reported steps :=
  rfl

@[simp] theorem reported_report (diagnostic : Diagnostic) (steps : List Step) :
    reported (.report diagnostic :: steps) = diagnostic :: reported steps := rfl

theorem runAll_append (setting : Setting σ) (steps more : List Step) :
    runAll setting (steps ++ more) = (do
      runAll setting steps
      runAll setting more) := by
  induction steps with
  | nil =>
    rw [List.nil_append, runAll, pure_bind]
  | cons step steps ih =>
    rw [List.cons_append, runAll, runAll, ih, bind_assoc]

section

variable {setting : Setting σ} {host host' : σ}

theorem runAll_poll (h : setting.isCancelled (setting.meanwhile host) = false)
    (steps : List Step) :
    runAll setting (.poll :: steps) host = runAll setting steps (setting.meanwhile host) :=
  bind_of_ok (Setting.checkCancelled_of_false h)

theorem runAll_report (h : setting.isCancelled (setting.meanwhile host) = false)
    {diagnostic : Diagnostic}
    (hdeliver : setting.deliver diagnostic (setting.meanwhile host) = .ok () host')
    (steps : List Step) :
    runAll setting (.report diagnostic :: steps) host = runAll setting steps host' :=
  bind_of_ok ((bind_of_ok (Setting.checkCancelled_of_false h)).trans hdeliver)

theorem runAll_report_of_error (h : setting.isCancelled (setting.meanwhile host) = false)
    {diagnostic : Diagnostic} {error : CompileError}
    (hdeliver : setting.deliver diagnostic (setting.meanwhile host) = .error error host')
    (steps : List Step) : runAll setting (.report diagnostic :: steps) host = .error error host' :=
  bind_of_error ((bind_of_ok (Setting.checkCancelled_of_false h)).trans hdeliver)

/-- A host that has cancelled is asked for nothing more. -/
theorem runAll_cons_of_isCancelled (h : setting.isCancelled (setting.meanwhile host) = true)
    (step : Step) (steps : List Step) :
    runAll setting (step :: steps) host = .error .cancelled (setting.meanwhile host) := by
  cases step with
  | poll => exact bind_of_error (Setting.checkCancelled_of_true h)
  | report diagnostic =>
    exact bind_of_error (bind_of_error (Setting.checkCancelled_of_true h))

end

/-- A host that neither cancels nor fails lets steps come to their end. What can be told of the host
from the diagnostics that it took so far can be told of it after them. -/
theorem exists_runAll {setting : Setting σ} {told : List Diagnostic → σ → Prop}
    (hfree : ∀ host, setting.isCancelled host = false)
    (hmeanwhile : ∀ taken host, told taken host → told taken (setting.meanwhile host))
    (htakes : ∀ taken diagnostic host, told taken host → ∃ host',
      setting.deliver diagnostic host = .ok () host' ∧ told (taken ++ [diagnostic]) host')
    (steps : List Step) (taken : List Diagnostic) (host : σ) (htold : told taken host) :
    ∃ host', runAll setting steps host = .ok () host' ∧ told (taken ++ reported steps) host' := by
  induction steps generalizing taken host with
  | nil => exact ⟨host, rfl, by simpa using htold⟩
  | cons step steps ih =>
    cases step with
    | poll =>
      rw [runAll_poll (hfree _)]
      exact ih taken _ (hmeanwhile taken host htold)
    | report diagnostic =>
      obtain ⟨next, hdeliver, hnext⟩ := htakes taken diagnostic _ (hmeanwhile taken host htold)
      obtain ⟨host', hrun, hend⟩ := ih _ next hnext
      refine ⟨host', (runAll_report (hfree _) hdeliver steps).trans hrun, ?_⟩
      rwa [reported_report, List.append_cons]

/-- Two hosts that take diagnostics alike, as long as the first one refuses none, go through steps
together: to the end, or up to the first diagnostic that is refused. -/
theorem runAll_or_refused {limited free : Setting σ} {told : List Diagnostic → σ → Prop}
    {refuses : Diagnostic → σ → Prop}
    (hfree : ∀ host, limited.isCancelled host = false ∧ free.isCancelled host = false)
    (hmeanwhile : ∀ host, limited.meanwhile host = free.meanwhile host)
    (hkeeps : ∀ taken host, told taken host → told taken (free.meanwhile host))
    (htakes : ∀ taken diagnostic host, told taken host → ¬ refuses diagnostic host →
      ∃ host', limited.deliver diagnostic host = .ok () host' ∧
        free.deliver diagnostic host = .ok () host' ∧ told (taken ++ [diagnostic]) host')
    (hrefuses : ∀ taken diagnostic host, told taken host → refuses diagnostic host →
      ∃ error host', limited.deliver diagnostic host = .error error host')
    (steps : List Step) (taken : List Diagnostic) (host : σ) (htold : told taken host) :
    (∃ host', runAll limited steps host = .ok () host' ∧ runAll free steps host = .ok () host' ∧
        told (taken ++ reported steps) host') ∨
      ∃ before diagnostic after host₁ error host₂,
        reported steps = before ++ diagnostic :: after ∧ told (taken ++ before) host₁ ∧
        refuses diagnostic host₁ ∧ limited.deliver diagnostic host₁ = .error error host₂ ∧
        runAll limited steps host = .error error host₂ := by
  induction steps generalizing taken host with
  | nil => exact .inl ⟨host, rfl, rfl, by simpa using htold⟩
  | cons step steps ih =>
    obtain ⟨hlimited, hfree'⟩ := hfree (free.meanwhile host)
    rw [← hmeanwhile] at hlimited
    have htold' := hkeeps taken host htold
    cases step with
    | poll =>
      rw [runAll_poll hlimited, runAll_poll hfree', hmeanwhile]
      exact ih taken _ htold'
    | report diagnostic =>
      by_cases hrefused : refuses diagnostic (free.meanwhile host)
      · obtain ⟨error, host₂, hdeliver⟩ := hrefuses taken diagnostic _ htold' hrefused
        refine .inr ⟨[], diagnostic, reported steps, _, error, host₂, rfl, ?_, hrefused, hdeliver,
          ?_⟩
        · rwa [List.append_nil]
        · rw [← hmeanwhile] at hdeliver
          exact runAll_report_of_error hlimited hdeliver steps
      · obtain ⟨next, hdeliver, hdeliver', hnext⟩ := htakes taken diagnostic _ htold' hrefused
        rw [← hmeanwhile] at hdeliver
        rw [runAll_report hlimited hdeliver, runAll_report hfree' hdeliver', reported_report]
        obtain ⟨host', hend, hend', htold⟩ |
          ⟨before, last, after, host₁, error, host₂, hsplit, htold, hrest⟩ := ih _ next hnext
        · exact .inl ⟨host', hend, hend', by rwa [List.append_cons]⟩
        · refine .inr ⟨diagnostic :: before, last, after, host₁, error, host₂, ?_, ?_, hrest⟩
          · rw [hsplit, List.cons_append]
          · rwa [List.append_cons]

end Step

/-! ## Scripts -/

/-- What is asked of a host and, if it lets the script end, the result. -/
structure Script (α : Type) where
  steps : List Step
  result : Except CompileError α

namespace Script

def run (setting : Setting σ) (script : Script α) : HostM CompileError σ α := do
  Step.runAll setting script.steps
  MonadExcept.ofExcept script.result

/-- A script that goes on, from its value, as another one. -/
def andThen (script : Script α) (next : α → Script β) : Script β :=
  match script.result with
  | .ok a => ⟨script.steps ++ (next a).steps, (next a).result⟩
  | .error error => ⟨script.steps, .error error⟩

theorem run_andThen (setting : Setting σ) (script : Script α) (next : α → Script β) :
    (script.andThen next).run setting = script.run setting >>= fun a => (next a).run setting := by
  obtain ⟨steps, result⟩ := script
  cases result with
  | ok a =>
    simp only [andThen, run, Step.runAll_append, bind_assoc]
    rfl
  | error error =>
    simp only [andThen, run, bind_assoc]
    rfl

/-- Whether a script describes what an act does with every host, where the ranges of the source
text have the given spans. -/
def Describes (span : Range → Except CompileError Span) (script : Script α)
    (act : (σ : Type) → Setting σ → HostM CompileError σ α) : Prop :=
  ∀ σ (setting : Setting σ), setting.span = span → act σ setting = script.run setting

end Script

/-! ## Scripted acts -/

/-- Whether some script describes an act. -/
def Scripted (span : Range → Except CompileError Span)
    (act : (σ : Type) → Setting σ → HostM CompileError σ α) : Prop :=
  ∃ script : Script α, script.Describes span act

namespace Scripted

variable {span : Range → Except CompileError Span}

theorem congr {act act' : (σ : Type) → Setting σ → HostM CompileError σ α}
    (h : Scripted span act')
    (heq : ∀ σ (setting : Setting σ), setting.span = span → act σ setting = act' σ setting) :
    Scripted span act := by
  obtain ⟨script, hscript⟩ := h
  exact ⟨script, fun σ setting hspan =>
    (heq σ setting hspan).trans (hscript σ setting hspan)⟩

/-- An act that leaves the host alone. -/
theorem result (result : Except CompileError α) :
    Scripted span fun _ _ => MonadExcept.ofExcept result := by
  refine ⟨⟨[], result⟩, ?_⟩
  intro σ setting _
  rw [Script.run, Step.runAll, pure_bind]

theorem value (a : α) : Scripted span fun _ _ => pure a := result (.ok a)

theorem failure (error : CompileError) : Scripted span fun _ _ => (throw error : HostM _ _ α) :=
  result (.error error)

/-- A step of a script. -/
theorem step (step : Step) : Scripted span fun _ setting => step.run setting := by
  refine ⟨⟨[step], .ok ()⟩, ?_⟩
  intro σ setting _
  simp only [Script.run, Step.runAll]
  exact ((bind_assoc ..).trans (bind_pure (step.run setting))).symm

theorem bind {act : (σ : Type) → Setting σ → HostM CompileError σ α}
    {next : α → (σ : Type) → Setting σ → HostM CompileError σ β} (hact : Scripted span act)
    (hnext : ∀ a, Scripted span (next a)) :
    Scripted span fun σ setting => act σ setting >>= fun a => next a σ setting := by
  obtain ⟨script, hscript⟩ := hact
  obtain ⟨scripts, hscripts⟩ := Classical.skolem.mp hnext
  refine ⟨script.andThen scripts, ?_⟩
  intro σ setting hspan
  have heq : (fun a => next a σ setting) = fun a => (scripts a).run setting :=
    funext fun a => hscripts a σ setting hspan
  dsimp only
  rw [Script.run_andThen, ← hscript σ setting hspan, heq]

/-- An act that goes on from the span of a range. -/
theorem span_bind (range : Range)
    {next : Span → (σ : Type) → Setting σ → HostM CompileError σ β}
    (hnext : ∀ s, Scripted span (next s)) :
    Scripted span fun σ setting =>
      MonadExcept.ofExcept (setting.span range) >>= fun s => next s σ setting := by
  refine ((result (span range)).bind hnext).congr ?_
  intro σ setting hspan
  rw [hspan]

end Scripted

end Stylesheet
