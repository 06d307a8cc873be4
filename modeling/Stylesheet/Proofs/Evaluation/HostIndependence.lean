import Stylesheet.Evaluation.Statement
import Stylesheet.Proofs.Evaluation.Script

/-!
# Evaluations are scripted

No part of an evaluation looks at the state of its host: what is asked of the host and what comes
of it depend on the statements, the machine without its host, and the spans of ranges alone.
-/

namespace Stylesheet

variable {α β κ : Type} {span : Range → Except CompileError Span}

/-! ## Expressions -/

/-- A division is announced in one step, or its span is at fault behind a poll. -/
theorem announceDivision_scripted (stack : CallStack) (range : Range) (left right : Value) :
    Scripted span fun _ setting => announceDivision setting stack range left right := by
  by_cases hnumbers : (left.isNumber && right.isNumber) = true
  · cases hrange : span range with
    | ok s =>
      let diagnostic := Setting.warning (divisionMessage left right) s true stack
      refine (Scripted.step (.report diagnostic)).congr ?_
      intro σ setting hspan
      rw [announceDivision, if_pos hnumbers, hspan, hrange]
      rfl
    | error error =>
      refine ((Scripted.step .poll).bind fun _ => Scripted.failure error).congr ?_
      intro σ setting hspan
      rw [announceDivision, if_pos hnumbers, hspan, hrange]
      rfl
  · refine (Scripted.value ()).congr ?_
    intro σ setting _
    rw [announceDivision, if_neg hnumbers]

theorem orFaultAt_scripted (range : Range) (result : Except OperationFault Value) :
    Scripted span fun _ setting => orFaultAt setting range result := by
  cases result with
  | ok value => exact Scripted.value value
  | error fault => exact Scripted.span_bind range fun s => Scripted.failure (.operation fault s)

/-- What remains of an operation once its operands have values. -/
theorem operation_scripted (stack : CallStack) (range : Range) (operator : Operator)
    (left right : Value) :
    Scripted span fun _ setting => (do
      if operator = .divide then announceDivision setting stack range left right
      orFaultAt setting range (Value.combine operator left right)) := by
  by_cases hdivide : operator = .divide
  · simp only [if_pos hdivide]
    exact (announceDivision_scripted stack range left right).bind fun _ =>
      orFaultAt_scripted range (Value.combine operator left right)
  · simp only [if_neg hdivide]
    exact orFaultAt_scripted range (Value.combine operator left right)

mutual

theorem Expr.eval_scripted (scopes : Scopes) (stack : CallStack) :
    (e : Expr) → Scripted span fun _ setting => e.eval setting scopes stack
  | .number _ value unit => Scripted.value (Value.number value unit)
  | .text _ s quoted => Scripted.value (Value.text s quoted)
  | .var range name => by
    cases hname : scopes.get? name with
    | some value =>
      refine (Scripted.value value).congr ?_
      intro σ setting _
      rw [Expr.eval, hname]
    | none =>
      refine (Scripted.span_bind range fun s =>
        Scripted.failure (.undefinedVariable name s)).congr ?_
      intro σ setting _
      rw [Expr.eval, hname]
  | .negate range operand => by
    refine ((operand.eval_scripted scopes stack).bind fun value =>
      orFaultAt_scripted range value.negate).congr ?_
    intro σ setting _
    rw [Expr.eval]
  | .list _ items => by
    refine ((Expr.evalAll_scripted scopes stack items).bind fun values =>
      Scripted.value (.list values)).congr ?_
    intro σ setting _
    rw [Expr.eval]
  | .binary range operator left right => by
    refine ((left.eval_scripted scopes stack).bind fun l =>
      (right.eval_scripted scopes stack).bind fun r =>
        operation_scripted stack range operator l r).congr ?_
    intro σ setting _
    rw [Expr.eval]

theorem Expr.evalAll_scripted (scopes : Scopes) (stack : CallStack) :
    (items : List Expr) → Scripted span fun _ setting => Expr.evalAll setting scopes stack items
  | [] => Scripted.value []
  | item :: items => by
    refine ((item.eval_scripted scopes stack).bind fun value =>
      (Expr.evalAll_scripted scopes stack items).bind fun values =>
        Scripted.value (value :: values)).congr ?_
    intro σ setting _
    rw [Expr.evalAll]

end

/-! ## Runs seen from the host -/

namespace Machine

variable {σ : Type}

/-- A machine without its host. -/
def bare (machine : Machine σ) : Machine Unit := { machine with host := () }

def withHost (machine : Machine Unit) (host : σ) : Machine σ := { machine with host := host }

/-- A run from a bare machine as an act of the host. Where it fails, the machine is given up. -/
def act (run : Run σ α) (machine : Machine Unit) : HostM CompileError σ (α × Machine Unit) :=
  fun host =>
    match run (machine.withHost host) with
    | .ok a after => .ok (a, after.bare) after.host
    | .error error after => .error error after.host

theorem act_bind (run : Run σ α) (next : α → Run σ β) (machine : Machine Unit) :
    act (run >>= next) machine = act run machine >>= fun p => act (next p.1) p.2 := by
  funext host
  simp only [act, bind, EStateM.bind]
  cases run (machine.withHost host) <;> rfl

theorem act_onHost (a : HostM CompileError σ α) (machine : Machine Unit) :
    act (onHost a) machine = a >>= fun value => pure (value, machine) := by
  funext host
  simp only [act, onHost, withHost, bind, EStateM.bind]
  cases a host <;> rfl

theorem act_ofExcept (result : Except CompileError α) (machine : Machine Unit) :
    act (MonadExcept.ofExcept result : Run σ α) machine =
      MonadExcept.ofExcept result >>= fun a => pure (a, machine) := by
  cases result <;> rfl

end Machine

/-- Whether a run is scripted from every machine. -/
def RunScripted (span : Range → Except CompileError Span)
    (run : (σ : Type) → Setting σ → Run σ α) : Prop :=
  ∀ machine : Machine Unit, Scripted span fun σ setting => Machine.act (run σ setting) machine

namespace RunScripted

theorem value (a : α) : RunScripted span fun _ _ => pure a :=
  fun machine => Scripted.value (a, machine)

theorem failure (error : CompileError) : RunScripted span fun σ _ => (throw error : Run σ α) :=
  fun _ => Scripted.failure error

theorem bind {run : (σ : Type) → Setting σ → Run σ α} {next : α → (σ : Type) → Setting σ → Run σ β}
    (hrun : RunScripted span run) (hnext : ∀ a, RunScripted span (next a)) :
    RunScripted span fun σ setting => run σ setting >>= fun a => next a σ setting := by
  intro machine
  refine ((hrun machine).bind fun p => hnext p.1 p.2).congr ?_
  intro σ setting _
  rw [Machine.act_bind]

theorem onHost {act : (σ : Type) → Setting σ → HostM CompileError σ α} (h : Scripted span act) :
    RunScripted span fun σ setting => Machine.onHost (act σ setting) := by
  intro machine
  refine (h.bind fun a => Scripted.value (a, machine)).congr ?_
  intro σ setting _
  rw [Machine.act_onHost]

theorem span_bind (range : Range) {next : Span → (σ : Type) → Setting σ → Run σ β}
    (hnext : ∀ s, RunScripted span (next s)) :
    RunScripted span fun σ setting =>
      MonadExcept.ofExcept (setting.span range) >>= fun s => next s σ setting := by
  intro machine
  refine ((Scripted.result (span range)).bind fun s => hnext s machine).congr ?_
  intro σ setting hspan
  rw [Machine.act_bind, Machine.act_ofExcept, hspan, bind_assoc]
  rfl

/-- A run that goes on from the machine, without a look at its host. -/
theorem get_bind {next : (σ : Type) → Setting σ → Machine σ → Run σ β}
    (hnext : ∀ machine : Machine Unit, Scripted span fun σ setting host =>
      Machine.act (next σ setting (machine.withHost host)) machine host) :
    RunScripted span fun σ setting => get >>= next σ setting :=
  hnext

/-- A change to the machine that leaves its host alone. -/
theorem change (f : (σ : Type) → Machine σ → Machine σ)
    (hf : ∀ σ (machine : Machine Unit) (host : σ),
      f σ (machine.withHost host) = (f Unit machine).withHost host) :
    RunScripted span fun σ _ => (modify (f σ) : Run σ Unit) := by
  intro machine
  refine (Scripted.value ((), f Unit machine)).congr ?_
  intro σ setting _
  funext host
  have h : Machine.act (modify (f σ) : Run σ Unit) machine host =
      .ok ((), (f σ (machine.withHost host)).bare) (f σ (machine.withHost host)).host := rfl
  rw [h, hf]
  rfl

theorem bracket (keep : (σ : Type) → Machine σ → κ) (enter : (σ : Type) → Machine σ → Machine σ)
    (leave : (σ : Type) → κ → Machine σ → Machine σ) {body : (σ : Type) → Setting σ → Run σ α}
    (hkeep : ∀ σ (machine : Machine Unit) (host : σ),
      keep σ (machine.withHost host) = keep Unit machine)
    (henter : ∀ σ (machine : Machine Unit) (host : σ),
      enter σ (machine.withHost host) = (enter Unit machine).withHost host)
    (hleave : ∀ σ kept (machine : Machine σ),
      leave σ kept machine = (leave Unit kept machine.bare).withHost machine.host)
    (hbody : RunScripted span body) :
    RunScripted span fun σ setting =>
      Machine.bracket (keep σ) (enter σ) (leave σ) (body σ setting) := by
  intro machine
  refine ((hbody (enter Unit machine)).bind fun p =>
    Scripted.value (p.1, leave Unit (keep Unit machine) p.2)).congr ?_
  intro σ setting _
  funext host
  change _ = EStateM.bind (Machine.act (body σ setting) (enter Unit machine)) _ host
  simp only [EStateM.bind, Machine.act, Machine.bracket, hkeep, henter]
  cases body σ setting ((enter Unit machine).withHost host) with
  | ok a after =>
    dsimp only
    rw [hleave]
    rfl
  | error error after =>
    dsimp only
    rw [hleave]
    rfl

end RunScripted

/-! ## Statements -/

theorem Setting.value_scripted (e : Expr) : RunScripted span fun _ setting => setting.value e :=
  RunScripted.get_bind fun machine =>
    RunScripted.onHost (e.eval_scripted machine.scopes machine.stack) machine

theorem Setting.checkCancelled_scripted :
    RunScripted span fun _ setting => Machine.onHost setting.checkCancelled :=
  RunScripted.onHost (Scripted.step .poll)

theorem Setting.reportUnlessCancelled_scripted (diagnostic : Diagnostic) :
    RunScripted span fun _ setting => setting.reportUnlessCancelled diagnostic :=
  RunScripted.onHost (Scripted.step (.report diagnostic))

section statements

variable {runMixin : (σ : Type) → Setting σ → List Statement → Run σ Unit}

mutual

theorem Statement.run_scripted
    (hmixin : ∀ body, RunScripted span fun σ setting => runMixin σ setting body) :
    (s : Statement) → RunScripted span fun σ setting => s.run setting (runMixin σ setting)
  | .assign _ name e => by
    simp only [Statement.run]
    refine Setting.checkCancelled_scripted.bind fun _ => (Setting.value_scripted e).bind fun v => ?_
    exact RunScripted.change
      (fun _ machine => { machine with scopes := machine.scopes.assign name v }) fun _ _ _ => rfl
  | .warn range e => by
    simp only [Statement.run]
    refine Setting.checkCancelled_scripted.bind fun _ => (Setting.value_scripted e).bind fun v => ?_
    refine RunScripted.span_bind range fun s => RunScripted.get_bind fun machine => ?_
    exact Setting.reportUnlessCancelled_scripted
      (Setting.warning (messageOf v) s false machine.stack) machine
  | .debug range e => by
    simp only [Statement.run]
    refine Setting.checkCancelled_scripted.bind fun _ => (Setting.value_scripted e).bind fun v => ?_
    exact RunScripted.span_bind range fun s =>
      Setting.reportUnlessCancelled_scripted (.debug (messageOf v) ⟨s⟩)
  | .defineMixin _ name body => by
    simp only [Statement.run]
    refine Setting.checkCancelled_scripted.bind fun _ => ?_
    exact RunScripted.change
      (fun _ machine => { machine with mixins := machine.mixins.insert name body }) fun _ _ _ => rfl
  | .includeMixin range name => by
    simp only [Statement.run]
    refine Setting.checkCancelled_scripted.bind fun _ => RunScripted.span_bind range fun s => ?_
    refine RunScripted.get_bind fun machine => ?_
    cases hname : machine.mixins.get? name with
    | none =>
      refine (RunScripted.failure (.undefinedMixin name s) machine).congr ?_
      intro σ setting _
      funext host
      have h : (machine.withHost host).mixins.get? name = none := hname
      simp only [h]
    | some body =>
      refine (RunScripted.bracket (fun _ machine => machine.scopes.locals)
        (fun _ => Machine.enterMixin name s) (fun _ => Machine.leaveMixin)
        (fun _ _ _ => rfl) (fun _ _ _ => rfl) (fun _ _ _ => rfl) (hmixin body) machine).congr ?_
      intro σ setting _
      funext host
      have h : (machine.withHost host).mixins.get? name = some body := hname
      simp only [h]
  | .rule _ selector body => by
    simp only [Statement.run]
    refine Setting.checkCancelled_scripted.bind fun _ => RunScripted.get_bind fun machine => ?_
    exact RunScripted.bracket (fun _ machine => machine.currentRule)
      (fun _ => Machine.enterRule (resolveSelector machine.selectors.head? selector))
      (fun _ => Machine.leaveRule) (fun _ _ _ => rfl) (fun _ _ _ => rfl) (fun _ _ _ => rfl)
      (Statement.runAll_scripted hmixin body) machine
  | .declaration range property e => by
    simp only [Statement.run]
    refine Setting.checkCancelled_scripted.bind fun _ => RunScripted.get_bind fun machine => ?_
    cases hrule : machine.currentRule with
    | none =>
      have hfault : RunScripted span fun σ setting => (do
          throw (.operation .declarationOutsideRule
            (← MonadExcept.ofExcept (setting.span range))) : Run σ Unit) :=
        RunScripted.span_bind range fun s =>
          RunScripted.failure (.operation .declarationOutsideRule s)
      refine (hfault machine).congr ?_
      intro σ setting _
      funext host
      have h : (machine.withHost host).currentRule = none := hrule
      simp only [h]
    | some current =>
      have hdeclare : RunScripted span fun σ setting => (do
          let value ← setting.value e
          modify (Machine.declare current property value) : Run σ Unit) :=
        (Setting.value_scripted e).bind fun v =>
          RunScripted.change (fun _ => Machine.declare current property v) fun _ _ _ => rfl
      refine (hdeclare machine).congr ?_
      intro σ setting _
      funext host
      have h : (machine.withHost host).currentRule = some current := hrule
      simp only [h]

theorem Statement.runAll_scripted
    (hmixin : ∀ body, RunScripted span fun σ setting => runMixin σ setting body) :
    (statements : List Statement) →
      RunScripted span fun σ setting => Statement.runAll setting (runMixin σ setting) statements
  | [] => by
    simp only [Statement.runAll]
    exact RunScripted.value ()
  | s :: statements => by
    simp only [Statement.runAll]
    exact (Statement.run_scripted hmixin s).bind fun _ =>
      Statement.runAll_scripted hmixin statements

end

end statements

theorem runBlock_scripted (depth : Nat) (statements : List Statement) :
    RunScripted span fun _ setting => runBlock setting depth statements := by
  induction depth generalizing statements with
  | zero => exact Statement.runAll_scripted (fun _ => RunScripted.failure .tooDeep) statements
  | succ depth ih => exact Statement.runAll_scripted ih statements

/-! ## Whole evaluations -/

/-- Whether a script that has a value asks last whether the host has cancelled. -/
def Script.EndsInPoll (script : Script α) : Prop :=
  ∀ a, script.result = .ok a → script.steps.getLast? = some .poll

/-- An evaluation is scripted, and asks last whether the host has cancelled. -/
theorem evaluate_scripted (span : Range → Except CompileError Span) (statements : List Statement)
    (machine : Machine Unit) :
    ∃ script : Script (String × Machine Unit), script.EndsInPoll ∧
      script.Describes span fun _ setting => Machine.act (evaluate setting statements) machine := by
  let depth := Statement.definitionsIn statements + recursionAllowance
  have hblock : RunScripted span fun _ setting => runBlock setting depth statements :=
    runBlock_scripted depth statements
  obtain ⟨script, hscript⟩ := hblock machine
  refine ⟨script.andThen fun p => ⟨[.poll], .ok (CssRule.renderAll p.2.rules.toList, p.2)⟩, ?_, ?_⟩
  · intro a ha
    cases hresult : script.result with
    | ok p => simp [Script.andThen, hresult]
    | error error => simp [Script.andThen, hresult] at ha
  · intro σ setting hspan
    rw [Script.run_andThen, ← hscript σ setting hspan]
    simp only [evaluate, Machine.act_bind, Machine.act_onHost, bind_assoc]
    apply congrArg (Machine.act (runBlock setting depth statements) machine >>= ·)
    funext p
    simp only [Script.run, Step.runAll, Step.run, bind_assoc, pure_bind]
    rfl

end Stylesheet
