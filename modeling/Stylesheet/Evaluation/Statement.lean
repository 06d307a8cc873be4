import Stylesheet.Evaluation.Expression

/-!
# Running statements

Statements run in order. A rule runs its body inside itself, and an inclusion runs the body that
its mixin has at the moment. How bodies of mixins run is a parameter of running a statement, so
that the nesting of inclusions is limited apart from the nesting of blocks.
-/

namespace Stylesheet

variable {σ : Type}

namespace Setting

/-- The value of an expression at this moment. -/
def value (setting : Setting σ) (e : Expr) : Run σ Value := do
  let machine ← get
  Machine.onHost (e.eval setting machine.scopes machine.stack)

/-- Hands a diagnostic to the host unless it has cancelled. -/
def reportUnlessCancelled (setting : Setting σ) (diagnostic : Diagnostic) : Run σ Unit :=
  Machine.onHost do
    setting.checkCancelled
    setting.deliver diagnostic

end Setting

mutual

/-- Runs a statement. -/
def Statement.run (setting : Setting σ) (runMixin : List Statement → Run σ Unit) :
    Statement → Run σ Unit
  | .assign _ name e => do
    Machine.onHost setting.checkCancelled
    let value ← setting.value e
    modify fun machine => { machine with scopes := machine.scopes.assign name value }
  | .warn range e => do
    Machine.onHost setting.checkCancelled
    let value ← setting.value e
    let span ← MonadExcept.ofExcept (setting.span range)
    setting.reportUnlessCancelled
      (Setting.warning (messageOf value) span false (← get).stack)
  | .debug range e => do
    Machine.onHost setting.checkCancelled
    let value ← setting.value e
    let span ← MonadExcept.ofExcept (setting.span range)
    setting.reportUnlessCancelled (.debug (messageOf value) ⟨span⟩)
  | .defineMixin _ name body => do
    Machine.onHost setting.checkCancelled
    modify fun machine => { machine with mixins := machine.mixins.insert name body }
  | .includeMixin range name => do
    Machine.onHost setting.checkCancelled
    let span ← MonadExcept.ofExcept (setting.span range)
    match (← get).mixins.get? name with
    | none => throw (.undefinedMixin name span)
    | some body =>
      Machine.bracket (·.scopes.locals) (Machine.enterMixin name span) Machine.leaveMixin
        (runMixin body)
  | .rule _ selector body => do
    Machine.onHost setting.checkCancelled
    let selector := resolveSelector (← get).selectors.head? selector
    Machine.bracket (·.currentRule) (Machine.enterRule selector) Machine.leaveRule
      (Statement.runAll setting runMixin body)
  | .declaration range property e => do
    Machine.onHost setting.checkCancelled
    match (← get).currentRule with
    | none =>
      throw (.operation .declarationOutsideRule (← MonadExcept.ofExcept (setting.span range)))
    | some current =>
      let value ← setting.value e
      modify (Machine.declare current property value)

/-- Runs statements in order. -/
def Statement.runAll (setting : Setting σ) (runMixin : List Statement → Run σ Unit) :
    List Statement → Run σ Unit
  | [] => pure ()
  | statement :: statements => do
    statement.run setting runMixin
    Statement.runAll setting runMixin statements

end

/-- Runs statements in which inclusions may be nested up to a depth. -/
def runBlock (setting : Setting σ) : Nat → List Statement → Run σ Unit
  | 0 => Statement.runAll setting fun _ => throw .tooDeep
  | depth + 1 => Statement.runAll setting (runBlock setting depth)

mutual

/-- The number of mixin definitions in a statement. -/
def Statement.definitions : Statement → Nat
  | .defineMixin _ _ body => 1 + Statement.definitionsIn body
  | .rule _ _ body => Statement.definitionsIn body
  | _ => 0

/-- The number of mixin definitions in statements. -/
def Statement.definitionsIn : List Statement → Nat
  | [] => 0
  | statement :: statements => statement.definitions + Statement.definitionsIn statements

end

/-- The depth to which mixins may include themselves, beyond a chain of all mixins. It gives every
run an end and is out of reach of a run that the host ends by an error or by cancelling. -/
def recursionAllowance : Nat := 1000000000000

/-- The text of the rules that statements make. A run whose last step is cancelled has no text. -/
def evaluate (setting : Setting σ) (statements : List Statement) : Run σ String := do
  runBlock setting (Statement.definitionsIn statements + recursionAllowance) statements
  Machine.onHost setting.checkCancelled
  return CssRule.renderAll (← get).rules.toList

end Stylesheet
