import Stylesheet.Compile

/-!
# Passing the call stack down

An evaluator that is handed the call stack as an argument. A body of a mixin is run under the stack
of its inclusion, and nothing is ever pushed or popped: the stack of the machine stays out of use.
-/

namespace Stylesheet

variable {σ : Type}

/-- The value of an expression under a call stack. -/
def Setting.valueUnder (setting : Setting σ) (stack : CallStack) (e : Expr) : Run σ Value := do
  let machine ← get
  Machine.onHost (e.eval setting machine.scopes stack)

mutual

/-- Runs a statement under a call stack. -/
def Statement.runUnder (setting : Setting σ) (runMixin : CallStack → List Statement → Run σ Unit)
    (stack : CallStack) : Statement → Run σ Unit
  | .assign _ name e => do
    Machine.onHost setting.checkCancelled
    let value ← setting.valueUnder stack e
    modify fun machine => { machine with scopes := machine.scopes.assign name value }
  | .warn range e => do
    Machine.onHost setting.checkCancelled
    let value ← setting.valueUnder stack e
    let span ← MonadExcept.ofExcept (setting.span range)
    setting.reportUnlessCancelled (Setting.warning (messageOf value) span false stack)
  | .debug range e => do
    Machine.onHost setting.checkCancelled
    let value ← setting.valueUnder stack e
    let span ← MonadExcept.ofExcept (setting.span range)
    setting.reportUnlessCancelled (.debug (messageOf value) ⟨span⟩)
  | .defineMixin _ name body => do
    Machine.onHost setting.checkCancelled
    modify fun machine => { machine with mixins := machine.mixins.insert name body }
  | .includeMixin range name => do
    Machine.onHost setting.checkCancelled
    let span ← MonadExcept.ofExcept (setting.span range)
    match (← get).mixins.get? name with
    | none => throw (.undefinedMixin name span)
    | some body =>
      Machine.bracket (·.scopes.locals)
        (fun machine => { machine with scopes := machine.scopes.isolate })
        (fun caller machine => { machine with scopes := { machine.scopes with locals := caller } })
        (runMixin (stack.push s!"{name}()" span) body)
  | .rule _ selector body => do
    Machine.onHost setting.checkCancelled
    let selector := resolveSelector (← get).selectors.head? selector
    Machine.bracket (·.currentRule) (Machine.enterRule selector) Machine.leaveRule
      (Statement.runAllUnder setting runMixin stack body)
  | .declaration range property e => do
    Machine.onHost setting.checkCancelled
    match (← get).currentRule with
    | none =>
      throw (.operation .declarationOutsideRule (← MonadExcept.ofExcept (setting.span range)))
    | some current =>
      let value ← setting.valueUnder stack e
      modify (Machine.declare current property value)

/-- Runs statements in order under a call stack. -/
def Statement.runAllUnder (setting : Setting σ)
    (runMixin : CallStack → List Statement → Run σ Unit) (stack : CallStack) :
    List Statement → Run σ Unit
  | [] => pure ()
  | statement :: statements => do
    statement.runUnder setting runMixin stack
    Statement.runAllUnder setting runMixin stack statements

end

/-- Runs the bodies of mixins, which may be nested up to a depth. -/
def Setting.runMixinUnder (setting : Setting σ) :
    Nat → CallStack → List Statement → Run σ Unit
  | 0 => fun _ _ => throw .tooDeep
  | depth + 1 => Statement.runAllUnder setting (setting.runMixinUnder depth)

/-- The text of the rules that statements make, evaluated under the empty stack. -/
def evaluateUnder (setting : Setting σ) (statements : List Statement) : Run σ String := do
  Statement.runAllUnder setting
    (setting.runMixinUnder (Statement.definitionsIn statements + recursionAllowance)) {} statements
  Machine.onHost setting.checkCancelled
  return CssRule.renderAll (← get).rules.toList

/-- The compilation that passes the call stack down. -/
def compileUnder (options : CompileOptions σ) (url : Option Url) (source : String) (host : σ) :
    Except CompileError String × σ :=
  let setting := options.setting url source
  match parse source with
  | .error error => (.error (parseFailure setting error), host)
  | .ok statements =>
    match evaluateUnder setting statements { host := host } with
    | .ok css machine => (.ok css, machine.host)
    | .error error machine => (.error error, machine.host)

end Stylesheet
