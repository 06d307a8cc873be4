import Stylesheet.Evaluation.Machine

/-!
# Evaluating expressions

Operands are evaluated from left to right. The value of an expression depends on the variables
alone; all that its evaluation does to the world is to announce each division of two numbers.
-/

namespace Stylesheet

variable {σ : Type}

/-- What is said about a division. -/
def divisionMessage (left right : Value) : String :=
  "Using / for division is deprecated and will be removed in a future release. " ++
    s!"Recommendation: math.div({left.display}, {right.display})"

/-- A division of two numbers is announced before it is carried out. -/
def announceDivision (setting : Setting σ) (stack : CallStack) (range : Range)
    (left right : Value) : HostM CompileError σ Unit := do
  if left.isNumber && right.isNumber then
    setting.checkCancelled
    let span ← MonadExcept.ofExcept (setting.span range)
    setting.deliver (Setting.warning (divisionMessage left right) span true stack)

/-- A result, or its fault at the span of a range. -/
def orFaultAt (setting : Setting σ) (range : Range) (result : Except OperationFault Value) :
    HostM CompileError σ Value :=
  match result with
  | .ok value => pure value
  | .error fault => do throw (.operation fault (← MonadExcept.ofExcept (setting.span range)))

namespace Expr

mutual

def eval (setting : Setting σ) (scopes : Scopes) (stack : CallStack) :
    Expr → HostM CompileError σ Value
  | number _ value unit => pure (.number value unit)
  | text _ s quoted => pure (.text s quoted)
  | var range name =>
    match scopes.get? name with
    | some value => pure value
    | none => do
      throw (.undefinedVariable name (← MonadExcept.ofExcept (setting.span range)))
  | negate range operand => do
    orFaultAt setting range (← operand.eval setting scopes stack).negate
  | list _ items => do return .list (← evalAll setting scopes stack items)
  | binary range operator left right => do
    let left ← left.eval setting scopes stack
    let right ← right.eval setting scopes stack
    if operator = .divide then announceDivision setting stack range left right
    orFaultAt setting range (Value.combine operator left right)

def evalAll (setting : Setting σ) (scopes : Scopes) (stack : CallStack) :
    List Expr → HostM CompileError σ (List Value)
  | [] => pure []
  | item :: items => do
    let value ← item.eval setting scopes stack
    let values ← evalAll setting scopes stack items
    return value :: values

end

end Expr

end Stylesheet
