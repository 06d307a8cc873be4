import Stylesheet.Syntax.Tree
import Stylesheet.Value

/-!
# Operations on values

Numbers are combined together with their units, a text takes in what is added to it, and nothing
else can be combined.
-/

namespace Stylesheet

/-- Why an operation has no result, or a declaration no place. -/
inductive OperationFault where
  | negation (operand : String)
  | undefined (operator : Operator) (left right : String)
  | incompatibleUnits (operator : Operator) (left right : String)
  | declarationOutsideRule
deriving DecidableEq, Repr

def OperationFault.message : OperationFault → String
  | .negation operand => s!"Undefined operation \"-{operand}\"."
  | .undefined operator left right =>
    s!"Undefined operation \"{left} {operator.symbol} {right}\"."
  | .incompatibleUnits operator left right =>
    s!"Incompatible units {left} and {right} for `{operator.symbol}`."
  | .declarationOutsideRule => "Declarations may only be used within style rules."

namespace Operator

def apply : Operator → Float → Float → Float
  | .add, a, b => a + b
  | .subtract, a, b => a - b
  | .multiply, a, b => a * b
  | .divide, a, b => a / b

/-- The unit of a result. Sums need one common unit, products take at most one unit, and a quotient
cancels equal units. A number without unit fits everywhere but under a unit. -/
def unit (operator : Operator) (left right : Option String) :
    Except OperationFault (Option String) :=
  match operator, left, right with
  | .add, some l, some r | .subtract, some l, some r =>
    if l = r then .ok (some l) else .error (.incompatibleUnits operator l r)
  | .multiply, some l, some r => .error (.incompatibleUnits operator l r)
  | .divide, some l, some r =>
    if l = r then .ok none else .error (.incompatibleUnits operator l r)
  | .divide, none, some r => .error (.incompatibleUnits operator "(none)" r)
  | _, l, r => .ok (l.or r)

end Operator

namespace Value

/-- The negation of a number. -/
def negate : Value → Except OperationFault Value
  | number value unit => .ok (number (-value) unit)
  | other => .error (.negation other.display)

/-- The result of an operation. -/
def combine (operator : Operator) (left right : Value) : Except OperationFault Value :=
  match left, right with
  | number a l, number b r => do return number (operator.apply a b) (← operator.unit l r)
  | text s quoted, right =>
    if operator = .add then .ok (text (s ++ right.toText) quoted)
    else .error (.undefined operator left.display right.display)
  | left, text s quoted =>
    if operator = .add then .ok (text (left.toText ++ s) quoted)
    else .error (.undefined operator left.display right.display)
  | left, right => .error (.undefined operator left.display right.display)

end Value

end Stylesheet
