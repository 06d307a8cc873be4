/-!
# Syntax trees

A stylesheet is a list of statements. Every node keeps the range of its source text, in bytes.
-/

namespace Stylesheet

/-- A stretch of a source text, from one byte offset up to another. -/
structure Range where
  start : Nat
  stop : Nat
deriving DecidableEq, Repr

/-- The smallest range that covers two. -/
def Range.cover (a b : Range) : Range := ⟨min a.start b.start, max a.stop b.stop⟩

inductive Operator where
  | add
  | subtract
  | multiply
  | divide
deriving DecidableEq, Repr

def Operator.symbol : Operator → String
  | .add => "+"
  | .subtract => "-"
  | .multiply => "*"
  | .divide => "/"

inductive Expr where
  | number (range : Range) (value : Float) (unit : Option String)
  | text (range : Range) (text : String) (quoted : Bool)
  | var (range : Range) (name : String)
  | binary (range : Range) (operator : Operator) (left right : Expr)
  | negate (range : Range) (operand : Expr)
  /-- Values separated by blanks. -/
  | list (range : Range) (items : List Expr)

namespace Expr

def range : Expr → Range
  | number range .. | text range .. | var range .. | binary range .. | negate range ..
  | list range .. => range

/-- The same expression over another range, as parentheses make it. -/
def withRange (range : Range) : Expr → Expr
  | number _ value unit => number range value unit
  | text _ s quoted => text range s quoted
  | var _ name => var range name
  | binary _ operator left right => binary range operator left right
  | negate _ operand => negate range operand
  | list _ items => list range items

/-- The operation on two operands, over the range that covers both. -/
def join (left : Expr) (operator : Operator) (right : Expr) : Expr :=
  binary (left.range.cover right.range) operator left right

@[simp] theorem range_withRange (range : Range) (e : Expr) : (e.withRange range).range = range := by
  cases e <;> rfl

end Expr

/-- A statement starts at its first token. One that ends in a semicolon has the range up to the
last token before it. -/
inductive Statement where
  | assign (range : Range) (name : String) (value : Expr)
  | warn (range : Range) (value : Expr)
  | debug (range : Range) (value : Expr)
  | defineMixin (range : Range) (name : String) (body : List Statement)
  | includeMixin (range : Range) (name : String)
  | rule (range : Range) (selector : String) (body : List Statement)
  | declaration (range : Range) (property : String) (value : Expr)

namespace Statement

def range : Statement → Range
  | assign range .. | warn range .. | debug range .. | defineMixin range .. | includeMixin range ..
  | rule range .. | declaration range .. => range

end Statement

end Stylesheet
