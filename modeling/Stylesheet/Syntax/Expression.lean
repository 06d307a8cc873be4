import Stylesheet.Syntax.Cursor

/-!
# Parsing expressions

An expression is a list of one or more sums, a sum has products, a product has factors, and a
factor may be negated. The functions below descend through these levels; each is as near to the
end as the one above it, or nearer.
-/

namespace Stylesheet.Cursor

/-! ## Leaves -/

/-- A number, if one stands here. -/
def number? (c : Cursor) : Option (Parsed Expr c.size) :=
  let number := Lexeme.number c.rest
  if h : 0 < number.length ∧ number.isPresent then
    let next := c.skip number.length
    let unit := if number.unit = [] then none else some (String.ofList number.unit)
    some ⟨.number ⟨c.offset, next.offset⟩ number.value unit, next, by
      refine size_skip_lt h.1 fun hnil => ?_
      simp [number, hnil, Lexeme.number, Lexeme.Number.length] at h⟩
  else none

/-- A string, whose opening quote stands here. -/
def string (c : Cursor) (quote : Char) (h : c.rest ≠ []) : Parse Expr c.size :=
  match Lexeme.stringRest quote (c.rest.drop 1) with
  | .closed text length =>
    let next := c.skip (1 + length)
    .ok ⟨.text ⟨c.offset, next.offset⟩ (String.ofList text) true, next,
      size_skip_lt (Nat.add_pos_left Nat.one_pos length) h⟩
  | .unterminated length => .error ⟨.unterminatedString, c.offset, (c.skip (1 + length)).offset⟩

/-- A variable, whose dollar sign stands here. -/
def reference (c : Cursor) : Parse Expr c.size := do
  let ⟨name, next, h⟩ ← (c.skip 1).ident .variableName
  return ⟨.var ⟨c.offset, next.offset⟩ name, next, Nat.lt_of_lt_of_le h (c.size_skip_le 1)⟩

/-- A color or the like, whose hash stands here. -/
def hash (c : Cursor) (h : c.rest ≠ []) : Parsed Expr c.size :=
  let length := Lexeme.hashLength c.rest
  let next := c.skip length
  ⟨.text ⟨c.offset, next.offset⟩ (String.ofList (c.rest.take length)) false, next,
    size_skip_lt (by simp only [length, Lexeme.hashLength]; omega) h⟩

/-- A word, which is a string without quotes. -/
def word (c : Cursor) : Parse Expr c.size := do
  let ⟨name, next, h⟩ ← c.ident .expression
  return ⟨.text ⟨c.offset, next.offset⟩ name false, next, h⟩

/-! ## Operators -/

/-- Whether the minus that stands here subtracts. One with a blank in front of it and none behind
it starts a new item of a list. -/
def isBinaryMinus (c : Cursor) : Bool :=
  c.peekSecond?.any Text.isBlank || !c.previous.any Text.isBlank

/-- Whether the minus that stands here negates what follows. -/
def isNegation (c : Cursor) : Bool :=
  c.peek? == some '-' && c.peekSecond?.any fun d => d.isDigit || ".$(".toList.contains d

/-- The operator between two products, if one stands here. -/
def additive? (c : Cursor) : Option Operator :=
  match c.peek? with
  | some '+' => some .add
  | some '-' => if c.isBinaryMinus then some .subtract else none
  | _ => none

/-- The operator between two factors, if one stands here. -/
def multiplicative? (c : Cursor) : Option Operator :=
  match c.peek? with
  | some '*' => some .multiply
  | some '/' => some .divide
  | _ => none

theorem rest_ne_nil_of_peek? {c : Cursor} {d : Char} (h : c.peek? = some d) : c.rest ≠ [] := by
  intro hnil
  simp [peek?, hnil] at h

theorem rest_ne_nil_of_additive? {c : Cursor} {o : Operator} (h : c.additive? = some o) :
    c.rest ≠ [] := by
  intro hnil
  simp [additive?, peek?, hnil] at h

theorem rest_ne_nil_of_multiplicative? {c : Cursor} {o : Operator}
    (h : c.multiplicative? = some o) : c.rest ≠ [] := by
  intro hnil
  simp [multiplicative?, peek?, hnil] at h

theorem rest_ne_nil_of_isNegation {c : Cursor} (h : c.isNegation = true) : c.rest ≠ [] := by
  intro hnil
  simp [isNegation, peek?, hnil] at h

theorem size_skipTrivia_skip_lt {c : Cursor} (h : c.skipTrivia.rest ≠ []) :
    (c.skipTrivia.skip 1).size < c.size :=
  Nat.lt_of_lt_of_le (size_skip_lt Nat.one_pos h) c.size_skipTrivia_le

/-! ## Levels -/

mutual

/-- One or more sums. A single one is no list. -/
def expr (c : Cursor) : Parse Expr c.size := do
  let ⟨first, next, h⟩ ← c.sum
  let ⟨more, last, h'⟩ ← next.items
  match more.getLast? with
  | none => return ⟨first, last, by omega⟩
  | some final =>
    return ⟨.list (first.range.cover final.range) (first :: more), last, by omega⟩
termination_by (c.size, 5)

/-- The further items of a list. -/
def items (c : Cursor) : Parse (List Expr) (c.size + 1) := do
  have hc := c.size_skipTrivia_le
  if c.skipTrivia.peek?.any Lexeme.startsItem then
    let ⟨item, next, h⟩ ← c.skipTrivia.sum
    let ⟨more, last, h'⟩ ← next.items
    return ⟨item :: more, last, by omega⟩
  else return ⟨[], c.skipTrivia, c.size_skipTrivia_lt⟩
termination_by (c.size, 5)
decreasing_by
  · exact Prod.Lex.right' _ hc (by omega)
  · exact Prod.Lex.left _ _ (by omega)

/-- Products joined by `+` and `-`. -/
def sum (c : Cursor) : Parse Expr c.size := do
  let ⟨left, next, h⟩ ← c.product
  let ⟨value, last, h'⟩ ← next.sumFrom left
  return ⟨value, last, by omega⟩
termination_by (c.size, 4)

/-- What follows the left operand of a sum. -/
def sumFrom (left : Expr) (c : Cursor) : Parse Expr (c.size + 1) :=
  match h : c.skipTrivia.additive? with
  | none => return ⟨left, c.skipTrivia, c.size_skipTrivia_lt⟩
  | some operator => do
    have hc := size_skipTrivia_skip_lt (rest_ne_nil_of_additive? h)
    let ⟨right, next, h⟩ ← (c.skipTrivia.skip 1).product
    let ⟨value, last, h'⟩ ← next.sumFrom (left.join operator right)
    return ⟨value, last, by omega⟩
termination_by (c.size, 4)

/-- Factors joined by `*` and `/`. -/
def product (c : Cursor) : Parse Expr c.size := do
  let ⟨left, next, h⟩ ← c.factor
  let ⟨value, last, h'⟩ ← next.productFrom left
  return ⟨value, last, by omega⟩
termination_by (c.size, 3)

/-- What follows the left operand of a product. -/
def productFrom (left : Expr) (c : Cursor) : Parse Expr (c.size + 1) :=
  match h : c.skipTrivia.multiplicative? with
  | none => return ⟨left, c.skipTrivia, c.size_skipTrivia_lt⟩
  | some operator => do
    have hc := size_skipTrivia_skip_lt (rest_ne_nil_of_multiplicative? h)
    let ⟨right, next, h⟩ ← (c.skipTrivia.skip 1).factor
    let ⟨value, last, h'⟩ ← next.productFrom (left.join operator right)
    return ⟨value, last, by omega⟩
termination_by (c.size, 3)

/-- A negated factor or a primary expression. -/
def factor (c : Cursor) : Parse Expr c.size := do
  have hc := c.size_skipTrivia_le
  if h : c.skipTrivia.isNegation then
    have hc' := size_skipTrivia_skip_lt (rest_ne_nil_of_isNegation h)
    let ⟨operand, next, h⟩ ← (c.skipTrivia.skip 1).factor
    return ⟨.negate ⟨c.skipTrivia.offset, operand.range.stop⟩ operand, next, by omega⟩
  else
    let ⟨value, next, h⟩ ← c.skipTrivia.primary
    return ⟨value, next, by omega⟩
termination_by (c.size, 2)
decreasing_by
  · exact Prod.Lex.left _ _ hc'
  · exact Prod.Lex.right' _ hc (by omega)

/-- A leaf, or an expression in parentheses, which takes their range. -/
def primary (c : Cursor) : Parse Expr c.size :=
  match c.number? with
  | some parsed => .ok parsed
  | none =>
    match h : c.peek? with
    | some '"' => c.string '"' (rest_ne_nil_of_peek? h)
    | some '\'' => c.string '\'' (rest_ne_nil_of_peek? h)
    | some '$' => c.reference
    | some '#' => .ok (c.hash (rest_ne_nil_of_peek? h))
    | some '(' => do
      have hc : (c.skip 1).size < c.size := size_skip_lt Nat.one_pos (rest_ne_nil_of_peek? h)
      let ⟨inner, next, h⟩ ← (c.skip 1).expr
      let ⟨_, last, h'⟩ ← next.expect ')'
      return ⟨inner.withRange ⟨c.offset, last.offset⟩, last, by omega⟩
    | _ => c.word
termination_by (c.size, 1)

end

end Stylesheet.Cursor
