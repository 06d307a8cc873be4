import Stylesheet.Syntax.Expression

/-!
# Parsing stylesheets

A statement is told by its first character, and inside a block a declaration is told from a nested
rule by which of `;`, `}` and an opening brace comes first. `parse` accepts a source text as a
whole or reports the first error in it.
-/

namespace Stylesheet.Cursor

/-! ## Statements without a body -/

/-- An assignment, whose dollar sign stands here. -/
def assignment (c : Cursor) : Parse Statement c.size := do
  let ⟨name, afterName, h₁⟩ ← (c.skip 1).ident .variableName
  let ⟨_, afterColon, h₂⟩ ← afterName.expect ':'
  let ⟨value, afterValue, h₃⟩ ← afterColon.expr
  let ⟨_, next, h₄⟩ ← afterValue.expect ';'
  return ⟨.assign ⟨c.offset, value.range.stop⟩ name value, next,
    Nat.lt_trans h₄ (Nat.lt_trans h₃ (Nat.lt_trans h₂ (Nat.lt_of_lt_of_le h₁ (c.size_skip_le 1))))⟩

/-- The expression of a `@warn` or `@debug` statement that starts at an offset, with the range of
the statement. -/
def message (c : Cursor) (start : Nat) : Parse (Range × Expr) c.size := do
  let ⟨value, afterValue, h₁⟩ ← c.expr
  let ⟨_, next, h₂⟩ ← afterValue.expect ';'
  return ⟨(⟨start, value.range.stop⟩, value), next, by omega⟩

/-- The name of a mixin, behind blanks and comments. -/
def mixinName (c : Cursor) : Parse (String × Nat) c.size := do
  let ⟨name, next, h⟩ ← c.skipTrivia.ident .mixinName
  return ⟨(name, next.offset), next, Nat.lt_of_lt_of_le h c.size_skipTrivia_le⟩

/-- What follows `@include` in a statement that starts at an offset. -/
def inclusion (c : Cursor) (start : Nat) : Parse Statement c.size := do
  let ⟨(name, stop), afterName, h₁⟩ ← c.mixinName
  let ⟨_, next, h₂⟩ ← afterName.expect ';'
  return ⟨.includeMixin ⟨start, stop⟩ name, next, by omega⟩

/-- The end of a declaration. In front of a closing brace it needs no semicolon. -/
def declarationEnd (c : Cursor) : Parse Unit (c.size + 1) :=
  if c.skipTrivia.peek? = some '}' then
    .ok ⟨(), c.skipTrivia, c.size_skipTrivia_lt⟩
  else do
    let ⟨_, next, h⟩ ← c.skipTrivia.expect ';'
    return ⟨(), next, Nat.lt_of_lt_of_le h (Nat.le_of_lt c.size_skipTrivia_lt)⟩

def declaration (c : Cursor) : Parse Statement c.size := do
  let ⟨property, afterName, h₁⟩ ← c.ident .propertyName
  let ⟨_, afterColon, h₂⟩ ← afterName.expect ':'
  let ⟨value, afterValue, h₃⟩ ← afterColon.expr
  let ⟨_, next, h₄⟩ ← afterValue.declarationEnd
  return ⟨.declaration ⟨c.offset, value.range.stop⟩ property value, next, by omega⟩

/-! ## Heads of statements with a body -/

/-- What follows `@mixin`, up to the opening brace. -/
def mixinHead (c : Cursor) : Parse String c.size := do
  let ⟨(name, _), afterName, h₁⟩ ← c.mixinName
  let ⟨_, next, h₂⟩ ← afterName.expect '{'
  return ⟨name, next, by omega⟩

/-- The selector of a rule, up to the opening brace. -/
def ruleHead (c : Cursor) : Parse String c.size :=
  let head := Lexeme.head c.rest
  let brace := c.skip head.length
  if h : brace.peek? = some '{' then
    let selector := Text.trim head
    if selector.isEmpty then .error (c.error (.expected .selector))
    else .ok ⟨String.ofList selector, brace.skip 1, by
      refine Nat.lt_of_lt_of_le (size_skip_lt Nat.one_pos (rest_ne_nil_of_peek? h)) ?_
      exact c.size_skip_le head.length⟩
  else .error (brace.error (.expected (.character '{')))

/-- The brace that closes a block. -/
def closeBlock (c : Cursor) : Parse Unit c.size := c.expect '}'

/-! ## Statements and blocks -/

mutual

/-- Statements up to a closing brace or the end. -/
def statements (isBlock : Bool) (c : Cursor) : Parse (List Statement) (c.size + 1) := do
  have hc := c.size_skipTrivia_le
  match c.skipTrivia.peek? with
  | none | some '}' => return ⟨[], c.skipTrivia, c.size_skipTrivia_lt⟩
  | some _ =>
    let ⟨first, next, h⟩ ← c.skipTrivia.statement isBlock
    let ⟨more, last, h'⟩ ← next.statements isBlock
    return ⟨first :: more, last, by omega⟩
termination_by (c.size, 2)
decreasing_by
  · exact Prod.Lex.right' _ hc (by omega)
  · exact Prod.Lex.left _ _ (by omega)

/-- A block behind its opening brace. -/
def block (c : Cursor) : Parse (List Statement) c.size := do
  let ⟨body, last, h⟩ ← c.statements true
  let ⟨_, next, h'⟩ ← last.closeBlock
  return ⟨body, next, by omega⟩
termination_by (c.size, 3)

/-- A statement, which stands here without blanks in front. -/
def statement (isBlock : Bool) (c : Cursor) : Parse Statement c.size :=
  match c.peek? with
  | none => .error (c.error (.expected .statement))
  | some '$' => c.assignment
  | some '@' => do
    have hc := c.size_skip_le 1
    let ⟨keyword, next, h⟩ ← (c.skip 1).ident .atRuleName
    match keyword with
    | "warn" =>
      let ⟨(range, value), last, h'⟩ ← next.message c.offset
      return ⟨.warn range value, last, by omega⟩
    | "debug" =>
      let ⟨(range, value), last, h'⟩ ← next.message c.offset
      return ⟨.debug range value, last, by omega⟩
    | "mixin" =>
      let ⟨name, afterHead, h₁⟩ ← next.mixinHead
      let ⟨body, last, h₂⟩ ← afterHead.block
      return ⟨.defineMixin ⟨c.offset, last.offset⟩ name body, last, by omega⟩
    | "include" =>
      let ⟨statement, last, h'⟩ ← next.inclusion c.offset
      return ⟨statement, last, by omega⟩
    | other => .error ⟨.unknownAtRule other, c.offset, next.offset⟩
  | some _ =>
    if isBlock && Lexeme.looksLikeDeclaration c.rest then c.declaration
    else do
      let ⟨selector, afterHead, h₁⟩ ← c.ruleHead
      let ⟨body, last, h₂⟩ ← afterHead.block
      return ⟨.rule ⟨c.offset, last.offset⟩ selector body, last, by omega⟩
termination_by (c.size, 1)

end

end Cursor

/-- The statements of a source text. -/
def parse (source : String) : Except ParseError (List Statement) := do
  let ⟨statements, last, _⟩ ← (Cursor.start source.toList).statements false
  if last.skipTrivia.peek?.isSome then throw (last.skipTrivia.error .strayBrace)
  else return statements

end Stylesheet
