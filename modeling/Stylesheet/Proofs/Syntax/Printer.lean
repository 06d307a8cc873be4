import Stylesheet.Syntax.Parser

/-!
# Printing stylesheets

A stylesheet as an author has it in mind: terms and clauses, which are syntax trees without places
in a text and with their numbers as literals. They are printed with one blank around operators and
between the items of a list, with one clause a line, and with parentheses where a term would
otherwise be taken apart.
-/

namespace Stylesheet

/-! ## Terms -/

inductive Term where
  | number (literal : Lexeme.Number)
  /-- A string without quotes. -/
  | word (text : String)
  | quoted (text : String)
  | var (name : String)
  | binary (operator : Operator) (left right : Term)
  | negate (operand : Term)
  | list (items : List Term)

inductive Clause where
  | assign (name : String) (value : Term)
  | warn (value : Term)
  | debug (value : Term)
  | defineMixin (name : String) (body : List Clause)
  | includeMixin (name : String)
  | rule (selector : String) (body : List Clause)
  | declaration (property : String) (value : Term)

/-! ## The trees of terms -/

/-- The range of a tree that has no place in a text. -/
def Range.nowhere : Range := ⟨0, 0⟩

def Lexeme.Number.unit? (n : Lexeme.Number) : Option String :=
  if n.unit = [] then none else some (String.ofList n.unit)

mutual

/-- The syntax tree of a term. -/
def Term.tree : Term → Expr
  | .number literal => .number .nowhere literal.value literal.unit?
  | .word text => .text .nowhere text false
  | .quoted text => .text .nowhere text true
  | .var name => .var .nowhere name
  | .binary operator left right => .binary .nowhere operator left.tree right.tree
  | .negate operand => .negate .nowhere operand.tree
  | .list items => .list .nowhere (Term.trees items)

def Term.trees : List Term → List Expr
  | [] => []
  | item :: items => item.tree :: Term.trees items

end

mutual

/-- The syntax tree of a clause. -/
def Clause.tree : Clause → Statement
  | .assign name value => .assign .nowhere name value.tree
  | .warn value => .warn .nowhere value.tree
  | .debug value => .debug .nowhere value.tree
  | .defineMixin name body => .defineMixin .nowhere name (Clause.trees body)
  | .includeMixin name => .includeMixin .nowhere name
  | .rule selector body => .rule .nowhere selector (Clause.trees body)
  | .declaration property value => .declaration .nowhere property value.tree

def Clause.trees : List Clause → List Statement
  | [] => []
  | clause :: clauses => clause.tree :: Clause.trees clauses

end

mutual

/-- A syntax tree taken out of its text. -/
def Expr.unplaced : Expr → Expr
  | .number _ value unit => .number .nowhere value unit
  | .text _ s quoted => .text .nowhere s quoted
  | .var _ name => .var .nowhere name
  | .binary _ operator left right => .binary .nowhere operator left.unplaced right.unplaced
  | .negate _ operand => .negate .nowhere operand.unplaced
  | .list _ items => .list .nowhere (Expr.unplacedAll items)

def Expr.unplacedAll : List Expr → List Expr
  | [] => []
  | item :: items => item.unplaced :: Expr.unplacedAll items

end

mutual

/-- A statement taken out of its text. -/
def Statement.unplaced : Statement → Statement
  | .assign _ name value => .assign .nowhere name value.unplaced
  | .warn _ value => .warn .nowhere value.unplaced
  | .debug _ value => .debug .nowhere value.unplaced
  | .defineMixin _ name body => .defineMixin .nowhere name (Statement.unplacedAll body)
  | .includeMixin _ name => .includeMixin .nowhere name
  | .rule _ selector body => .rule .nowhere selector (Statement.unplacedAll body)
  | .declaration _ property value => .declaration .nowhere property value.unplaced

def Statement.unplacedAll : List Statement → List Statement
  | [] => []
  | statement :: statements => statement.unplaced :: Statement.unplacedAll statements

end

/-! ## Parentheses -/

/-- Where a term stands. -/
inductive Place where
  /-- By itself, as the expression of a clause or in parentheses. -/
  | whole
  | item
  | left (operator : Operator)
  | right (operator : Operator)
  | negated

/-- How tightly an operator binds its operands. -/
def Operator.level : Operator → Nat
  | .add | .subtract => 1
  | .multiply | .divide => 2

/-- How tightly a term holds together: a list not at all, then sums, products and all others. -/
def Term.level : Term → Nat
  | .list _ => 0
  | .binary operator _ _ => operator.level
  | _ => 3

/-- How tightly a term has to hold together where it stands. Operators of one level group to the
left. -/
def Place.level : Place → Nat
  | .whole => 0
  | .item => 1
  | .left operator => operator.level
  | .right operator => operator.level + 1
  | .negated => 3

/-- The terms that a hyphen can negate as they are. In front of any other it would be part of a
word, or nothing at all. -/
def Term.isNegatable : Term → Bool
  | .number _ | .var _ => true
  | _ => false

/-- Whether a term would not be read as one where it stands. -/
def Place.needsParentheses : Place → Term → Bool
  | .negated, t => !t.isNegatable
  | place, t => t.level < place.level

/-- The text of a term where it stands, from its text by itself. Other terms than those that need
them may have parentheses too. -/
def Place.enclose (also : Place → Term → Bool) (place : Place) (t : Term) (text : List Char) :
    List Char :=
  if place.needsParentheses t || also place t then '(' :: text ++ [')'] else text

/-! ## Texts -/

/-- A number as it is written. -/
def Lexeme.Number.text (n : Lexeme.Number) : List Char :=
  n.whole ++ (if n.fraction = [] then [] else '.' :: n.fraction) ++ n.unit

/-- A character as it is written in a string. -/
def Lexeme.escape (c : Char) : List Char :=
  if c = '"' ∨ c = '\\' ∨ c = '\n' then ['\\', c] else [c]

section

variable (also : Place → Term → Bool)

mutual

/-- The text of a term by itself. -/
def Term.text : Term → List Char
  | .number literal => literal.text
  | .word text => text.toList
  | .quoted text => '"' :: text.toList.flatMap Lexeme.escape ++ ['"']
  | .var name => '$' :: name.toList
  | .binary operator left right =>
    Place.enclose also (.left operator) left left.text ++
      ' ' :: operator.symbol.toList ++
      ' ' :: Place.enclose also (.right operator) right right.text
  | .negate operand => '-' :: Place.enclose also .negated operand operand.text
  | .list [] => []
  | .list (item :: items) => Place.enclose also .item item item.text ++ Term.moreText items

/-- The text of further items of a list. -/
def Term.moreText : List Term → List Char
  | [] => []
  | item :: items => ' ' :: Place.enclose also .item item item.text ++ Term.moreText items

end

/-- The text of a term as the expression of a clause. -/
def Term.print (t : Term) : List Char := Place.enclose also .whole t (t.text also)

mutual

/-- The text of a clause, from its first character to its semicolon or closing brace. -/
def Clause.text : Clause → List Char
  | .assign name value => '$' :: name.toList ++ ':' :: ' ' :: value.print also ++ [';']
  | .warn value => '@' :: "warn".toList ++ ' ' :: value.print also ++ [';']
  | .debug value => '@' :: "debug".toList ++ ' ' :: value.print also ++ [';']
  | .defineMixin name body =>
    '@' :: "mixin".toList ++ ' ' :: name.toList ++ ' ' :: '{' :: Clause.lines body ++ ['\n', '}']
  | .includeMixin name => '@' :: "include".toList ++ ' ' :: name.toList ++ [';']
  | .rule selector body => selector.toList ++ ' ' :: '{' :: Clause.lines body ++ ['\n', '}']
  | .declaration property value => property.toList ++ ':' :: ' ' :: value.print also ++ [';']

/-- The text of clauses, each behind a line feed. -/
def Clause.lines : List Clause → List Char
  | [] => []
  | clause :: clauses => '\n' :: clause.text ++ Clause.lines clauses

end

/-- The text of a stylesheet, in which line feeds separate the clauses. -/
def Clause.print : List Clause → String
  | [] => ""
  | clause :: clauses => String.ofList (clause.text also ++ Clause.lines also clauses)

end

/-! ## Well-formed stylesheets -/

/-- Whether a text is an identifier. -/
def IsName (s : String) : Prop := s.toList ≠ [] ∧ Lexeme.ident s.toList = s.toList

/-- Whether a number is written as `1`, `1.5` or `.5`, with a unit of its own or without one. -/
structure Lexeme.Number.IsLiteral (n : Lexeme.Number) : Prop where
  whole : ∀ c ∈ n.whole, c.isDigit = true
  fraction : ∀ c ∈ n.fraction, c.isDigit = true
  isPresent : n.isPresent = true
  unit : n.unit = ['%'] ∨ ∀ c ∈ n.unit, c.isAlpha = true

inductive Term.IsWellFormed : Term → Prop
  | number {literal : Lexeme.Number} (h : literal.IsLiteral) : IsWellFormed (.number literal)
  | name {text : String} (h : IsName text) : IsWellFormed (.word text)
  | hash {text : String} {digits : List Char} (htext : text.toList = '#' :: digits)
      (hdigits : ∀ c ∈ digits, c.isAlphanum = true) : IsWellFormed (.word text)
  | quoted (text : String) : IsWellFormed (.quoted text)
  | var {name : String} (h : IsName name) : IsWellFormed (.var name)
  | binary (operator : Operator) {left right : Term} (hleft : left.IsWellFormed)
      (hright : right.IsWellFormed) : IsWellFormed (.binary operator left right)
  | negate {operand : Term} (h : operand.IsWellFormed) : IsWellFormed (.negate operand)
  | list {items : List Term} (hlength : 2 ≤ items.length) (h : ∀ t ∈ items, t.IsWellFormed) :
      IsWellFormed (.list items)

mutual

/-- The strings in quotes in a term. -/
def Term.strings : Term → List String
  | .quoted text => [text]
  | .binary _ left right => left.strings ++ right.strings
  | .negate operand => operand.strings
  | .list items => Term.stringsIn items
  | _ => []

def Term.stringsIn : List Term → List String
  | [] => []
  | item :: items => item.strings ++ Term.stringsIn items

end

/-- Whether a text can be the selector of a rule. -/
structure IsSelector (s : String) : Prop where
  ne_nil : s.toList ≠ []
  trim_eq : Text.trim s.toList = s.toList
  noMark : ∀ c ∈ s.toList, Lexeme.isStatementMark c = false
  start : ∀ c, s.toList.head? = some c → c ≠ '$' ∧ c ≠ '@'
  noComment : ¬ ['/', '/'] <+: s.toList ∧ ¬ ['/', '*'] <+: s.toList

/-- Whether a clause is well formed inside a block or outside of all blocks. -/
inductive Clause.IsWellFormed : Bool → Clause → Prop
  | assign {isBlock : Bool} {name : String} {value : Term} (hname : IsName name)
      (hvalue : value.IsWellFormed) : IsWellFormed isBlock (.assign name value)
  | warn {isBlock : Bool} {value : Term} (hvalue : value.IsWellFormed) :
      IsWellFormed isBlock (.warn value)
  | debug {isBlock : Bool} {value : Term} (hvalue : value.IsWellFormed) :
      IsWellFormed isBlock (.debug value)
  | defineMixin {isBlock : Bool} {name : String} {body : List Clause} (hname : IsName name)
      (hbody : ∀ clause ∈ body, IsWellFormed true clause) :
      IsWellFormed isBlock (.defineMixin name body)
  | includeMixin {isBlock : Bool} {name : String} (hname : IsName name) :
      IsWellFormed isBlock (.includeMixin name)
  | rule {isBlock : Bool} {selector : String} {body : List Clause} (hselector : IsSelector selector)
      (hbody : ∀ clause ∈ body, IsWellFormed true clause) :
      IsWellFormed isBlock (.rule selector body)
  /-- An opening brace in a value would make it look like a rule. -/
  | declaration {property : String} {value : Term} (hname : IsName property)
      (hvalue : value.IsWellFormed) (hbrace : ∀ s ∈ value.strings, '{' ∉ s.toList) :
      IsWellFormed true (.declaration property value)

end Stylesheet
