import Stylesheet.Syntax.Lexeme
import Stylesheet.Syntax.Tree
import Stylesheet.Text.Measure

/-!
# Cursors

A parser moves a cursor over a source text. What a parser yields says how far the cursor is from
the end at most, which is why every parser ends.
-/

namespace Stylesheet

/-! ## Parse errors -/

/-- What a parser needs where it cannot find it. -/
inductive Expected where
  | character (c : Char)
  | variableName
  | atRuleName
  | mixinName
  | propertyName
  | selector
  | statement
  | expression
deriving DecidableEq, Repr

def Expected.describe : Expected → String
  | .character c => s!"`{c}`"
  | .variableName => "variable name"
  | .atRuleName => "at-rule name"
  | .mixinName => "mixin name"
  | .propertyName => "property name"
  | .selector => "selector"
  | .statement => "statement"
  | .expression => "expression"

inductive ParseFault where
  | expected (what : Expected)
  | strayBrace
  | unknownAtRule (name : String)
  | unterminatedString
deriving DecidableEq, Repr

def ParseFault.message : ParseFault → String
  | .expected what => s!"expected {what.describe}"
  | .strayBrace => "unexpected `\x7d`"
  | .unknownAtRule name => s!"unknown at-rule `@{name}`"
  | .unterminatedString => "unterminated string"

structure ParseError where
  fault : ParseFault
  range : Range
deriving DecidableEq, Repr

/-! ## Moving -/

structure Cursor where
  /-- The bytes passed. -/
  offset : Nat
  /-- The last character passed. -/
  previous : Option Char
  rest : List Char
deriving DecidableEq, Repr

namespace Cursor

/-- The cursor at the front of a text. -/
def start (s : List Char) : Cursor := ⟨0, none, s⟩

/-- The number of characters up to the end. -/
def size (c : Cursor) : Nat := c.rest.length

def peek? (c : Cursor) : Option Char := c.rest.head?

def peekSecond? (c : Cursor) : Option Char := c.rest[1]?

/-- Passes a number of characters, or all that are left. -/
def skip (c : Cursor) : Nat → Cursor
  | 0 => c
  | n + 1 =>
    match c.rest with
    | [] => c
    | d :: s => (Cursor.mk (c.offset + d.utf8Size) (some d) s).skip n

/-- Passes blanks and comments. -/
def skipTrivia (c : Cursor) : Cursor := c.skip (Lexeme.triviaLength .blanks c.rest)

/-- An error at the next character, or at the end. -/
def error (c : Cursor) (fault : ParseFault) : ParseError :=
  ⟨fault, c.offset, c.offset + (c.peek?.map Char.utf8Size).getD 0⟩

@[simp] theorem rest_skip (c : Cursor) (n : Nat) : (c.skip n).rest = c.rest.drop n := by
  fun_induction skip c n <;> simp_all

theorem offset_skip (c : Cursor) (n : Nat) :
    (c.skip n).offset = c.offset + Text.byteLength (c.rest.take n) := by
  fun_induction skip c n with
  | case1 => simp
  | case2 c n h => simp [h]
  | case3 c n d s h ih => rw [ih, h, List.take_succ_cons, Text.byteLength_cons, Nat.add_assoc]

theorem size_skip (c : Cursor) (n : Nat) : (c.skip n).size = c.size - n := by
  simp [size]

theorem size_skip_le (c : Cursor) (n : Nat) : (c.skip n).size ≤ c.size := by
  rw [size_skip]
  omega

theorem size_skipTrivia_le (c : Cursor) : c.skipTrivia.size ≤ c.size := by
  simp [skipTrivia, size_skip]

theorem size_skipTrivia_lt (c : Cursor) : c.skipTrivia.size < c.size + 1 :=
  Nat.lt_succ_of_le c.size_skipTrivia_le

theorem size_skip_lt {c : Cursor} {n : Nat} (hn : 0 < n) (hc : c.rest ≠ []) :
    (c.skip n).size < c.size := by
  have := List.length_pos_iff.mpr hc
  rw [size_skip, size]
  omega

end Cursor

/-! ## Yields -/

/-- A value and the cursor behind it, nearer to the end than a bound. -/
structure Parsed (α : Type) (bound : Nat) where
  value : α
  next : Cursor
  nearer : next.size < bound

/-- What a parser yields that has to come nearer to the end than a bound. -/
abbrev Parse (α : Type) (bound : Nat) := Except ParseError (Parsed α bound)

namespace Cursor

/-- Passes a character that has to stand here, behind blanks and comments. -/
def expect (c : Cursor) (expected : Char) : Parse Unit c.size :=
  let d := c.skipTrivia
  if h : d.peek? = some expected then
    .ok ⟨(), d.skip 1, by
      have hne : d.rest ≠ [] := by
        intro hnil
        simp [peek?, hnil] at h
      exact Nat.lt_of_lt_of_le (size_skip_lt Nat.one_pos hne) c.size_skipTrivia_le⟩
  else .error (d.error (.expected (.character expected)))

/-- Passes an identifier, if one stands here. -/
def ident? (c : Cursor) : Option (Parsed String c.size) :=
  let name := Lexeme.ident c.rest
  if h : name = [] then none
  else some ⟨String.ofList name, c.skip name.length, by
    refine size_skip_lt (List.length_pos_iff.mpr h) fun hnil => h ?_
    simp [name, Lexeme.ident, hnil, Lexeme.startsIdent]⟩

/-- An identifier is passed exactly where one starts. -/
theorem ident?_eq_none_iff {c : Cursor} :
    c.ident? = none ↔ Lexeme.startsIdent c.rest = false := by
  rw [← Lexeme.ident_eq_nil_iff, ident?]
  split <;> simp [*]

/-- Passes an identifier that has to stand here. -/
def ident (c : Cursor) (expected : Expected) : Parse String c.size :=
  match c.ident? with
  | some parsed => .ok parsed
  | none => .error (c.error (.expected expected))

end Cursor

end Stylesheet
