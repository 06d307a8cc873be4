import Stylesheet.Text.Blank
import Stylesheet.Text.Letter

/-!
# Lexemes

What stands at the front of a text: blanks and comments, an identifier, a number, the rest of a
string. Each lexeme is given by its length in characters, or by the parts it is made of.
-/

namespace Stylesheet.Lexeme

open Text

/-! ## Blanks and comments -/

/-- What is being passed over. -/
inductive Trivia where
  | blanks
  | lineComment
  | blockComment
deriving DecidableEq, Repr

/-- The number of characters of blanks and comments at the front of a text. A line comment ends in
front of its line feed, a block comment behind its mark; one without an end goes on to the end of
the text. -/
def triviaLength : Trivia → List Char → Nat
  | _, [] => 0
  | .blanks, '/' :: '/' :: s => 2 + triviaLength .lineComment s
  | .blanks, '/' :: '*' :: s => 2 + triviaLength .blockComment s
  | .blanks, c :: s => if isBlank c then 1 + triviaLength .blanks s else 0
  | .lineComment, c :: s =>
    1 + triviaLength (if c = '\n' then .blanks else .lineComment) s
  | .blockComment, '*' :: '/' :: s => 2 + triviaLength .blanks s
  | .blockComment, _ :: s => 1 + triviaLength .blockComment s

/-! ## Identifiers -/

def isIdentStart (c : Char) : Bool := isLetter c || c == '_'

def isIdentChar (c : Char) : Bool := isLetterOrNumeral c || c == '_' || c == '-'

/-- Whether an identifier starts here: with a letter or underscore, or with a hyphen and then one
of these. -/
def startsIdent : List Char → Bool
  | '-' :: c :: _ => isIdentStart c
  | c :: _ => isIdentStart c
  | [] => false

/-- The identifier at the front of a text; empty if none starts here. -/
def ident (s : List Char) : List Char := if startsIdent s then s.takeWhile isIdentChar else []

theorem isIdentChar_of_isIdentStart {c : Char} (h : isIdentStart c = true) :
    isIdentChar c = true := by
  rw [isIdentStart, Bool.or_eq_true] at h
  rw [isIdentChar, Text.isLetterOrNumeral]
  obtain h | h := h <;> simp [h]

theorem startsIdent_cons {c : Char} (hc : c ≠ '-') (s : List Char) :
    startsIdent (c :: s) = isIdentStart c := by
  simp [startsIdent, hc]

/-- An identifier takes at least the character that it starts with. -/
theorem ident_eq_nil_iff {s : List Char} : ident s = [] ↔ startsIdent s = false := by
  cases h : startsIdent s with
  | false => simp [ident, h]
  | true =>
    match s, h with
    | c :: s, h =>
      have hchar : isIdentChar c = true := by
        by_cases hc : c = '-'
        · simp [isIdentChar, hc]
        · exact isIdentChar_of_isIdentStart (startsIdent_cons hc s ▸ h)
      simp [ident, h, hchar]

/-! ## Numbers -/

/-- A number as it is written. -/
structure Number where
  whole : List Char
  fraction : List Char
  unit : List Char
deriving DecidableEq, Repr

/-- The number at the front of a text. A point belongs to it only if a digit follows, and then the
digits in front may be missing. A unit is a percent sign or letters. -/
def number (s : List Char) : Number :=
  let whole := s.takeWhile Char.isDigit
  let rest := s.drop whole.length
  let fraction := match rest with
    | '.' :: rest => rest.takeWhile Char.isDigit
    | _ => []
  let rest := if fraction.isEmpty then rest else rest.drop (1 + fraction.length)
  let unit := match rest with
    | '%' :: _ => ['%']
    | _ => rest.takeWhile Char.isAlpha
  ⟨whole, fraction, unit⟩

namespace Number

/-- Whether there is any digit, so that a number stands here. -/
def isPresent (n : Number) : Bool := !n.whole.isEmpty || !n.fraction.isEmpty

def length (n : Number) : Nat :=
  n.whole.length + (if n.fraction.isEmpty then 0 else 1 + n.fraction.length) + n.unit.length

/-- The integer that digits write. -/
def digitsValue (digits : List Char) : Nat :=
  digits.foldl (fun n c => 10 * n + (c.toNat - '0'.toNat)) 0

/-- The binary64 number nearest to the decimal. -/
def value (n : Number) : Float :=
  Float.ofScientific (digitsValue (n.whole ++ n.fraction)) true n.fraction.length

end Number

/-- The length of a color or the like: a hash and the letters and digits behind it. -/
def hashLength (s : List Char) : Nat := 1 + ((s.drop 1).takeWhile Char.isAlphanum).length

/-! ## Strings -/

/-- The rest of a string behind its opening quote, with the number of characters it takes. -/
inductive StringRest where
  | closed (text : List Char) (length : Nat)
  | unterminated (length : Nat)
deriving DecidableEq, Repr

/-- Puts a character of the text, which takes some characters to write, in front. -/
def StringRest.cons (c : Char) (width : Nat) : StringRest → StringRest
  | closed text length => closed (c :: text) (width + length)
  | unterminated length => unterminated (width + length)

/-- Reads to the closing quote. A backslash makes the character behind it a part of the text; one
at the end of the source ends the string. A line feed by itself cannot stand in a string. -/
def stringRest (quote : Char) : List Char → StringRest
  | [] => .unterminated 0
  | c :: s =>
    if c = quote then .closed [] 1
    else if c = '\\' then
      match s with
      | [] => .closed [] 1
      | e :: s => (stringRest quote s).cons e 2
    else if c = '\n' then .unterminated 1
    else (stringRest quote s).cons c 1

/-! ## Statements at a glance -/

def isStatementMark (c : Char) : Bool := c == '{' || c == ';' || c == '}'

/-- The text up to the first mark that ends a statement or opens or ends a block. -/
def head (s : List Char) : List Char := s.takeWhile (!isStatementMark ·)

/-- Whether the statement that starts here ends before any block opens. -/
def looksLikeDeclaration (s : List Char) : Bool := (s.drop (head s).length).head? != some '{'

/-- Whether a character can start an item of a list. -/
def startsItem (c : Char) : Bool :=
  isLetterOrNumeral c || "_-.\"'$(#".toList.contains c

end Stylesheet.Lexeme
