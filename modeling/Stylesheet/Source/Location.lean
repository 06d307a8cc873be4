import Stylesheet.Text.Measure

/-!
# Locations

A location is a place in the text of a file: its offset in UTF-16 code units, the number of line
feeds before it, and the number of code units since the last of these. All three count from zero;
only what a reader sees counts from one.

Counts are kept in 64 bits. A file is too short for its counts to reach the bound, but a location
that comes from elsewhere need not have a file.
-/

namespace Stylesheet

/-- Counts are below this bound. -/
def countBound : Nat := Nat.pow 2 64

/-- What is kept of a sum of counts: it wraps around at the bound. -/
def wrap (n : Nat) : Nat := n % countBound

theorem wrap_of_lt {n : Nat} (h : n < countBound) : wrap n = n := Nat.mod_eq_of_lt h

theorem wrap_le (n : Nat) : wrap n ≤ n := Nat.mod_le n countBound

structure Location where
  offset : Nat
  line : Nat
  column : Nat
deriving DecidableEq, Repr

instance : ToString Location := ⟨fun l => s!"{wrap (l.line + 1)}:{wrap (l.column + 1)}"⟩

namespace Location

/-- The start of every file. -/
def origin : Location := ⟨0, 0, 0⟩

/-- The location behind a character. Only a line feed starts a new line. -/
def next (l : Location) (c : Char) : Location :=
  if c = '\n' then ⟨l.offset + 1, l.line + 1, 0⟩
  else ⟨l.offset + Text.unitSize c, l.line, l.column + Text.unitSize c⟩

/-- The location behind a text. -/
def advance (l : Location) (text : List Char) : Location := text.foldl next l

@[simp] theorem advance_nil (l : Location) : l.advance [] = l := rfl

@[simp] theorem advance_cons (l : Location) (c : Char) (s : List Char) :
    l.advance (c :: s) = (l.next c).advance s := rfl

theorem advance_append (l : Location) (s t : List Char) :
    l.advance (s ++ t) = (l.advance s).advance t := List.foldl_append

theorem next_offset (l : Location) (c : Char) :
    (l.next c).offset = l.offset + Text.unitSize c := by
  unfold next
  split
  · subst c
    rfl
  · rfl

theorem advance_offset (l : Location) (s : List Char) :
    (l.advance s).offset = l.offset + Text.unitLength s := by
  induction s generalizing l with
  | nil => simp
  | cons c s ih => rw [advance_cons, ih, next_offset, Text.unitLength_cons, Nat.add_assoc]

end Location

end Stylesheet
