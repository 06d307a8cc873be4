/-!
# The lines of a text

Only a line feed ends a line. A carriage return right before it belongs to the line end; anywhere
else it is a character like any other. A text that ends in a line feed has no further line.
-/

namespace Stylesheet.Text

/-- A line without the carriage return at its end. -/
def dropReturn (line : List Char) : List Char :=
  if line.getLast? = some '\r' then line.dropLast else line

/-- The lines of a text whose current line starts with `line`, given in reverse. -/
def linesFrom (line : List Char) : List Char → List (List Char)
  | [] => if line.isEmpty then [] else [line.reverse]
  | c :: s =>
    if c = '\n' then dropReturn line.reverse :: linesFrom [] s else linesFrom (c :: line) s

/-- The lines of a text, without their ends. -/
def lines (s : String) : List String := (linesFrom [] s.toList).map String.ofList

example : lines "a\r\n\nb\r" = ["a", "", "b\r"] := by decide +kernel
example : lines "one\n" = ["one"] ∧ lines "" = [] := by decide +kernel

end Stylesheet.Text
