import Stylesheet.Number.Shortest

/-!
# Numbers as text

A number is rounded to ten places behind the point and written without exponent and without
superfluous zeros. A zero has no sign.
-/

namespace Stylesheet.Number

/-- Ten places are kept behind the point. -/
def scale : Float := 1e10

/-- The nearest number with ten places, halves going away from zero. -/
def toPlaces (x : Float) : Float := roundHalfAway (x * scale) / scale

/-- All digits of a number. Rounding a number near the largest one can give an infinity, which
has a shorter name here. -/
def positional (x : Float) : String :=
  let sign := if x < 0 then "-" else ""
  if x.isInf then sign ++ "inf"
  else if x == 0 then "0"
  else sign ++ (shortest x.abs).positional

/-- The text of a number. -/
def display (x : Float) : String :=
  if x.isNaN then "NaN"
  else if x.isInf then if 0 < x then "Infinity" else "-Infinity"
  else positional (toPlaces x)

example : display (0.1 + 0.2) = "0.3" ∧ display (-0.0) = "0" ∧ display (-1.5) = "-1.5" := by
  decide +kernel

end Stylesheet.Number
