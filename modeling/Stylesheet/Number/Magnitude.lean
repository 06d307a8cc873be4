/-!
# The exact size of a number

A finite binary64 number is a sign and a size `mantissa · 2 ^ exponent`. Rounding a number to an
integer is exact arithmetic on its size.
-/

namespace Stylesheet.Number

/-- The size `mantissa · 2 ^ exponent`. -/
structure Magnitude where
  mantissa : Nat
  exponent : Int
deriving DecidableEq, Repr

/-- The size of a finite number. The leading bit of the mantissa is implicit except in the
subnormal numbers, whose exponent field is zero. -/
def Magnitude.ofFloat (x : Float) : Magnitude :=
  let bits := x.toBits.toNat
  let fraction := bits % Nat.pow 2 52
  let biased : Nat := bits / Nat.pow 2 52 % Nat.pow 2 11
  if biased = 0 then ⟨fraction, -1074⟩ else ⟨Nat.pow 2 52 + fraction, biased - 1075⟩

/-- The nearest integer; a half goes up. -/
def Magnitude.round (m : Magnitude) : Nat :=
  match m.exponent with
  | .ofNat e => m.mantissa * Nat.pow 2 e
  | .negSucc k => (m.mantissa + Nat.pow 2 k) / Nat.pow 2 (k + 1)

/-- The size over `10 ^ k`, as a quotient, a remainder and the divisor of that remainder. -/
def Magnitude.divTenPow (m : Magnitude) (k : Int) : Nat × Nat × Nat :=
  let num := m.mantissa * Nat.pow 2 m.exponent.toNat * Nat.pow 10 (-k).toNat
  let den := Nat.pow 2 (-m.exponent).toNat * Nat.pow 10 k.toNat
  (num / den, num % den, den)

/-- The nearest integer, halves going away from zero. -/
def roundHalfAway (x : Float) : Float :=
  let n := Float.ofNat (Magnitude.ofFloat x).round
  if x < 0 then -n else n

example : (Magnitude.ofFloat 2.5).round = 3 ∧ (Magnitude.ofFloat 0.49).round = 0 := by
  decide +kernel

end Stylesheet.Number
