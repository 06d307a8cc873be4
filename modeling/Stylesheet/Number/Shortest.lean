import Stylesheet.Number.Magnitude

/-!
# The fewest digits that read back

A decimal `digits · 10 ^ exponent` is read as the nearest binary64 number. A number is written
with the fewest digits that read back as it, and of two such decimals with the nearer one; of two
equally near the larger one.
-/

namespace Stylesheet.Number

/-- The decimal `digits · 10 ^ exponent`. -/
structure Decimal where
  digits : Nat
  exponent : Int
deriving DecidableEq, Repr

/-- The number that a decimal is read as. -/
def Decimal.toFloat (d : Decimal) : Float :=
  Float.ofScientific d.digits (d.exponent < 0) d.exponent.natAbs

/-- The multiple of `10 ^ k` next to `x` that reads back as `x`. Only the neighbours of `x` on that
grid can: if any multiple lies close enough to `x`, one of them does. -/
def readBack? (x : Float) (k : Int) : Option Decimal :=
  let (below, rest, unit) := (Magnitude.ofFloat x).divTenPow k
  let lower : Decimal := ⟨below, k⟩
  let upper : Decimal := ⟨below + 1, k⟩
  match decide (lower.toFloat = x), decide (upper.toFloat = x) with
  | true, true => some (if 2 * rest < unit then lower else upper)
  | true, false => some lower
  | false, true => some upper
  | false, false => none

/-- The first decimal that reads back as `x` on the grids `10 ^ k`, `10 ^ (k - 1)` and so on, the
last of which is taken without a test. -/
def coarsest (x : Float) (k : Int) : Nat → Decimal
  | 0 => ⟨((Magnitude.ofFloat x).divTenPow k).1, k⟩
  | n + 1 => (readBack? x k).getD (coarsest x (k - 1) n)

/-- Every binary64 number is a multiple of `2 ^ -1074`, hence of `10 ^ -1074`. -/
def finest : Nat := 1074

/-- The decimal with the fewest digits that reads back as the positive number `x`: a coarser grid
has fewer digits, and the coarsest that counts is as coarse as `x` is large. -/
def shortest (x : Float) : Decimal :=
  let whole := Nat.toDigits 10 ((Magnitude.ofFloat x).divTenPow 0).1
  coarsest x whole.length (whole.length + finest)

/-- A decimal written with all its places and no exponent. -/
def Decimal.positional (d : Decimal) : String :=
  let digits := Nat.toDigits 10 d.digits
  let places := (-d.exponent).toNat
  if places = 0 then String.ofList (digits ++ List.replicate d.exponent.toNat '0')
  else
    let padded := List.replicate (places + 1 - digits.length) '0' ++ digits
    let whole := padded.length - places
    String.ofList (padded.take whole ++ '.' :: padded.drop whole)

example : (shortest 0.3).positional = "0.3" ∧ (shortest 1e22).positional = "10000000000000000000000"
    ∧ (shortest 12.625).positional = "12.625" := by
  decide +kernel

end Stylesheet.Number
