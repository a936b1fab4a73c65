/-!
# Shortest decimals

The shortest decimal that a binary64 number can be read back from.  A finite
number above zero is `mantissa * 2 ^ exponent`; `Span` holds it with the two
ends of the interval of reals that round to it, over one denominator.  A grid
holds the multiples of one power of ten.  `shortest` walks the grids from the
coarsest to the finest and takes the first one that has a point in the interval,
the nearer point of that grid where it has two, and the upper one in a tie.
All arithmetic is exact.
-/

namespace Lettering.Decimal

/-- The decimal number `digits * 10 ^ exponent`. -/
structure Scaled where
  digits : Nat
  exponent : Int
deriving DecidableEq

/-- A value and the interval that rounds to it, over a common denominator. -/
structure Span where
  value : Nat
  lower : Nat
  upper : Nat
  denominator : Nat
  /-- Whether the ends belong to the interval. -/
  closed : Bool

/-- The span of `mantissa * 2 ^ exponent`.  The gap below a power of two is half
the gap above, except at the smallest exponent. -/
def Span.ofBinary (mantissa : Nat) (exponent : Int) : Span :=
  let below := if mantissa = Nat.pow 2 52 ∧ exponent ≠ -1074 then 1 else 2
  let up := Nat.pow 2 (exponent - 2).toNat
  { value := 4 * mantissa * up
    lower := (4 * mantissa - below) * up
    upper := (4 * mantissa + 2) * up
    denominator := Nat.pow 2 (2 - exponent).toNat
    closed := mantissa % 2 = 0 }

/-- How many decimal digits a number has. -/
def digitCount (n : Nat) : Nat := (Nat.toDigits 10 n).length

/-- The power of ten of the leading digit of the value. -/
def Span.magnitude (s : Span) : Int :=
  if s.denominator ≤ s.value then digitCount (s.value / s.denominator) - 1
  else -digitCount (s.denominator / s.value)

/-- Whether `numerator / scale` lies in the interval. -/
def Span.holds (s : Span) (numerator scale : Nat) : Bool :=
  let point := numerator * s.denominator
  if s.closed then s.lower * scale ≤ point && point ≤ s.upper * scale
  else s.lower * scale < point && point < s.upper * scale

/-- The point of the grid of `10 ^ exponent` that stands for the value, if the
interval holds one. -/
def Span.onGrid (s : Span) (exponent : Int) : Option Scaled :=
  let step := Nat.pow 10 exponent.toNat
  let scale := Nat.pow 10 (-exponent).toNat
  let low := s.value * scale / (step * s.denominator)
  let distanceLow := s.value * scale - low * step * s.denominator
  let distanceHigh := (low + 1) * step * s.denominator - s.value * scale
  match s.holds (low * step) scale, s.holds ((low + 1) * step) scale with
  | true, true => some ⟨if distanceLow < distanceHigh then low else low + 1, exponent⟩
  | true, false => some ⟨low, exponent⟩
  | false, true => some ⟨low + 1, exponent⟩
  | false, false => none

/-- The shortest decimal in the span; seventeen digits always suffice. -/
def shortest (mantissa : Nat) (exponent : Int) : Scaled :=
  let span := Span.ofBinary mantissa exponent
  let top := span.magnitude
  ((List.range 17).findSome? fun (n : Nat) => span.onGrid (top - n)).getD ⟨0, 0⟩

end Lettering.Decimal
