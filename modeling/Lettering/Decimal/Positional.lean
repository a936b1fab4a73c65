import Lettering.Decimal.Shortest

/-!
# Positional notation

Numbers as messages write them: the shortest digits that read back, never an
exponent, no point after a whole number, and the sign of a negative zero kept.
-/

namespace Lettering.Decimal

/-- A decimal without exponent; zeros at the end of the fraction are dropped. -/
def Scaled.positional (d : Scaled) : String :=
  let digits := Nat.toDigits 10 d.digits
  if 0 ≤ d.exponent then
    String.ofList (digits ++ List.replicate d.exponent.toNat '0')
  else
    let places := (-d.exponent).toNat
    let padded := List.replicate (places + 1 - digits.length) '0' ++ digits
    let whole := padded.take (padded.length - places)
    let fraction := (padded.drop (padded.length - places)).reverse.dropWhile (· = '0')
    if fraction.isEmpty then String.ofList whole
    else String.ofList (whole ++ '.' :: fraction.reverse)

/-- The text of a binary64 number. -/
def ofFloat (x : Float) : String :=
  match x.toModel.unpack with
  | .notANumber => "NaN"
  | .infinity .positive => "inf"
  | .infinity .negative => "-inf"
  | .zero .positive => "0"
  | .zero .negative => "-0"
  | .finite .positive mantissa exponent _ => (shortest mantissa exponent).positional
  | .finite .negative mantissa exponent _ => "-" ++ (shortest mantissa exponent).positional

end Lettering.Decimal
