import Lettering.Scalar

/-!
# Binary64 scalars

`Float` as a scalar.  The length of a vector is the square root of the exact sum
of the exact squares, rounded once, so no intermediate result overflows or
underflows.  Tab stops are sorted by `orderKey`, which puts `-0.0` before `0.0`
and a positive NaN after infinity.
-/

namespace Lettering.Binary64

open Float.Model (UnpackedFloat Format)

/-- The place of a number in the total order of binary64 numbers. -/
def orderKey (x : Float) : Nat :=
  let bits := x.toBits.toNat
  if bits < Nat.pow 2 63 then Nat.pow 2 63 + bits else Nat.pow 2 64 - 1 - bits

/-- A finite number as mantissa and exponent of two, its sign dropped. -/
def magnitude? (x : Float) : Option (Nat × Int) :=
  match x.toModel.unpack with
  | .finite _ mantissa exponent _ => some (mantissa, exponent)
  | .zero _ => some (0, 0)
  | _ => none

/-- The exact sum of two squares, as mantissa and exponent of two. -/
def squares (x y : Nat × Int) : Nat × Int :=
  let exponent := min (2 * x.2) (2 * y.2)
  (x.1 * x.1 * Nat.pow 2 (2 * x.2 - exponent).toNat +
    y.1 * y.1 * Nat.pow 2 (2 * y.2 - exponent).toNat, exponent)

/-- The square root of `mantissa * 2 ^ exponent`, rounded once. -/
def sqrtOf (mantissa : Nat) (exponent : Int) : Float :=
  if h : 0 < mantissa then
    .ofModel (.pack (UnpackedFloat.sqrt .binary64 (.finite .positive mantissa exponent h)))
  else 0.0

/-- The length of a vector.  An infinite component wins over one that is not a
number. -/
def hypot (x y : Float) : Float :=
  match magnitude? x, magnitude? y with
  | some a, some b => let s := squares a b; sqrtOf s.1 s.2
  | _, _ => if x.isInf || y.isInf then 1.0 / 0.0 else 0.0 / 0.0

instance : Scalar Float where
  zero := 0.0
  one := 1.0
  ofInt := Float.ofInt
  floor := Float.floor
  isFinite := Float.isFinite
  infinity := 1.0 / 0.0
  precedes a b := decide (orderKey a ≤ orderKey b)
  sin := Float.sin
  cos := Float.cos
  tan := Float.tan
  atan2 := Float.atan2
  hypot := hypot

end Lettering.Binary64
