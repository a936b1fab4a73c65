/-!
# Scalars

Every coordinate, size and advance of a layout is a scalar.  The engine asks of
a scalar only what `Scalar` lists, and never assumes a law about it: binary64
numbers are an instance, and so is any ordered field with a floor.  A fact
proved without laws therefore holds of the running program, and a fact about
exact arithmetic is a fact about the same definitions at a lawful instance.
-/

namespace Lettering

/-- The operations that a layout needs of its coordinates. -/
class Scalar (α : Type) extends Zero α, One α, Add α, Sub α, Mul α, Div α, Neg α,
    LT α, LE α, BEq α, OfScientific α where
  [ltDecidable : DecidableLT α]
  [leDecidable : DecidableLE α]
  /-- The scalar nearest to a whole number. -/
  ofInt : Int → α
  /-- The greatest whole number not above. -/
  floor : α → α
  /-- Whether the value is a finite number. -/
  isFinite : α → Bool
  /-- The bound that an empty extent stores below; its negative is stored above. -/
  infinity : α
  /-- The total preorder that tab stops are sorted by. -/
  precedes : α → α → Bool
  sin : α → α
  cos : α → α
  tan : α → α
  /-- The angle of the vector with ordinate `y` and abscissa `x`, in this order. -/
  atan2 : α → α → α
  /-- The length of the vector with the given abscissa and ordinate. -/
  hypot : α → α → α

attribute [reducible, instance] Scalar.ltDecidable Scalar.leDecidable

namespace Scalar

variable {α : Type} [Scalar α]

/-- The lesser of two scalars; an operand that is not a number loses. -/
def lesser (a b : α) : α := if b < a then b else if a ≤ a then a else b

/-- The greater of two scalars; an operand that is not a number loses. -/
def greater (a b : α) : α := if a < b then b else if a ≤ a then a else b

/-- Half of a scalar. -/
def half (a : α) : α := a * 0.5

/-- Degrees in radians. -/
def radians (degrees : α) : α := degrees * 0.017453292519943295

/-- Finite and above zero: what a size or a factor has to be. -/
def isPositive (a : α) : Bool := isFinite a && decide (0 < a)

/-- The terms added up from the left. -/
def sum (terms : List α) : α := terms.foldl (· + ·) 0

end Scalar

end Lettering
