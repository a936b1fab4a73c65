import Lettering.Geometry.Affine

/-!
# Boxes

Axis-aligned boxes.  A box holds the points between its two corners; one whose
lower corner exceeds its upper corner on some axis holds no point.  `empty` is
such a box, and the unit of `union`.
-/

namespace Lettering

/-- An axis-aligned box, by its corners. -/
structure Box (α : Type) where
  lo : Point α
  hi : Point α
deriving DecidableEq

namespace Box

variable {α : Type} [Scalar α]

/-- The box without a point. -/
def empty : Box α :=
  ⟨⟨Scalar.infinity, Scalar.infinity⟩, ⟨-Scalar.infinity, -Scalar.infinity⟩⟩

/-- The box between two corners given in any order. -/
def spanning (p q : Point α) : Box α :=
  ⟨⟨Scalar.lesser p.x q.x, Scalar.lesser p.y q.y⟩,
    ⟨Scalar.greater p.x q.x, Scalar.greater p.y q.y⟩⟩

/-- Whether the box holds no point. -/
def isEmpty (b : Box α) : Bool := decide (b.hi.x < b.lo.x) || decide (b.hi.y < b.lo.y)

/-- The horizontal extent, zero for an empty box. -/
def width (b : Box α) : α := if b.isEmpty then 0 else b.hi.x - b.lo.x

/-- The vertical extent, zero for an empty box. -/
def height (b : Box α) : α := if b.isEmpty then 0 else b.hi.y - b.lo.y

/-- The box grown until it holds `p`. -/
def extend (b : Box α) (p : Point α) : Box α :=
  ⟨⟨Scalar.lesser b.lo.x p.x, Scalar.lesser b.lo.y p.y⟩,
    ⟨Scalar.greater b.hi.x p.x, Scalar.greater b.hi.y p.y⟩⟩

/-- The box that holds one point alone.  A coordinate that is not a number
bounds nothing. -/
def ofPoint (p : Point α) : Box α :=
  ⟨⟨if p.x ≤ p.x then p.x else Scalar.infinity, if p.y ≤ p.y then p.y else Scalar.infinity⟩,
    ⟨if p.x ≤ p.x then p.x else -Scalar.infinity, if p.y ≤ p.y then p.y else -Scalar.infinity⟩⟩

/-- The least box that holds every point of a list. -/
def ofPoints : List (Point α) → Box α
  | [] => empty
  | p :: ps => ps.foldl extend (ofPoint p)

/-- The least box that holds two boxes. -/
def union (b c : Box α) : Box α :=
  if c.isEmpty then b
  else if b.isEmpty then c
  else (b.extend c.lo).extend c.hi

/-- The least box that holds every box of a list. -/
def unions (boxes : List (Box α)) : Box α := boxes.foldl union empty

/-- The box moved by `(dx, dy)`; an empty box stays as it is. -/
def shift (b : Box α) (dx dy : α) : Box α :=
  if b.isEmpty then b else ⟨b.lo.shift dx dy, b.hi.shift dx dy⟩

/-- The corners, counter-clockwise from the lower left. -/
def corners (b : Box α) : List (Point α) := [b.lo, ⟨b.hi.x, b.lo.y⟩, b.hi, ⟨b.lo.x, b.hi.y⟩]

/-- The least box around the image of the box under an affine map. -/
def image (b : Box α) (t : Affine α) : Box α :=
  if b.isEmpty then b else ofPoints (b.corners.map t.apply)

end Box

end Lettering
