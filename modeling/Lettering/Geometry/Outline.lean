import Lettering.Geometry.Box

/-!
# Outlines

What a glyph draws: contours, each an ordered list of points.  The kind of the
font decides whether a contour is the edge of an area or a line.
-/

namespace Lettering

/-- The contours of a glyph. -/
structure Outline (α : Type) where
  contours : List (List (Point α))
deriving DecidableEq

namespace Outline

variable {α : Type} [Scalar α]

/-- No contours. -/
def blank : Outline α := ⟨[]⟩

/-- Every point of every contour, in order. -/
def points (o : Outline α) : List (Point α) := o.contours.flatten

/-- Whether no contour has a point. -/
def isEmpty (o : Outline α) : Bool := o.contours.all List.isEmpty

/-- The least box around the outline. -/
def bounds (o : Outline α) : Box α := Box.ofPoints o.points

/-- The outline with a function applied to every point. -/
def map (o : Outline α) (f : Point α → Point α) : Outline α := ⟨o.contours.map (List.map f)⟩

/-- The outline moved by `(dx, dy)`. -/
def shift (o : Outline α) (dx dy : α) : Outline α := o.map fun p => p.shift dx dy

/-- The contours of `o`, then those of `other`. -/
def append (o other : Outline α) : Outline α := ⟨o.contours ++ other.contours⟩

end Outline

end Lettering
