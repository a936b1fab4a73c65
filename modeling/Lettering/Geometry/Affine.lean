import Lettering.Geometry.Point

/-!
# Affine maps

Maps `p ↦ (a c; b d) p + (tx, ty)` of the plane: translations, rotations and
their compositions.
-/

namespace Lettering

/-- An affine map, by the columns `(a, b)` and `(c, d)` of its matrix and its
translation. -/
structure Affine (α : Type) where
  a : α
  b : α
  c : α
  d : α
  tx : α
  ty : α
deriving DecidableEq

namespace Affine

variable {α : Type} [Scalar α]

def identity : Affine α := ⟨1, 0, 0, 1, 0, 0⟩

def translation (tx ty : α) : Affine α := ⟨1, 0, 0, 1, tx, ty⟩

/-- Counter-clockwise rotation about the origin, by radians. -/
def rotation (angle : α) : Affine α :=
  ⟨Scalar.cos angle, Scalar.sin angle, -Scalar.sin angle, Scalar.cos angle, 0, 0⟩

/-- The image of a point. -/
def apply (t : Affine α) (p : Point α) : Point α :=
  ⟨t.a * p.x + t.c * p.y + t.tx, t.b * p.x + t.d * p.y + t.ty⟩

/-- First `s`, then `t`. -/
def andThen (s t : Affine α) : Affine α where
  a := t.a * s.a + t.c * s.b
  b := t.b * s.a + t.d * s.b
  c := t.a * s.c + t.c * s.d
  d := t.b * s.c + t.d * s.d
  tx := t.a * s.tx + t.c * s.ty + t.tx
  ty := t.b * s.tx + t.d * s.ty + t.ty

end Affine

end Lettering
