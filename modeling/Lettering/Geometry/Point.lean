import Lettering.Scalar

/-!
# Points

Points of the drawing plane: `x` grows to the right and `y` upwards.
-/

namespace Lettering

/-- A point of the plane, or a vector. -/
structure Point (α : Type) where
  x : α
  y : α
deriving DecidableEq

namespace Point

variable {α : Type} [Scalar α]

def origin : Point α := ⟨0, 0⟩

/-- The point moved by `(dx, dy)`. -/
def shift (p : Point α) (dx dy : α) : Point α := ⟨p.x + dx, p.y + dy⟩

@[simp] theorem shift_x (p : Point α) (dx dy : α) : (p.shift dx dy).x = p.x + dx := rfl

@[simp] theorem shift_y (p : Point α) (dx dy : α) : (p.shift dx dy).y = p.y + dy := rfl

end Point

end Lettering
