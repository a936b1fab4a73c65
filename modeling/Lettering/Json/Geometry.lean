import Lettering.Geometry.Outline
import Lettering.Json.Field

/-!
# Geometry in JSON

Writers take the way to write a number, since JSON has no form for one that is not
finite.
-/

namespace Lettering

variable {α : Type}

/-- A finite scalar as a number, any other as `null`. -/
def Json.ofScalar [Scalar α] (x : α) : Json α := if Scalar.isFinite x then .float x else .null

/-- A value that may be absent, as `null` where it is. -/
def Json.ofOption {τ : Type} (write : τ → Json α) : Option τ → Json α
  | none => .null
  | some t => write t

/-- A list as an array. -/
def Json.ofList {τ : Type} (write : τ → Json α) (items : List τ) : Json α := .arr (items.map write)

namespace Point

def toJson (number : α → Json α) (p : Point α) : Json α :=
  .obj [("x", number p.x), ("y", number p.y)]

def ofJson? [Scalar α] (j : Json α) : Option (Point α) := do
  let f ← j.fields? ["x", "y"]
  return ⟨← f.need "x" Json.number?, ← f.need "y" Json.number?⟩

end Point

namespace Box

def toJson (number : α → Json α) (b : Box α) : Json α :=
  .obj [("min", b.lo.toJson number), ("max", b.hi.toJson number)]

def ofJson? [Scalar α] (j : Json α) : Option (Box α) := do
  let f ← j.fields? ["min", "max"]
  return ⟨← f.need "min" Point.ofJson?, ← f.need "max" Point.ofJson?⟩

end Box

/-- Contours as a list of lists of points. -/
def contoursToJson (number : α → Json α) (contours : List (List (Point α))) : Json α :=
  .ofList (.ofList (Point.toJson number)) contours

namespace Outline

def toJson (number : α → Json α) (o : Outline α) : Json α :=
  .obj [("contours", contoursToJson number o.contours)]

def ofJson? [Scalar α] (j : Json α) : Option (Outline α) := do
  let f ← j.fields? ["contours"]
  return ⟨← f.need "contours" (Json.list? (Json.list? Point.ofJson?))⟩

end Outline

end Lettering
