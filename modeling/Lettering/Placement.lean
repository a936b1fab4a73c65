import Lettering.Pass

/-!
# Placement

A block is laid out about an origin of its own and then moved to its place in the
drawing: shifted until its attachment point is the origin, turned by the angle of
the entity, and moved to the insertion point.
-/

namespace Lettering

variable {α : Type} [Scalar α]

namespace Block

/-- The left and right edge that the attachment point refers to: those of the
reference width where lines wrap, else those of the box around the block. -/
def edges (b : Block α) (e : Entity α) : α × α :=
  if e.wraps then (0, e.width)
  else if b.bounds.isEmpty then (0, 0)
  else (b.bounds.lo.x, b.bounds.hi.x)

/-- The shift that brings the attachment point to the origin. -/
def anchorOffset (b : Block α) (e : Entity α) : α × α :=
  let (left, right) := b.edges e
  let dx := match e.attachment.horizontal with
    | .left => -left
    | .center => Scalar.half (-(left + right))
    | .right => -right
  let dy := match e.flow.isUpward, e.attachment.vertical with
    | true, .top => -b.height
    | true, .middle => Scalar.half (-b.height)
    | true, .bottom => 0
    | false, .top => 0
    | false, .middle => Scalar.half b.height
    | false, .bottom => b.height
  (dx, dy)

/-- The map from the frame of the block to the drawing. -/
def placement (b : Block α) (e : Entity α) : Affine α :=
  let offset := b.anchorOffset e
  ((Affine.translation offset.1 offset.2).andThen (.rotation e.angle)).andThen
    (.translation e.insertion.x e.insertion.y)

/-- The block at its place in the drawing. -/
def place (b : Block α) (e : Entity α) : Block α := b.image (b.placement e)

end Block

/-- Lays out a token stream and places the block. -/
def Job.render (job : Job α) (tokens : List (Token α)) : Block α :=
  (job.layout tokens).place job.entity

end Lettering
