import Mathlib
import Lettering.Proofs.Bounds

/-!
# Drawings at another scale

What a layout draws, with every length multiplied by one factor.  A positive factor goes through
everything that is done with drawings: moving them, taking the boxes around them, and taking their
images under a map whose translation is scaled too.  So a block can be scaled before or after it is
placed (`Block.scale_place`).
-/

namespace Lettering

variable {α : Type} [ExactScalar α]

/-! ## Scaling -/

def Point.scale (k : α) (p : Point α) : Point α := ⟨k * p.x, k * p.y⟩

def Outline.scale (k : α) (o : Outline α) : Outline α := o.map (Point.scale k)

/-- The box with its corners scaled; an empty box stays as it is. -/
def Box.scale (k : α) (b : Box α) : Box α :=
  if b.isEmpty then b else ⟨b.lo.scale k, b.hi.scale k⟩

/-- The map between scaled planes. -/
def Affine.scale (k : α) (t : Affine α) : Affine α := { t with tx := k * t.tx, ty := k * t.ty }

def PlacedGlyph.scale (k : α) (g : PlacedGlyph α) : PlacedGlyph α :=
  { g with
    origin := g.origin.scale k
    advance := k * g.advance
    outline := g.outline.scale k
    bounds := g.bounds.scale k }

def Decoration.scale (k : α) (d : Decoration α) : Decoration α :=
  { d with start := d.start.scale k, stop := d.stop.scale k }

def Run.scale (k : α) (r : Run α) : Run α :=
  { r with
    size := k * r.size
    startX := k * r.startX
    width := k * r.width
    glyphs := r.glyphs.map (PlacedGlyph.scale k)
    decorations := r.decorations.map (Decoration.scale k) }

def Line.scale (k : α) (l : Line α) : Line α :=
  { l with
    baseline := k * l.baseline
    advance := k * l.advance
    maxSize := k * l.maxSize
    runs := l.runs.map (Run.scale k)
    bounds := l.bounds.scale k }

def Block.scale (k : α) (b : Block α) : Block α :=
  { b with
    height := k * b.height
    lines := b.lines.map (Line.scale k)
    bounds := b.bounds.scale k }

/-- The entity of a scaled drawing. -/
def Entity.scale (k : α) (e : Entity α) : Entity α :=
  { e with insertion := e.insertion.scale k, height := k * e.height, width := k * e.width }

/-! ## Lengths -/

namespace Scalar

theorem sum_scale (k : α) (terms : List α) : sum (terms.map (k * ·)) = k * sum terms := by
  rw [sum_eq_sum, sum_eq_sum]
  exact (List.sum_map_mul_left terms id k).trans (by rw [List.map_id])

theorem half_scale (k a : α) : half (k * a) = k * half a := mul_assoc _ _ _

theorem greater_scale {k : α} (pos : 0 < k) (a b : α) :
    greater (k * a) (k * b) = k * greater a b := by
  rw [greater_eq_max, greater_eq_max, mul_max_of_nonneg _ _ pos.le]

end Scalar

/-! ## Points and outlines -/

theorem Point.scale_shift (k : α) (p : Point α) (dx dy : α) :
    (p.shift dx dy).scale k = (p.scale k).shift (k * dx) (k * dy) := by
  simp only [Point.scale, Point.shift, mul_add]

theorem Point.scale_origin (k : α) : (Point.origin : Point α).scale k = .origin := by
  simp only [Point.scale, Point.origin, mul_zero]

theorem Point.scale_apply (k : α) (t : Affine α) (p : Point α) :
    (t.apply p).scale k = (t.scale k).apply (p.scale k) := by
  simp only [Point.scale, Affine.apply, Affine.scale, Point.mk.injEq]
  constructor <;> ring

/-- What goes through the points of an outline goes through the outline. -/
theorem Outline.scale_map {k : α} {f g : Point α → Point α}
    (through : ∀ p, (f p).scale k = g (p.scale k)) (o : Outline α) :
    (o.map f).scale k = (o.scale k).map g := by
  simp only [Outline.scale, Outline.map, List.map_map, Function.comp_def, through]

theorem Outline.scale_shift (k : α) (o : Outline α) (dx dy : α) :
    (o.shift dx dy).scale k = (o.scale k).shift (k * dx) (k * dy) :=
  Outline.scale_map (fun p => p.scale_shift k dx dy) o

theorem Outline.scale_append (k : α) (o other : Outline α) :
    (o.append other).scale k = (o.scale k).append (other.scale k) := by
  simp only [Outline.scale, Outline.map, Outline.append, List.map_append]

theorem Outline.points_scale (k : α) (o : Outline α) :
    (o.scale k).points = o.points.map (Point.scale k) :=
  o.points_map (Point.scale k)

/-! ## Boxes -/

namespace Box

theorem scale_empty (k : α) : (empty : Box α).scale k = empty := if_pos isEmpty_empty

theorem scale_of_nonempty (k : α) {b : Box α} (nonempty : b.isEmpty = false) :
    b.scale k = ⟨b.lo.scale k, b.hi.scale k⟩ := mapAxes_of_nonempty nonempty (k * ·) (k * ·)

end Box

section Positive

variable {k : α} (pos : 0 < k)

include pos

namespace Box

theorem isEmpty_scale (b : Box α) : (b.scale k).isEmpty = b.isEmpty :=
  isEmpty_mapAxes (strictMono_mul_left_of_pos pos) (strictMono_mul_left_of_pos pos) b

theorem scale_spanning (p q : Point α) :
    (spanning p q).scale k = spanning (p.scale k) (q.scale k) :=
  (spanning_mapAxes (strictMono_mul_left_of_pos pos) (strictMono_mul_left_of_pos pos) p q).symm

theorem scale_union (b c : Box α) : (b.union c).scale k = (b.scale k).union (c.scale k) :=
  (union_mapAxes (strictMono_mul_left_of_pos pos) (strictMono_mul_left_of_pos pos) b c).symm

theorem scale_unions (boxes : List (Box α)) :
    (unions boxes).scale k = unions (boxes.map (Box.scale k)) :=
  (unions_mapAxes (strictMono_mul_left_of_pos pos) (strictMono_mul_left_of_pos pos) boxes).symm

theorem scale_ofPoints (points : List (Point α)) :
    (ofPoints points).scale k = ofPoints (points.map (Point.scale k)) :=
  (ofPoints_mapAxes (strictMono_mul_left_of_pos pos) (strictMono_mul_left_of_pos pos) points).symm

theorem scale_shift (b : Box α) (dx dy : α) :
    (b.shift dx dy).scale k = (b.scale k).shift (k * dx) (k * dy) := by
  cases found : b.isEmpty with
  | true =>
    have unmoved (dx dy : α) : b.shift dx dy = b := if_pos found
    have unscaled : b.scale k = b := if_pos found
    rw [unmoved, unscaled, unmoved]
  | false =>
    have moved : (b.shift dx dy).isEmpty = false := (isEmpty_shift b dx dy).trans found
    have same : (b.scale k).isEmpty = false := (isEmpty_scale pos b).trans found
    rw [scale_of_nonempty k moved, shift_of_nonempty found, shift_of_nonempty same,
      scale_of_nonempty k found]
    simp only [Point.scale_shift]

theorem scale_image (b : Box α) (t : Affine α) :
    (b.image t).scale k = (b.scale k).image (t.scale k) := by
  cases found : b.isEmpty with
  | true =>
    have unmoved (t : Affine α) : b.image t = b := if_pos found
    have unscaled : b.scale k = b := if_pos found
    rw [unmoved, unscaled, unmoved]
  | false =>
    have corners : (b.scale k).corners = b.corners.map (Point.scale k) := by
      rw [scale_of_nonempty k found]
      rfl
    rw [Box.image, Box.image, isEmpty_scale pos, found, if_neg Bool.false_ne_true,
      if_neg Bool.false_ne_true, scale_ofPoints pos, corners, List.map_map, List.map_map]
    exact congrArg _ (List.map_congr_left fun p _ => p.scale_apply k t)

end Box

theorem Outline.bounds_scale (o : Outline α) : (o.scale k).bounds = o.bounds.scale k := by
  rw [Outline.bounds, Outline.points_scale, ← Box.scale_ofPoints pos, Outline.bounds]

/-! ## Runs -/

theorem PlacedGlyph.scale_shift (g : PlacedGlyph α) (dx dy : α) :
    (g.shift dx dy).scale k = (g.scale k).shift (k * dx) (k * dy) := by
  simp only [PlacedGlyph.scale, PlacedGlyph.shift, Point.scale_shift, Outline.scale_shift,
    Box.scale_shift pos]

theorem PlacedGlyph.scale_image (g : PlacedGlyph α) (t : Affine α) :
    (g.image t).scale k = (g.scale k).image (t.scale k) := by
  simp only [PlacedGlyph.scale, PlacedGlyph.image, Point.scale_apply, Box.scale_image pos,
    Outline.scale_map fun p => p.scale_apply k t]

omit pos in
theorem Decoration.scale_shift (d : Decoration α) (dx dy : α) :
    (d.shift dx dy).scale k = (d.scale k).shift (k * dx) (k * dy) := by
  simp only [Decoration.scale, Decoration.shift, Point.scale_shift]

omit pos in
theorem Decoration.scale_image (d : Decoration α) (t : Affine α) :
    (d.image t).scale k = (d.scale k).image (t.scale k) := by
  simp only [Decoration.scale, Decoration.image, Point.scale_apply]

theorem Decoration.bounds_scale (d : Decoration α) : (d.scale k).bounds = d.bounds.scale k :=
  (Box.scale_spanning pos d.start d.stop).symm

theorem Run.scale_shift (r : Run α) (dx dy : α) :
    (r.shift dx dy).scale k = (r.scale k).shift (k * dx) (k * dy) := by
  simp only [Run.scale, Run.shift, List.map_map, Function.comp_def, PlacedGlyph.scale_shift pos,
    Decoration.scale_shift, mul_add]

theorem Run.scale_image (r : Run α) (t : Affine α) :
    (r.image t).scale k = (r.scale k).image (t.scale k) := by
  simp only [Run.scale, Run.image, List.map_map, Function.comp_def, PlacedGlyph.scale_image pos,
    Decoration.scale_image]

theorem Run.bounds_scale (r : Run α) : (r.scale k).bounds = r.bounds.scale k := by
  simp only [Run.bounds, Box.scale_unions pos, Run.scale, List.map_append, List.map_map,
    Function.comp_def, PlacedGlyph.scale, Decoration.bounds_scale pos]

omit pos in
theorem Run.endX_scale (r : Run α) : (r.scale k).endX = k * r.endX := (mul_add _ _ _).symm

/-! ## Lines and blocks -/

theorem Line.scale_refreshBounds (l : Line α) :
    l.refreshBounds.scale k = (l.scale k).refreshBounds := by
  simp only [Line.refreshBounds, Line.scale, Box.scale_unions pos, List.map_map,
    Function.comp_def, Run.bounds_scale pos]

theorem Block.scale_refreshBounds (b : Block α) :
    b.refreshBounds.scale k = (b.scale k).refreshBounds := by
  simp only [Block.refreshBounds, Block.scale, Box.scale_unions pos, List.map_map,
    Function.comp_def, ← Line.scale_refreshBounds pos]
  rfl

theorem Block.scale_image (b : Block α) (t : Affine α) :
    (b.image t).scale k = (b.scale k).image (t.scale k) := by
  rw [Block.image, Block.image, Block.scale_refreshBounds pos]
  simp only [Block.scale, List.map_map, Function.comp_def, Line.scale, Run.scale_image pos]

/-! ## Placement -/

theorem Entity.wraps_scale (e : Entity α) : (e.scale k).wraps = e.wraps :=
  decide_eq_decide.mpr (mul_pos_iff_of_pos_left pos)

theorem Block.edges_scale (b : Block α) (e : Entity α) :
    (b.scale k).edges (e.scale k) = (k * (b.edges e).1, k * (b.edges e).2) := by
  have empty : (b.scale k).bounds.isEmpty = b.bounds.isEmpty := Box.isEmpty_scale pos b.bounds
  rw [Block.edges, Block.edges, Entity.wraps_scale pos, empty]
  cases e.wraps with
  | true => exact Prod.ext (mul_zero k).symm rfl
  | false =>
    cases found : b.bounds.isEmpty with
    | true => exact Prod.ext (mul_zero k).symm (mul_zero k).symm
    | false =>
      have scaled : (b.scale k).bounds = ⟨b.bounds.lo.scale k, b.bounds.hi.scale k⟩ :=
        Box.scale_of_nonempty k found
      rw [scaled]
      rfl

theorem Block.anchorOffset_scale (b : Block α) (e : Entity α) :
    (b.scale k).anchorOffset (e.scale k) =
      (k * (b.anchorOffset e).1, k * (b.anchorOffset e).2) := by
  have attachment : (e.scale k).attachment = e.attachment := rfl
  have flow : (e.scale k).flow = e.flow := rfl
  have height : (b.scale k).height = k * b.height := rfl
  simp only [Block.anchorOffset, b.edges_scale pos, attachment, flow, height,
    Scalar.half_eq_div_two]
  refine Prod.ext ?_ ?_
  · cases e.attachment.horizontal <;> ring
  · cases e.flow.isUpward <;> cases e.attachment.vertical <;> ring

theorem Block.placement_scale (b : Block α) (e : Entity α) :
    (b.scale k).placement (e.scale k) = (b.placement e).scale k := by
  have angle : (e.scale k).angle = e.angle := rfl
  rw [Block.placement, Block.placement, b.anchorOffset_scale pos, angle]
  simp only [Affine.scale, Affine.andThen, Affine.translation, Affine.rotation, Entity.scale,
    Point.scale, Affine.mk.injEq, true_and]
  constructor <;> ring

/-- A block at its place is scaled as the block and its entity are. -/
theorem Block.scale_place (b : Block α) (e : Entity α) :
    (b.place e).scale k = (b.scale k).place (e.scale k) := by
  rw [Block.place, Block.scale_image pos, Block.place, Block.placement_scale pos]

end Positive

end Lettering
