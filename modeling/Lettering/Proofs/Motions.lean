import Mathlib
import Lettering.Font.BoxFonts
import Lettering.Placement
import Lettering.Proofs.ExactArithmetic

/-!
# Placed blocks

A block is placed by a map of the plane.  The map moves what is drawn and nothing else: every glyph,
outline and decoration goes to its image, the boxes are computed anew, and all the rest stays as it
is (`Block.Moved`).

The map shifts the attachment point of the block to the origin, turns the plane, and shifts the
origin to the insertion point.  So it pins the attachment point (`Block.apply_placement`), and it is
a rigid motion wherever the sine and the cosine of the angle are those of an angle
(`Block.placement_rigid`).
-/

namespace Lettering

/-! ## What a map moves -/

section Moved

variable {α : Type} [Scalar α]

/-- The glyph `h` is `g` under a map. -/
structure PlacedGlyph.Moved (t : Affine α) (g h : PlacedGlyph α) : Prop where
  char : h.char = g.char
  kind : h.kind = g.kind
  advance : h.advance = g.advance
  origin : h.origin = t.apply g.origin
  outline : h.outline.contours = g.outline.contours.map fun contour => contour.map t.apply
  bounds : h.bounds = g.bounds.image t

/-- The decoration `e` is `d` under a map. -/
structure Decoration.Moved (t : Affine α) (d e : Decoration α) : Prop where
  kind : e.kind = d.kind
  color : e.color = d.color
  start : e.start = t.apply d.start
  stop : e.stop = t.apply d.stop

/-- The run `s` is `r` with what it draws under a map. -/
structure Run.Moved (t : Affine α) (r s : Run α) : Prop where
  color : s.color = r.color
  size : s.size = r.size
  charAlignment : s.charAlignment = r.charAlignment
  startX : s.startX = r.startX
  width : s.width = r.width
  glyphs : List.Forall₂ (PlacedGlyph.Moved t) r.glyphs s.glyphs
  decorations : List.Forall₂ (Decoration.Moved t) r.decorations s.decorations

/-- The line `m` is `l` with what its runs draw under a map. -/
structure Line.Moved (t : Affine α) (l m : Line α) : Prop where
  baseline : m.baseline = l.baseline
  advance : m.advance = l.advance
  maxSize : m.maxSize = l.maxSize
  startsParagraph : m.startsParagraph = l.startsParagraph
  runs : List.Forall₂ (Run.Moved t) l.runs m.runs
  bounds : m.bounds = .unions (m.runs.map Run.bounds)

/-- The block `c` is `b` with what its lines draw under a map. -/
structure Block.Moved (t : Affine α) (b c : Block α) : Prop where
  height : c.height = b.height
  diagnostics : c.diagnostics = b.diagnostics
  lines : List.Forall₂ (Line.Moved t) b.lines c.lines
  bounds : c.bounds = .unions (c.lines.map (·.bounds))

variable (t : Affine α)

theorem forall₂_map {β : Type} {R : β → β → Prop} {f : β → β} (moves : ∀ x, R x (f x))
    (l : List β) : List.Forall₂ R l (l.map f) :=
  List.forall₂_map_right_iff.mpr (List.forall₂_same.mpr fun x _ => moves x)

theorem Run.moved_image (r : Run α) : r.Moved t (r.image t) :=
  ⟨rfl, rfl, rfl, rfl, rfl, forall₂_map (fun _ => ⟨rfl, rfl, rfl, rfl, rfl, rfl⟩) _,
    forall₂_map (fun _ => ⟨rfl, rfl, rfl, rfl⟩) _⟩

theorem Block.moved_image (b : Block α) : b.Moved t (b.image t) := by
  refine ⟨rfl, rfl, ?_, rfl⟩
  show List.Forall₂ _ b.lines (List.map Line.refreshBounds (b.lines.map _))
  rw [List.map_map]
  exact forall₂_map (fun l => ⟨rfl, rfl, rfl, rfl, forall₂_map (Run.moved_image t) l.runs, rfl⟩) _

end Moved

variable {α : Type} [ExactScalar α]

/-! ## Rigid motions -/

/-- The square of the distance of two points. -/
def Point.distanceSq (p q : Point α) : α := (q.x - p.x) ^ 2 + (q.y - p.y) ^ 2

/-- A map that keeps distances, and with them angles, and does not turn the plane over. -/
structure Affine.Rigid (t : Affine α) : Prop where
  distance : ∀ p q, (t.apply p).distanceSq (t.apply q) = p.distanceSq q
  orientation : t.a * t.d - t.b * t.c = 1

theorem Affine.apply_andThen (s t : Affine α) (p : Point α) :
    (s.andThen t).apply p = t.apply (s.apply p) := by
  simp only [Affine.apply, Affine.andThen, Point.mk.injEq]
  constructor <;> ring

theorem Affine.apply_translation (tx ty : α) (p : Point α) :
    (Affine.translation tx ty).apply p = p.shift tx ty := by
  simp only [Affine.apply, Affine.translation, Point.shift, one_mul, zero_mul, add_zero, zero_add]

theorem Affine.apply_rotation_origin (angle : α) :
    (Affine.rotation angle).apply .origin = .origin := by
  simp only [Affine.apply, Affine.rotation, Point.origin, mul_zero, add_zero]

theorem Affine.Rigid.andThen {s t : Affine α} (first : s.Rigid) (second : t.Rigid) :
    (s.andThen t).Rigid := by
  constructor
  · intro p q
    rw [Affine.apply_andThen, Affine.apply_andThen, second.distance, first.distance]
  · calc (t.a * s.a + t.c * s.b) * (t.b * s.c + t.d * s.d) -
          (t.b * s.a + t.d * s.b) * (t.a * s.c + t.c * s.d)
        = (t.a * t.d - t.b * t.c) * (s.a * s.d - s.b * s.c) := by ring
      _ = 1 := by rw [first.orientation, second.orientation, one_mul]

theorem Affine.rigid_translation (tx ty : α) : (Affine.translation tx ty).Rigid := by
  constructor
  · intro p q
    simp only [Affine.apply_translation, Point.distanceSq, Point.shift, add_sub_add_right_eq_sub]
  · simp only [Affine.translation, mul_one, mul_zero, sub_zero]

theorem Affine.rigid_rotation {angle : α} (unit : Scalar.sin angle ^ 2 + Scalar.cos angle ^ 2 = 1) :
    (Affine.rotation angle).Rigid := by
  constructor
  · intro p q
    have turned : ((Affine.rotation angle).apply p).distanceSq ((Affine.rotation angle).apply q) =
        (Scalar.sin angle ^ 2 + Scalar.cos angle ^ 2) * p.distanceSq q := by
      simp only [Affine.apply, Affine.rotation, Point.distanceSq]
      ring
    rw [turned, unit, one_mul]
  · rw [← unit]
    simp only [Affine.rotation]
    ring

/-! ## The attachment point -/

/-- The rectangle that a block is attached by.  It reaches over the reference width where lines
wrap, else over the box around the block, and by the height of the block to the side to which its
lines follow each other. -/
def Block.rectangle (b : Block α) (e : Entity α) : Box α :=
  let sides : α × α :=
    if 0 < e.width then (0, e.width)
    else if b.bounds.isEmpty then (0, 0)
    else (b.bounds.lo.x, b.bounds.hi.x)
  match e.flow with
  | .bottomToTop => ⟨⟨sides.1, 0⟩, ⟨sides.2, b.height⟩⟩
  | .leftToRight | .topToBottom | .byStyle => ⟨⟨sides.1, -b.height⟩, ⟨sides.2, 0⟩⟩

/-- The point of a rectangle that an attachment names. -/
def Attachment.pointOf (a : Attachment) (r : Box α) : Point α where
  x := match a.horizontal with
    | .left => r.lo.x
    | .center => (r.lo.x + r.hi.x) / 2
    | .right => r.hi.x
  y := match a.vertical with
    | .top => r.hi.y
    | .middle => (r.lo.y + r.hi.y) / 2
    | .bottom => r.lo.y

theorem Block.edges_eq (b : Block α) (e : Entity α) :
    b.edges e = ((b.rectangle e).lo.x, (b.rectangle e).hi.x) := by
  have sides : b.edges e = if 0 < e.width then (0, e.width)
      else if b.bounds.isEmpty then (0, 0)
      else (b.bounds.lo.x, b.bounds.hi.x) := by
    simp only [Block.edges, Entity.wraps, decide_eq_true_eq]
  rw [sides, Block.rectangle]
  cases e.flow <;> rfl

/-- The anchor offset brings the attachment point of the rectangle to the origin. -/
theorem Block.shift_anchorOffset (b : Block α) (e : Entity α) :
    (e.attachment.pointOf (b.rectangle e)).shift (b.anchorOffset e).1 (b.anchorOffset e).2 =
      .origin := by
  have horizontal : (e.attachment.pointOf (b.rectangle e)).x + (b.anchorOffset e).1 = 0 := by
    simp only [Block.anchorOffset, b.edges_eq, Attachment.pointOf, Scalar.half_eq_div_two]
    cases e.attachment.horizontal <;> ring
  have vertical : (e.attachment.pointOf (b.rectangle e)).y + (b.anchorOffset e).2 = 0 := by
    simp only [Block.anchorOffset, Attachment.pointOf, Block.rectangle, Flow.isUpward,
      Scalar.half_eq_div_two]
    cases e.flow <;> cases e.attachment.vertical <;> ring
  exact congrArg₂ Point.mk horizontal vertical

/-- The placement of a block moves its attachment point to the insertion point. -/
theorem Block.apply_placement (b : Block α) (e : Entity α) :
    (b.placement e).apply (e.attachment.pointOf (b.rectangle e)) = e.insertion := by
  rw [Block.placement, Affine.apply_andThen, Affine.apply_andThen,
    Affine.apply_translation (b.anchorOffset e).1, b.shift_anchorOffset,
    Affine.apply_rotation_origin, Affine.apply_translation]
  simp only [Point.shift, Point.origin, zero_add]

theorem Block.placement_rigid (b : Block α) {e : Entity α}
    (unit : Scalar.sin e.angle ^ 2 + Scalar.cos e.angle ^ 2 = 1) : (b.placement e).Rigid :=
  ((Affine.rigid_translation _ _).andThen (Affine.rigid_rotation unit)).andThen
    (Affine.rigid_translation _ _)

/-- **A rendered text is its layout under the placement map**, which in exact arithmetic is a rigid
motion that moves the attachment point of the block to the insertion point. -/
theorem Job.render_moves :
    (∀ (β : Type) [Scalar β] (job : Job β) (tokens : List (Token β)),
      (job.layout tokens).Moved ((job.layout tokens).placement job.entity) (job.render tokens)) ∧
    ∀ (β : Type) [ExactScalar β] (job : Job β) (tokens : List (Token β)),
      let block := job.layout tokens
      let placement := block.placement job.entity
      (Scalar.sin job.entity.angle ^ 2 + Scalar.cos job.entity.angle ^ 2 = 1 → placement.Rigid) ∧
        placement.apply (job.entity.attachment.pointOf (block.rectangle job.entity)) =
          job.entity.insertion :=
  ⟨fun _ _ job tokens => (job.layout tokens).moved_image _, fun _ _ job tokens =>
    ⟨(job.layout tokens).placement_rigid, (job.layout tokens).apply_placement job.entity⟩⟩

/-- Two lines that stand on end, attached by their middle. -/
theorem Job.render_moves_upright :
    let job : Job ℝ :=
      { fonts := BoxFonts.standard.source
        palette := fun _ => none
        colors := {}
        settings := Settings.standard
        entity := { Entity.standard with
          insertion := ⟨5, 7⟩
          attachment := ⟨.middle, .center⟩
          direction := some ⟨0, 1⟩ } }
    let tokens : List (Token ℝ) := [.word (.text "low"), .paragraphBreak, .word (.text "high")]
    let block := job.layout tokens
    let placement := block.placement job.entity
    block.Moved placement (job.render tokens) ∧
      Scalar.sin job.entity.angle ^ 2 + Scalar.cos job.entity.angle ^ 2 = 1 ∧ placement.Rigid ∧
        placement.apply (job.entity.attachment.pointOf (block.rectangle job.entity)) = ⟨5, 7⟩ := by
  intro job tokens block placement
  have unit : Scalar.sin job.entity.angle ^ 2 + Scalar.cos job.entity.angle ^ 2 = 1 :=
    Real.sin_sq_add_cos_sq _
  obtain ⟨rigid, pinned⟩ := Job.render_moves.2 ℝ job tokens
  exact ⟨Job.render_moves.1 ℝ job tokens, unit, rigid unit, pinned⟩

end Lettering
