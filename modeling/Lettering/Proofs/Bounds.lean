import Mathlib
import Lettering.Placement
import Lettering.Proofs.Boxes
import Lettering.Proofs.Makeup

/-!
# Bounds of a block

The box of a glyph is computed once, when the glyph is shaped; from then on it is moved beside the
outline and never computed anew.  The boxes of lines and of the block are unions that every step
which moves runs computes again.  `Job.bounds_sound` says that both ways end in boxes that hold
what they stand for, before and after the block is placed in the drawing.

What is carried along is that the outline of a glyph is framed by the box of the glyph
(`Outline.Framed`).
-/

namespace Lettering

theorem Outline.points_map {α : Type} (o : Outline α) (f : Point α → Point α) :
    (o.map f).points = o.points.map f := by
  rw [Outline.map, Outline.points, Outline.points, List.map_flatten]

variable {α : Type} [ExactScalar α]

/-! ## Moved drawings -/

theorem Point.shift_shift (p : Point α) (dx dy ex ey : α) :
    (p.shift dx dy).shift ex ey = p.shift (dx + ex) (dy + ey) := by
  simp only [Point.shift, add_assoc]

theorem Outline.shift_shift (o : Outline α) (dx dy ex ey : α) :
    (o.shift dx dy).shift ex ey = o.shift (dx + ex) (dy + ey) := by
  simp only [Outline.shift, Outline.map, List.map_map, Function.comp_def, Point.shift_shift]

theorem PlacedGlyph.shift_shift (g : PlacedGlyph α) (dx dy ex ey : α) :
    (g.shift dx dy).shift ex ey = g.shift (dx + ex) (dy + ey) := by
  simp only [PlacedGlyph.shift, Point.shift_shift, Outline.shift_shift, Box.shift_shift]

theorem Decoration.shift_shift (d : Decoration α) (dx dy ex ey : α) :
    (d.shift dx dy).shift ex ey = d.shift (dx + ex) (dy + ey) := by
  simp only [Decoration.shift, Point.shift_shift]

theorem Run.shift_shift (r : Run α) (dx dy ex ey : α) :
    (r.shift dx dy).shift ex ey = r.shift (dx + ex) (dy + ey) := by
  simp only [Run.shift, List.map_map, Function.comp_def, PlacedGlyph.shift_shift,
    Decoration.shift_shift, add_assoc]

theorem Point.shift_zero (p : Point α) : p.shift 0 0 = p := by
  rw [Point.shift, add_zero, add_zero]

theorem Outline.shift_zero (o : Outline α) : o.shift 0 0 = o := by
  simp only [Outline.shift, Outline.map, Point.shift_zero, List.map_id_fun', List.map_id]

theorem PlacedGlyph.shift_zero (g : PlacedGlyph α) : g.shift 0 0 = g := by
  simp only [PlacedGlyph.shift, Point.shift_zero, Outline.shift_zero, Box.shift_zero]

theorem Decoration.shift_zero (d : Decoration α) : d.shift 0 0 = d := by
  simp only [Decoration.shift, Point.shift_zero]

theorem Run.shift_zero (r : Run α) : r.shift 0 0 = r := by
  simp only [Run.shift, PlacedGlyph.shift_zero, Decoration.shift_zero, List.map_id', add_zero]

theorem Run.bounds_shift (r : Run α) (dx dy : α) :
    (r.shift dx dy).bounds = r.bounds.shift dx dy := by
  rw [Run.bounds, Run.bounds, ← Box.unions_shift, Run.shift, List.map_append, List.map_map,
    List.map_map, List.map_map, List.map_map]
  congr 2
  exact List.map_congr_left fun d _ => Box.spanning_shift d.start d.stop dx dy

/-! ## Outlines and their boxes -/

/-- A box that holds the points of an outline, and some point even if the outline has none. -/
structure Outline.Framed (o : Outline α) (b : Box α) : Prop where
  holds : ∀ p ∈ o.points, b.Holds p
  nonempty : b.isEmpty = false

namespace Outline.Framed

variable {o : Outline α} {b : Box α}

theorem shift (framed : o.Framed b) (dx dy : α) : (o.shift dx dy).Framed (b.shift dx dy) := by
  constructor
  · intro p member
    rw [Outline.shift, Outline.points_map] at member
    obtain ⟨q, inOutline, rfl⟩ := List.mem_map.mp member
    exact (framed.holds q inOutline).shift dx dy
  · exact ((Box.holds_lo framed.nonempty).shift dx dy).isEmpty

theorem image (framed : o.Framed b) (t : Affine α) : (o.map t.apply).Framed (b.image t) := by
  constructor
  · intro p member
    rw [Outline.points_map] at member
    obtain ⟨q, inOutline, rfl⟩ := List.mem_map.mp member
    exact (framed.holds q inOutline).image t
  · exact ((Box.holds_lo framed.nonempty).image t).isEmpty

end Outline.Framed

/-- The box of a shaped glyph is drawn around its advance cell and its finished outline. -/
theorem Resources.framed_finish (r : Resources α) (style : Style α) (c : Char) (kind : FontKind)
    (glyph : Glyph α) :
    (r.finish style c kind glyph).outline.Framed (r.finish style c kind glyph).bounds := by
  constructor
  · intro p member
    exact (Box.holds_ofPoints member).union_right _
  · exact ((Box.holds_spanning_left _ _).union_left _).isEmpty

theorem Resources.framed_shape (r : Resources α) (style : Style α) (c : Char) :
    (r.shape style c).outline.Framed (r.shape style c).bounds := by
  unfold Resources.shape
  split
  · exact r.framed_finish _ _ _ _
  · exact r.framed_finish _ _ _ _

/-! ## Runs -/

def Run.Framed (r : Run α) : Prop := ∀ g ∈ r.glyphs, g.outline.Framed g.bounds

theorem Run.Framed.shift {r : Run α} (framed : r.Framed) (dx dy : α) : (r.shift dx dy).Framed :=
  List.forall_mem_map.mpr fun g member => (framed g member).shift dx dy

theorem Run.Framed.image {r : Run α} (framed : r.Framed) (t : Affine α) : (r.image t).Framed :=
  List.forall_mem_map.mpr fun g member => (framed g member).image t

theorem Resources.framed_shapeText (r : Resources α) (style : Style α) (text : List Char) :
    ∀ g ∈ r.shapeText style text, g.outline.Framed g.bounds :=
  List.forall_mem_map.mpr fun c _ => r.framed_shape style c

/-- The glyphs of a stack are shaped ones, whatever its shape is. -/
theorem Resources.framed_layoutStack (r : Resources α) (style : Style α) (e : StackText) :
    ∀ g ∈ (r.layoutStack style e).glyphs, g.glyph.outline.Framed g.glyph.bounds := by
  have row (baseline pen : α) (style : Style α) (text : List Char) :
      ∀ g ∈ placeRow baseline pen (r.shapeText style text),
        g.glyph.outline.Framed g.glyph.bounds := by
    intro g member
    refine r.framed_shapeText style text g.glyph ?_
    rw [← placeRow_glyphs baseline pen (r.shapeText style text)]
    exact List.mem_map_of_mem member
  unfold Resources.layoutStack
  split
  · exact fun _ member => nomatch member
  · exact row _ _ _ _
  · exact row _ _ _ _
  · exact List.forall_mem_append.mpr ⟨row _ _ _ _, row _ _ _ _⟩

theorem Resources.framed_contentRun (r : Resources α) (style : Style α) (c : Content) (pen : α) :
    (r.contentRun style c pen).Framed := by
  cases c with
  | word text =>
    intro g member
    obtain ⟨shaped, inText, origin, rfl⟩ := exists_placedAt member
    exact (r.framed_shapeText style text.chars shaped inText).shift _ _
  | stack e =>
    exact List.forall_mem_map.mpr fun g member => (r.framed_layoutStack style e g member).shift _ _

theorem Job.framed_runs (job : Job α) (tokens : List (Token α)) :
    ∀ r ∈ (job.layout tokens).runs, r.Framed :=
  job.runs_all (fun _ _ _ framed => framed.shift _ _)
    (fun _ _ _ => Resources.framed_contentRun _ _ _ _) tokens

/-! ## Blocks -/

/-- The boxes of a block hold what they stand for, and are no larger than they have to be. -/
structure Block.Bounded (b : Block α) : Prop where
  /-- The box of a glyph holds every point of its outline, and is not empty. -/
  outline : ∀ r ∈ b.runs, ∀ g ∈ r.glyphs, g.outline.Framed g.bounds
  glyph : ∀ l ∈ b.lines, ∀ r ∈ l.runs, ∀ g ∈ r.glyphs, g.bounds.Within l.bounds
  decoration : ∀ l ∈ b.lines, ∀ r ∈ l.runs, ∀ d ∈ r.decorations,
    l.bounds.Holds d.start ∧ l.bounds.Holds d.stop
  line : ∀ l ∈ b.lines, l.bounds.Within b.bounds
  /-- Computing the boxes anew changes none of them. -/
  refreshed : b.refreshBounds = b
  empty : b.bounds.isEmpty = true ↔ ∀ r ∈ b.runs, r.glyphs = [] ∧ r.decorations = []

theorem Run.glyph_within {r : Run α} {g : PlacedGlyph α} (member : g ∈ r.glyphs) :
    g.bounds.Within r.bounds :=
  Box.within_unions (List.mem_append_left _ (List.mem_map_of_mem member))

theorem Run.holds_decoration {r : Run α} {d : Decoration α} (member : d ∈ r.decorations) :
    r.bounds.Holds d.start ∧ r.bounds.Holds d.stop := by
  have within : d.bounds.Within r.bounds :=
    Box.within_unions (List.mem_append_right _ (List.mem_map_of_mem member))
  exact ⟨within _ (Box.holds_spanning_left _ _), within _ (Box.holds_spanning_right _ _)⟩

theorem Run.Framed.isEmpty_bounds {r : Run α} (framed : r.Framed) :
    r.bounds.isEmpty = true ↔ r.glyphs = [] ∧ r.decorations = [] := by
  rw [Run.bounds, Box.isEmpty_unions, List.forall_mem_append, List.forall_mem_map,
    List.forall_mem_map]
  constructor
  · rintro ⟨glyphs, decorations⟩
    constructor
    · refine List.eq_nil_iff_forall_not_mem.mpr fun g member => ?_
      exact Bool.false_ne_true ((framed g member).nonempty.symm.trans (glyphs g member))
    · refine List.eq_nil_iff_forall_not_mem.mpr fun d member => ?_
      have drawn := (Box.holds_spanning_left d.start d.stop).isEmpty
      exact Bool.false_ne_true (drawn.symm.trans (decorations d member))
  · rintro ⟨noGlyph, noDecoration⟩
    rw [noGlyph, noDecoration]
    exact ⟨fun _ member => (nomatch member), fun _ member => nomatch member⟩

theorem Block.runs_refreshBounds {β : Type} [Scalar β] (b : Block β) :
    b.refreshBounds.runs = b.runs := by
  rw [Block.runs, Block.refreshBounds, List.map_map, Block.runs]
  rfl

theorem Block.bounded_refreshBounds {b : Block α} (framed : ∀ r ∈ b.runs, r.Framed) :
    b.refreshBounds.Bounded := by
  have lines : b.refreshBounds.lines = b.lines.map Line.refreshBounds := rfl
  constructor
  · rw [Block.runs_refreshBounds]
    exact framed
  · rw [lines]
    refine List.forall_mem_map.mpr fun l _ r inLine g inRun p held => ?_
    exact Box.within_unions (List.mem_map_of_mem inLine) p (Run.glyph_within inRun p held)
  · rw [lines]
    refine List.forall_mem_map.mpr fun l _ r inLine d inRun => ?_
    have ends := Run.holds_decoration inRun
    have inBox : r.bounds.Within l.refreshBounds.bounds :=
      Box.within_unions (List.mem_map_of_mem inLine)
    exact ⟨inBox _ ends.1, inBox _ ends.2⟩
  · intro l member
    exact Box.within_unions (List.mem_map_of_mem member)
  · have again : b.refreshBounds.lines.map Line.refreshBounds = b.refreshBounds.lines := by
      rw [lines, List.map_map]
      rfl
    rw [Block.refreshBounds, again]
    rfl
  · have line (l : Line α) : l.refreshBounds.bounds.isEmpty = true ↔
        ∀ r ∈ l.runs, r.bounds.isEmpty = true := by
      rw [Line.refreshBounds, Box.isEmpty_unions, List.forall_mem_map]
    have block : b.refreshBounds.bounds.isEmpty = true ↔
        ∀ r ∈ b.runs, r.bounds.isEmpty = true := by
      rw [Block.refreshBounds, Box.isEmpty_unions, List.forall_mem_map, List.forall_mem_map]
      constructor
      · intro empty r member
        obtain ⟨l, inBlock, inLine⟩ := Block.mem_runs.mp member
        exact (line l).mp (empty l inBlock) r inLine
      · intro empty l inBlock
        exact (line l).mpr fun r inLine => empty r (Block.mem_runs.mpr ⟨l, inBlock, inLine⟩)
    rw [block, Block.runs_refreshBounds]
    exact forall₂_congr fun r member => (framed r member).isEmpty_bounds

theorem Block.framed_image {b : Block α} (framed : ∀ r ∈ b.runs, r.Framed) (t : Affine α) :
    ∀ r ∈ (b.image t).runs, r.Framed := by
  rw [Block.image, Block.runs_refreshBounds]
  intro r member
  obtain ⟨moved, inMoved, onMoved⟩ := Block.mem_runs.mp member
  obtain ⟨l, inBlock, rfl⟩ := List.mem_map.mp inMoved
  obtain ⟨s, inLine, rfl⟩ := List.mem_map.mp onMoved
  exact (framed s (Block.mem_runs.mpr ⟨l, inBlock, inLine⟩)).image t

/-- **The boxes of a layout are sound**, and those of the block in its place in the drawing. -/
theorem Job.bounds_sound (job : Job α) (tokens : List (Token α)) :
    (job.layout tokens).Bounded ∧ (job.render tokens).Bounded := by
  have framed := job.framed_runs tokens
  constructor
  · rw [Job.layout, Pass.block] at framed ⊢
    rw [Block.runs_refreshBounds] at framed
    exact Block.bounded_refreshBounds framed
  · have placed := Block.framed_image framed ((job.layout tokens).placement job.entity)
    rw [Block.image, Block.runs_refreshBounds] at placed
    exact Block.bounded_refreshBounds placed

end Lettering
