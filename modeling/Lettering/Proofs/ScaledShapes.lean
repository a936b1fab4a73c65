import Mathlib
import Lettering.Font.BoxFonts
import Lettering.Proofs.Makeup
import Lettering.Proofs.ScaledDrawings

/-!
# Shapes at another scale

A style at another scale has its size scaled, and the blank that goes with it; all its other
attributes are factors, angles or names.  Where the answers of the fonts are homogeneous in the size
that they are asked at (`GlyphSource.Homogeneous`), shaping in the scaled style gives the scaled
glyphs, and so does laying out a stack and putting content on a line (`Resources.contentRun_scale`).
-/

namespace Lettering

variable {α : Type} [ExactScalar α]

def Glyph.scale (k : α) (g : Glyph α) : Glyph α :=
  ⟨k * g.advance, g.outline.map (Outline.scale k)⟩

def ShapedGlyph.scale (k : α) (g : ShapedGlyph α) : ShapedGlyph α :=
  { g with
    advance := k * g.advance
    outline := g.outline.scale k
    bounds := g.bounds.scale k }

def StackGlyph.scale (k : α) (g : StackGlyph α) : StackGlyph α :=
  ⟨g.glyph.scale k, g.origin.scale k⟩

def StackLayout.scale (k : α) (s : StackLayout α) : StackLayout α where
  glyphs := s.glyphs.map (StackGlyph.scale k)
  divider := s.divider.map fun ends => (ends.1.scale k, ends.2.scale k)
  width := k * s.width
  height := k * s.height

def Style.scale (k : α) (s : Style α) : Style α :=
  { s with size := k * s.size, blankWidth := k * s.blankWidth }

/-- Fonts that answer at a scaled size as they do at the size, with the glyph scaled. -/
structure GlyphSource.Homogeneous (k : α) (fonts : GlyphSource α) : Prop where
  glyph : ∀ c font size,
    fonts.glyph c font (k * size) = (fonts.glyph c font size).map (Glyph.scale k)
  search : ∀ c size, fonts.search c (k * size) =
    (fonts.search c size).map fun found => (found.1, found.2.scale k)

/-- Box fonts are homogeneous, whatever their names and gaps are. -/
theorem BoxFonts.homogeneous (k : α) (b : BoxFonts α) : b.source.Homogeneous k := by
  have box (c : Char) (size : α) : boxGlyph c (k * size) = (boxGlyph c size).scale k := by
    simp only [boxGlyph, Glyph.scale, mul_assoc]
    split
    · rfl
    · simp [Outline.scale, Outline.map, Point.scale]
  have answer (c : Char) (font : String) (size : α) :
      b.glyph c font (k * size) = (b.glyph c font size).map (Glyph.scale k) := by
    rw [BoxFonts.glyph, BoxFonts.glyph, box]
    split <;> rfl
  refine ⟨answer, fun c size => ?_⟩
  show b.fonts.findSome? _ = (b.fonts.findSome? _).map _
  rw [List.map_findSome?]
  simp only [answer, Option.map_map, Function.comp_def]

/-! ## Styles -/

theorem Style.effectiveSize_scale (k : α) (s : Style α) :
    (s.scale k).effectiveSize = k * s.effectiveSize := mul_assoc _ _ _

theorem Style.glyphSize_scale (k : α) (s : Style α) :
    (s.scale k).glyphSize = k * s.glyphSize := by
  rw [Style.glyphSize, Style.effectiveSize_scale, mul_assoc]
  rfl

theorem Style.scale_refreshBlank (k : α) (s : Style α) :
    s.refreshBlank.scale k = (s.scale k).refreshBlank := by
  rw [Style.refreshBlank, Style.refreshBlank, Style.effectiveSize_scale, mul_assoc]
  rfl

theorem Style.scale_untracked (k : α) (s : Style α) :
    s.untracked.scale k = (s.scale k).untracked := rfl

theorem Style.scale_script (k scale : α) (s : Style α) :
    (s.script scale).scale k = (s.scale k).script scale :=
  Style.scale_refreshBlank k _

/-! ## Glyphs -/

theorem Outline.scale_getD (k : α) (ink : Option (Outline α)) :
    (ink.map (Outline.scale k)).getD .blank = (ink.getD .blank).scale k := by
  cases ink <;> rfl

theorem placeholderBox_scale (k size : α) :
    placeholderBox (k * size) = (placeholderBox size).scale k := by
  simp only [placeholderBox, Glyph.scale, Option.map_some, Outline.scale, Outline.map,
    List.map_cons, List.map_nil, Point.scale, mul_assoc, mul_sub, mul_zero]

theorem slant_scale (k angle : α) (o : Outline α) :
    slant angle (o.scale k) = (slant angle o).scale k := by
  unfold slant
  split
  · refine (Outline.scale_map (fun p => ?_) o).symm
    simp only [Point.scale, Point.mk.injEq, and_true]
    ring
  · rfl

section Positive

variable {k : α} (pos : 0 < k)

include pos

/-- The stretch of a bold glyph is a ratio of lengths. -/
theorem embolden_scale (kind : FontKind) (expansion advance : α) (o : Outline α) :
    embolden kind (k * expansion) (k * advance) (o.scale k) =
      (embolden kind expansion advance o).scale k := by
  cases kind with
  | stroke => simp only [embolden, Outline.scale_append, Outline.scale_shift, mul_zero]
  | filled =>
    have ratio : (k * advance + k * expansion) / (k * advance) =
        (advance + expansion) / advance := by
      rw [← mul_add, mul_div_mul_left _ _ pos.ne']
    simp only [embolden, mul_pos_iff_of_pos_left pos, ratio]
    split
    · refine (Outline.scale_map (fun p => ?_) o).symm
      simp only [Point.scale, mul_assoc]
    · rfl

theorem Resources.finish_scale (r : Resources α) (s : Style α) (c : Char) (kind : FontKind)
    (g : Glyph α) : r.finish (s.scale k) c kind (g.scale k) = (r.finish s c kind g).scale k := by
  have factors : (s.scale k).widthFactor = s.widthFactor ∧ (s.scale k).bold = s.bold ∧
      (s.scale k).oblique = s.oblique ∧ (s.scale k).tracking = s.tracking := ⟨rfl, rfl, rfl, rfl⟩
  have expansion : r.settings.boldExpansion * (k * s.effectiveSize) =
      k * (r.settings.boldExpansion * s.effectiveSize) := mul_left_comm _ _ _
  have width : (g.scale k).advance * s.widthFactor = k * (g.advance * s.widthFactor) :=
    mul_assoc _ _ _
  have ink : ((g.scale k).outline.getD .blank).map (fun p => ⟨p.x * s.widthFactor, p.y⟩) =
      ((g.outline.getD .blank).map fun p => ⟨p.x * s.widthFactor, p.y⟩).scale k := by
    rw [Glyph.scale, Outline.scale_getD]
    refine (Outline.scale_map (fun p => ?_) _).symm
    simp only [Point.scale, mul_assoc]
  have cell (x y : α) : (Box.spanning .origin ⟨x, y⟩).scale k =
      Box.spanning .origin ⟨k * x, k * y⟩ := by
    rw [Box.scale_spanning pos, Point.scale_origin]
    rfl
  simp only [Resources.finish, ShapedGlyph.scale, factors, s.effectiveSize_scale k, expansion,
    width, ink, embolden_scale pos, Box.scale_union pos, cell, ← Outline.bounds_scale pos,
    ← slant_scale]
  cases s.bold with
  | true => simp only [if_true, ← mul_add, mul_assoc]
  | false => simp only [Bool.false_eq_true, if_false, mul_assoc]

end Positive

/-! ## Fonts that answer alike -/

section Homogeneous

variable {k : α} {r : Resources α} (same : r.fonts.Homogeneous k)

include same

theorem Resources.find?_scale (s : Style α) (c : Char) :
    r.find? (s.scale k) c = (r.find? s c).map fun e => (e.1, e.2.scale k) := by
  have active : r.fonts.glyph c (s.scale k).font (s.scale k).glyphSize =
      (r.fonts.glyph c s.font s.glyphSize).map (Glyph.scale k) := by
    rw [s.glyphSize_scale k]
    exact same.glyph c s.font s.glyphSize
  have big : r.fromBigFont? (s.scale k) c =
      (r.fromBigFont? s c).map fun e => (e.1, e.2.scale k) := by
    unfold Resources.fromBigFont?
    cases r.settings.bigFont with
    | none => rfl
    | some font =>
      simp only [s.glyphSize_scale k, same.glyph, Option.map_map, Function.comp_def]
      rfl
  have any : r.fromAnyFont? (s.scale k) c =
      (r.fromAnyFont? s c).map fun e => (e.1, e.2.scale k) := by
    simp only [Resources.fromAnyFont?, s.glyphSize_scale k, same.search, Option.map_map,
      Function.comp_def]
    rfl
  rw [Resources.find?, Resources.find?, active, big, any]
  cases r.fonts.glyph c s.font s.glyphSize with
  | some g => rfl
  | none => exact Option.map_or.symm

theorem Resources.placeholderGlyph_scale (s : Style α) :
    r.placeholderGlyph (s.scale k) = (r.placeholderGlyph s).scale k := by
  have answer : r.fonts.glyph r.settings.placeholder (s.scale k).font (s.scale k).glyphSize =
      (r.fonts.glyph r.settings.placeholder s.font s.glyphSize).map (Glyph.scale k) := by
    rw [s.glyphSize_scale k]
    exact same.glyph _ s.font s.glyphSize
  rw [Resources.placeholderGlyph, Resources.placeholderGlyph, answer, s.glyphSize_scale k,
    placeholderBox_scale]
  cases r.fonts.glyph r.settings.placeholder s.font s.glyphSize <;> rfl

theorem Resources.shapingIncidents_scale (s : Style α) (text : List Char) :
    r.shapingIncidents (s.scale k) text = r.shapingIncidents s text := by
  simp only [Resources.shapingIncidents, r.find?_scale same, Option.isNone_map]
  rfl

variable (pos : 0 < k)

include pos

theorem Resources.shape_scale (s : Style α) (c : Char) :
    r.shape (s.scale k) c = (r.shape s c).scale k := by
  rw [Resources.shape, Resources.shape, Resources.find?_scale same]
  cases r.find? s c with
  | some found => exact r.finish_scale pos s c found.1 found.2
  | none =>
    show r.finish _ _ _ (r.placeholderGlyph (s.scale k)) = _
    rw [Resources.placeholderGlyph_scale same]
    exact r.finish_scale pos s _ _ _

theorem Resources.shapeText_scale (s : Style α) (text : List Char) :
    r.shapeText (s.scale k) text = (r.shapeText s text).map (ShapedGlyph.scale k) := by
  rw [Resources.shapeText, Resources.shapeText, List.map_map]
  exact List.map_congr_left fun c _ => Resources.shape_scale same pos s c

end Homogeneous

/-! ## Rows of glyphs -/

theorem totalAdvance_scale (k : α) (glyphs : List (ShapedGlyph α)) :
    totalAdvance (glyphs.map (ShapedGlyph.scale k)) = k * totalAdvance glyphs := by
  rw [totalAdvance, totalAdvance, ← Scalar.sum_scale, List.map_map, List.map_map]
  rfl

theorem placeRow_scale (k baseline pen : α) (glyphs : List (ShapedGlyph α)) :
    placeRow (k * baseline) (k * pen) (glyphs.map (ShapedGlyph.scale k)) =
      (placeRow baseline pen glyphs).map (StackGlyph.scale k) := by
  induction glyphs generalizing pen with
  | nil => rfl
  | cons g rest ih =>
    have next : k * pen + (g.scale k).advance = k * (pen + g.advance) := (mul_add _ _ _).symm
    rw [List.map_cons, placeRow, next, ih]
    rfl

theorem Divider.segment_scale (k : α) (d : Divider) (size width : α) :
    d.segment (k * size) (k * width) =
      (d.segment size width).map fun ends => (ends.1.scale k, ends.2.scale k) := by
  cases d <;>
    simp only [Divider.segment, Option.map_some, Option.map_none, Point.scale, mul_left_comm k,
      mul_zero, mul_add]

section Placed

variable {k : α} (pos : 0 < k)

include pos

theorem ShapedGlyph.scale_placedAt (g : ShapedGlyph α) (origin : Point α) :
    (g.placedAt origin).scale k = (g.scale k).placedAt (origin.scale k) := by
  simp only [ShapedGlyph.placedAt, PlacedGlyph.scale, ShapedGlyph.scale, Outline.scale_shift,
    Box.scale_shift pos, Point.scale]

theorem placeGlyphs_scale (pen : α) (glyphs : List (ShapedGlyph α)) :
    placeGlyphs (k * pen) (glyphs.map (ShapedGlyph.scale k)) =
      (placeGlyphs pen glyphs).map (PlacedGlyph.scale k) := by
  have row := placeRow_scale k 0 pen glyphs
  rw [mul_zero] at row
  rw [placeGlyphs_eq_placeRow, placeGlyphs_eq_placeRow, row, List.map_map, List.map_map]
  exact List.map_congr_left fun g _ => (g.glyph.scale_placedAt pos g.origin).symm

end Placed

/-! ## Stacks -/

theorem Resources.stackStyle_scale (k : α) (r : Resources α) (s : Style α) (shape : StackShape) :
    r.stackStyle (s.scale k) shape = (r.stackStyle s shape).scale k := by
  cases shape with
  | empty | fraction => rfl
  | superscript | subscript => exact (s.scale_script k _).symm

section Contents

variable {k : α} {r : Resources α} (same : r.fonts.Homogeneous k) (pos : 0 < k)

include same pos

theorem Resources.layoutScript_scale (s : Style α) (text : String) (offset : α) :
    r.layoutScript (s.scale k) text offset = (r.layoutScript s text offset).scale k := by
  have rise : offset * (k * s.effectiveSize) = k * (offset * s.effectiveSize) :=
    mul_left_comm _ _ _
  have row (baseline : α) (glyphs : List (ShapedGlyph α)) :
      placeRow (k * baseline) 0 (glyphs.map (ShapedGlyph.scale k)) =
        (placeRow baseline 0 glyphs).map (StackGlyph.scale k) := by
    rw [← placeRow_scale, mul_zero]
  simp only [Resources.layoutScript, ← Style.scale_script, Resources.shapeText_scale same pos, rise,
    row, totalAdvance_scale, Style.effectiveSize_scale, ← mul_add, Scalar.greater_scale pos]
  rfl

theorem Resources.layoutFraction_scale (s : Style α) (e : StackText) :
    r.layoutFraction (s.scale k) e = (r.layoutFraction s e).scale k := by
  have rise (ratio : α) : ratio * (k * s.effectiveSize) = k * (ratio * s.effectiveSize) :=
    mul_left_comm _ _ _
  simp only [Resources.layoutFraction, ← Style.scale_untracked, Resources.shapeText_scale same pos,
    totalAdvance_scale, Style.effectiveSize_scale, rise, Scalar.greater_scale pos, ← mul_sub,
    Scalar.half_scale, placeRow_scale, ← List.map_append, Divider.segment_scale, ← mul_add]
  rfl

theorem Resources.layoutStack_scale (s : Style α) (e : StackText) :
    r.layoutStack (s.scale k) e = (r.layoutStack s e).scale k := by
  unfold Resources.layoutStack
  cases e.shape with
  | empty =>
    simp only [StackLayout.scale, s.effectiveSize_scale k, List.map_nil, Option.map_none, mul_zero]
  | superscript => exact Resources.layoutScript_scale same pos s _ _
  | subscript => exact Resources.layoutScript_scale same pos s _ _
  | fraction => exact Resources.layoutFraction_scale same pos s e

end Contents

/-! ## Runs -/

section Runs

variable {k : α}

theorem Decoration.along_scale (kind : DecorationKind) (origin : Point α) (size advance : α)
    (color : Rgb) :
    Decoration.along kind (origin.scale k) (k * size) (k * advance) color =
      (Decoration.along kind origin size advance color).scale k := by
  simp only [Decoration.along, Decoration.scale, Point.scale_shift, mul_left_comm k, mul_zero]

theorem Style.decorate_scale (s : Style α) (origin : Point α) (advance : α) :
    (s.scale k).decorate (origin.scale k) (k * advance) =
      (s.decorate origin advance).map (Decoration.scale k) := by
  simp only [Style.decorate, s.effectiveSize_scale k, Decoration.along_scale, List.map_map]
  rfl

variable (pos : 0 < k)

include pos

theorem wordRun_scale (s : Style α) (glyphs : List (ShapedGlyph α)) (startX : α) :
    wordRun (s.scale k) (glyphs.map (ShapedGlyph.scale k)) (k * startX) =
      (wordRun s glyphs startX).scale k := by
  have decorations (placed : List (PlacedGlyph α)) :
      (placed.map (PlacedGlyph.scale k)).flatMap
          (fun g => (s.scale k).decorate g.origin g.advance) =
        (placed.flatMap fun g => s.decorate g.origin g.advance).map (Decoration.scale k) := by
    simp only [List.flatMap_map, List.map_flatMap, ← s.decorate_scale]
    rfl
  simp only [wordRun, Run.scale, totalAdvance_scale, placeGlyphs_scale pos, s.effectiveSize_scale k,
    decorations]
  rfl

theorem stackRun_scale (s : Style α) (stack : StackLayout α) (startX : α) :
    stackRun (s.scale k) (stack.scale k) (k * startX) = (stackRun s stack startX).scale k := by
  have moved (p : Point α) : (p.scale k).shift (k * startX) 0 = (p.shift startX 0).scale k := by
    rw [Point.scale_shift, mul_zero]
  have glyphs : (stack.glyphs.map (StackGlyph.scale k)).map
        (fun g => g.glyph.placedAt (g.origin.shift (k * startX) 0)) =
      (stack.glyphs.map fun g => g.glyph.placedAt (g.origin.shift startX 0)).map
        (PlacedGlyph.scale k) := by
    simp only [List.map_map, Function.comp_def, ShapedGlyph.scale_placedAt pos, ← moved]
    rfl
  have decorations : (s.scale k).decorate ⟨k * startX, 0⟩ (k * stack.width) =
      (s.decorate ⟨startX, 0⟩ stack.width).map (Decoration.scale k) := by
    rw [← s.decorate_scale, Point.scale, mul_zero]
  have divider : ((stack.divider.map fun ends => (ends.1.scale k, ends.2.scale k)).map fun ends =>
        Decoration.mk .stackDivider (ends.1.shift (k * startX) 0) (ends.2.shift (k * startX) 0)
          s.color).toList =
      ((stack.divider.map fun ends => Decoration.mk .stackDivider (ends.1.shift startX 0)
        (ends.2.shift startX 0) s.color).toList).map (Decoration.scale k) := by
    cases stack.divider with
    | none => rfl
    | some ends => simp only [Option.map_some, Option.toList_some, List.map_cons, List.map_nil,
        Decoration.scale, moved]
  simp only [stackRun, StackLayout.scale, Run.scale, glyphs, List.map_append, decorations]
  rw [← divider]
  rfl

end Runs

section Contents

variable {k : α} {r : Resources α} (same : r.fonts.Homogeneous k) (pos : 0 < k)

include same pos

/-- Content in a scaled style leaves the scaled run. -/
theorem Resources.contentRun_scale (s : Style α) (c : Content) (pen : α) :
    r.contentRun (s.scale k) c (k * pen) = (r.contentRun s c pen).scale k := by
  cases c with
  | word text =>
    rw [Resources.contentRun, Resources.shapeText_scale same pos]
    exact wordRun_scale pos s _ pen
  | stack e =>
    rw [Resources.contentRun, Resources.layoutStack_scale same pos]
    exact stackRun_scale pos s _ pen

theorem Resources.contentWidth_scale (s : Style α) (c : Content) :
    r.contentWidth (s.scale k) c = k * r.contentWidth s c := by
  cases c with
  | word text =>
    rw [Resources.contentWidth, Resources.shapeText_scale same pos, totalAdvance_scale]
    rfl
  | stack e =>
    rw [Resources.contentWidth, Resources.layoutStack_scale same pos]
    rfl

theorem Resources.contentAdvance_scale (s : Style α) (c : Content) :
    r.contentAdvance (s.scale k) c = k * r.contentAdvance s c := by
  have width := Resources.contentWidth_scale same pos s c
  cases c with
  | word text => exact width
  | stack e => exact (congrArg (· + k * s.blankWidth) width).trans (mul_add _ _ _).symm

omit pos in
theorem Resources.contentIncidents_scale (s : Style α) (c : Content) :
    r.contentIncidents (s.scale k) c = r.contentIncidents s c := by
  cases c with
  | word text => exact Resources.shapingIncidents_scale same s _
  | stack e =>
    rw [Resources.contentIncidents, Resources.stackIncidents, Resources.stackStyle_scale,
      Resources.shapingIncidents_scale same]
    rfl

end Contents

end Lettering
