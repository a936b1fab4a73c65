import Mathlib
import Lettering.Font.BoxFonts
import Lettering.Proofs.GlyphRows
import Lettering.Proofs.StackedTexts

/-!
# The geometry of stacks

Where the glyphs of a stack stand in its own frame, in exact arithmetic.  Each text is a row without
gaps on a baseline of its own (`Resources.SetsText`).  The two rows of a fraction are centered about
one axis and the wider of them fills the width; the row of a lone script starts at the pen
(`Resources.layoutStack_sets`).

The rows are like that of a word (`SideBySide`), but for the frame that they stand in.
-/

namespace Lettering

variable {α : Type} [ExactScalar α]

/-- Where the cell of a glyph ends. -/
def StackGlyph.endX (g : StackGlyph α) : α := g.origin.x + g.glyph.advance

/-- How far a text moves the pen in a style. -/
def Resources.textAdvance (r : Resources α) (style : Style α) (text : String) : α :=
  totalAdvance (r.shapeText style text.toList)

/-- A text of a stack, shaped in a style: a row without gaps from one abscissa to another. -/
structure Resources.SetsText (r : Resources α) (stack : StackLayout α) (style : Style α)
    (text : String) (baseline start stop : α) (row : List (StackGlyph α)) : Prop where
  shaped : row.map StackGlyph.glyph = r.shapeText style text.toList
  level : ∀ g ∈ row, g.origin.y = baseline
  first : ∀ g ∈ row.head?, g.origin.x = start
  next : row.IsChain fun g h => h.origin.x = g.endX
  last : ∀ g ∈ row.getLast?, g.endX = stop
  /-- Where no glyph moves the pen back, the cell of each lies within the width of the stack. -/
  within : (∀ g ∈ row, 0 ≤ g.glyph.advance) → ∀ g ∈ row, 0 ≤ g.origin.x ∧ g.endX ≤ stack.width
  /-- A glyph reaches up to the height of the stack at most, by the size that it was shaped at. -/
  below : ∀ g ∈ row, g.origin.y + style.effectiveSize ≤ stack.height

/-- A text of a fraction: a row with equal slack on both sides, at a baseline in units of the
size. -/
structure Resources.SetsHalf (r : Resources α) (stack : StackLayout α) (style : Style α)
    (text : String) (rise : α) (row : List (StackGlyph α)) : Prop where
  centered : r.SetsText stack style.untracked text (rise * style.effectiveSize)
    ((stack.width - r.textAdvance style.untracked text) / 2)
    ((stack.width + r.textAdvance style.untracked text) / 2) row

/-- A stack of two texts above each other, one of which may be empty. -/
structure Resources.SetsFraction (r : Resources α) (style : Style α) (e : StackText)
    (stack : StackLayout α) (upper lower : List (StackGlyph α)) : Prop where
  width : stack.width =
    max (r.textAdvance style.untracked e.numerator) (r.textAdvance style.untracked e.denominator)
  glyphs : stack.glyphs = upper ++ lower
  upper : r.SetsHalf stack style e.numerator 0.6 upper
  lower : r.SetsHalf stack style e.denominator (-0.6) lower

/-- A stack of one text that starts at the pen, at an offset in units of the size. -/
structure Resources.SetsScript (r : Resources α) (style : Style α) (text : String) (offset : α)
    (stack : StackLayout α) : Prop where
  width : stack.width = r.textAdvance (style.script r.settings.scriptScale) text
  row : r.SetsText stack (style.script r.settings.scriptScale) text
    (offset * style.effectiveSize) 0 stack.width stack.glyphs

/-- The layout of a stack in a style. -/
structure Resources.SetsStack (r : Resources α) (style : Style α) (e : StackText)
    (stack : StackLayout α) : Prop where
  empty : e.numerator = "" → e.denominator = "" → stack.glyphs = [] ∧ stack.width = 0
  fraction : (e.numerator ≠ "" ∨ e.denominator ≠ "") → ¬ e.IsScript →
    ∃ upper lower, r.SetsFraction style e stack upper lower
  superscript : e.divider = .tolerance → e.numerator ≠ "" → e.denominator = "" →
    r.SetsScript style e.numerator r.settings.superscriptOffset stack
  subscript : e.divider = .tolerance → e.numerator = "" → e.denominator ≠ "" →
    r.SetsScript style e.denominator r.settings.subscriptOffset stack
  /-- A rule or a stroke is drawn where the divider is one and there is a text, -/
  divided : stack.divider.isSome = true ↔
    (e.divider = .line ∨ e.divider = .slash) ∧ (e.numerator ≠ "" ∨ e.denominator ≠ "")
  /-- as wide as the stack. -/
  across : ∀ ends ∈ stack.divider, ends.1.x = 0 ∧ ends.2.x = stack.width

/-! ## Rows -/

/-- A row that fits into the width of a stack and stays below its height. -/
theorem Resources.setsText_placeRow (r : Resources α) {stack : StackLayout α} {style : Style α}
    {text : String} {baseline start stop : α} (ends : start + r.textAdvance style text = stop)
    (left : 0 ≤ start) (right : stop ≤ stack.width)
    (below : baseline + style.effectiveSize ≤ stack.height) :
    r.SetsText stack style text baseline start stop
      (placeRow baseline start (r.shapeText style text.toList)) := by
  let glyphs := r.shapeText style text.toList
  let row := placeRow baseline start glyphs
  have sideBySide : SideBySide ⟨start, baseline⟩ (row.map StackGlyph.placed) :=
    sideBySide_placeRow _ _ _
  have advances : ((row.map StackGlyph.placed).map (·.advance)).sum = r.textAdvance style text :=
    advances_placeRow _ _ _
  have level : ∀ g ∈ row, g.origin.y = baseline := level_placeRow _ _ _
  refine ⟨placeRow_glyphs _ _ _, level, fun g head => ?_, ?_, fun g last => ?_, ?_,
    fun g member => ?_⟩
  · have filled : row ≠ [] := List.ne_nil_of_mem (List.mem_of_mem_head? head)
    have first := sideBySide.first (mt List.map_eq_nil_iff.mp filled)
    rw [List.head?_map, Option.mem_def.mp head] at first
    exact congrArg Point.x (Option.some.inj first)
  · have next := sideBySide.next
    rw [List.isChain_map] at next
    exact next.imp fun g h meets => congrArg Point.x meets
  · have filled : row ≠ [] := List.ne_nil_of_mem (List.mem_of_mem_getLast? last)
    have stops := sideBySide.last (mt List.map_eq_nil_iff.mp filled)
    rw [List.getLast?_map, Option.mem_def.mp last, advances, ends] at stops
    exact Option.some.inj stops
  · intro forward g member
    obtain ⟨after, before⟩ := sideBySide.within (List.forall_mem_map.mpr forward) g.placed
      (List.mem_map_of_mem member)
    rw [advances, ends] at before
    exact ⟨left.trans after, before.trans right⟩
  · rw [level g member]
    exact below

/-! ## The shapes of stacks -/

variable (r : Resources α) (style : Style α)

/-- The row of a lone script starts at the pen, and the height counts from its baseline or from that
of the line, whichever is higher. -/
theorem Resources.layoutScript_sets (text : String) (offset : α) :
    r.SetsScript style text offset (r.layoutScript style text offset) := by
  have height : (r.layoutScript style text offset).height =
      max (offset * style.effectiveSize + (style.script r.settings.scriptScale).effectiveSize)
        (style.script r.settings.scriptScale).effectiveSize := Scalar.greater_eq_max _ _
  refine ⟨rfl, r.setsText_placeRow (zero_add _) (le_refl 0) (le_refl _) ?_⟩
  rw [height]
  exact le_max_left _ _

variable {style}

/-- A text that is no wider than a stack stands in the middle of it. -/
theorem Resources.setsHalf_placeRow {stack : StackLayout α} {text : String} {rise : α}
    (fits : r.textAdvance style.untracked text ≤ stack.width)
    (below : rise * style.effectiveSize + style.effectiveSize ≤ stack.height) :
    r.SetsHalf stack style text rise
      (placeRow (rise * style.effectiveSize)
        (Scalar.half (stack.width - r.textAdvance style.untracked text))
        (r.shapeText style.untracked text.toList)) := by
  rw [Scalar.half_eq_div_two]
  refine ⟨r.setsText_placeRow ?_ ?_ ?_ below⟩
  · ring
  · linarith
  · linarith

/-- The lower text of a fraction is below the upper one, which is as high as the fraction. -/
theorem Resources.layoutFraction_sets (size : 0 ≤ style.effectiveSize) (e : StackText) :
    ∃ upper lower, r.SetsFraction style e (r.layoutFraction style e) upper lower := by
  have width : (r.layoutFraction style e).width =
      max (r.textAdvance style.untracked e.numerator)
        (r.textAdvance style.untracked e.denominator) := Scalar.greater_eq_max _ _
  have height : (r.layoutFraction style e).height =
      0.6 * style.effectiveSize + style.effectiveSize := rfl
  have rise : 0 ≤ 0.6 * style.effectiveSize := mul_nonneg (by norm_num) size
  refine ⟨_, _, width, rfl, r.setsHalf_placeRow ?_ height.ge, r.setsHalf_placeRow ?_ ?_⟩
  · rw [width]
    exact le_max_left _ _
  · rw [width]
    exact le_max_right _ _
  · rw [height, neg_mul]
    linarith

/-! ## Dividers -/

theorem Divider.isSome_segment (d : Divider) (size width : α) :
    (d.segment size width).isSome = true ↔ d = .line ∨ d = .slash := by
  cases d <;> simp [Divider.segment]

theorem Divider.segment_across {d : Divider} {size width : α} {ends : Point α × Point α}
    (drawn : ends ∈ d.segment size width) : ends.1.x = 0 ∧ ends.2.x = width := by
  cases d <;> cases drawn <;> exact ⟨rfl, rfl⟩

/-- A stack with a text draws what its divider draws, which is nothing for a lone script. -/
theorem Resources.divider_layoutStack {e : StackText}
    (inked : e.numerator ≠ "" ∨ e.denominator ≠ "") : (r.layoutStack style e).divider =
      e.divider.segment style.effectiveSize (r.layoutStack style e).width := by
  by_cases script : e.IsScript
  · obtain ⟨lone, ⟨upper, lower⟩ | ⟨upper, lower⟩⟩ := script
    · rw [Resources.layoutStack, StackText.shape_of_superscript lone upper lower, lone]
      rfl
    · rw [Resources.layoutStack, StackText.shape_of_subscript lone upper lower, lone]
      rfl
  · rw [Resources.layoutStack, StackText.shape_of_fraction inked script]
    rfl

theorem Resources.layoutStack_of_empty {e : StackText} (upper : e.numerator = "")
    (lower : e.denominator = "") :
    r.layoutStack style e = ⟨[], none, 0, style.effectiveSize⟩ := by
  rw [Resources.layoutStack, StackText.shape_of_empty upper lower]

/-- **The geometry of stacks**: the texts of a fraction are centered about one axis, a lone script
starts at the pen, and no glyph stands out at the sides or at the top. -/
theorem Resources.layoutStack_sets (size : 0 ≤ style.effectiveSize) (e : StackText) :
    r.SetsStack style e (r.layoutStack style e) := by
  refine ⟨fun upper lower => ?_, fun inked pair => ?_, fun lone upper lower => ?_,
    fun lone upper lower => ?_, ?_, fun ends drawn => ?_⟩
  · rw [r.layoutStack_of_empty upper lower]
    exact ⟨rfl, rfl⟩
  · rw [Resources.layoutStack, StackText.shape_of_fraction inked pair]
    exact r.layoutFraction_sets size e
  · rw [Resources.layoutStack, StackText.shape_of_superscript lone upper lower]
    exact r.layoutScript_sets style _ _
  · rw [Resources.layoutStack, StackText.shape_of_subscript lone upper lower]
    exact r.layoutScript_sets style _ _
  · by_cases inked : e.numerator ≠ "" ∨ e.denominator ≠ ""
    · rw [r.divider_layoutStack inked, Divider.isSome_segment]
      exact (and_iff_left inked).symm
    · obtain ⟨upper, lower⟩ := not_or.mp inked
      rw [r.layoutStack_of_empty (not_not.mp upper) (not_not.mp lower)]
      exact iff_of_false Bool.false_ne_true fun drawn => inked drawn.2
  · by_cases inked : e.numerator ≠ "" ∨ e.denominator ≠ ""
    · rw [r.divider_layoutStack inked] at drawn
      exact Divider.segment_across drawn
    · obtain ⟨upper, lower⟩ := not_or.mp inked
      rw [r.layoutStack_of_empty (not_not.mp upper) (not_not.mp lower)] at drawn
      cases drawn

/-- A fraction of two texts and a lone subscript, in bold. -/
theorem Resources.layoutStack_sets_bold :
    let r : Resources ℝ :=
      { fonts := BoxFonts.standard.source
        palette := fun _ => none
        colors := {}
        settings := Settings.standard }
    let style : Style ℝ := { Style.plain "arial" .filled 2 .white with bold := true, tracking := 3 }
    0 ≤ style.effectiveSize ∧
      r.SetsStack style ⟨"1", "234", .slash⟩ (r.layoutStack style ⟨"1", "234", .slash⟩) ∧
      r.SetsStack style ⟨"", "23", .tolerance⟩ (r.layoutStack style ⟨"", "23", .tolerance⟩) := by
  intro r style
  have size : 0 ≤ style.effectiveSize := mul_nonneg zero_le_two zero_le_one
  exact ⟨size, r.layoutStack_sets size _, r.layoutStack_sets size _⟩

end Lettering
