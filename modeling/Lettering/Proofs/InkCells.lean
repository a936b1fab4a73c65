import Mathlib
import Lettering.Font.BoxFonts
import Lettering.Proofs.Advances
import Lettering.Proofs.WordRuns

/-!
# Ink in its advance cell

A glyph is *contained* if its ink stands between its pen and the end of its advance.  Upright styles
that do not draw glyphs closer together (`Style.Upright`) keep this: the width factor scales the ink
and the advance alike, the ink that bold adds is no wider than what it adds to the advance, and
tracking adds to the advance alone (`Resources.contained_finish`).

So the ink of a word stays in the cells of its glyphs, one behind the other, wherever the word is
placed (`Job.layout_contained`).
-/

namespace Lettering

variable {α : Type} [ExactScalar α]

/-- Every point of the outline stands between two abscissas. -/
def Outline.Within (o : Outline α) (left right : α) : Prop :=
  ∀ p ∈ o.points, left ≤ p.x ∧ p.x ≤ right

/-- A glyph that does not move the pen back, with its ink in its advance cell. -/
structure Glyph.Contained (g : Glyph α) : Prop where
  advance : 0 ≤ g.advance
  ink : (g.outline.getD .blank).Within 0 g.advance

structure ShapedGlyph.Contained (g : ShapedGlyph α) : Prop where
  advance : 0 ≤ g.advance
  ink : g.outline.Within 0 g.advance

structure PlacedGlyph.Contained (g : PlacedGlyph α) : Prop where
  advance : 0 ≤ g.advance
  ink : g.outline.Within g.origin.x (g.origin.x + g.advance)

/-- Fonts whose glyphs are contained, at all sizes that are not negative. -/
structure GlyphSource.Contained (fonts : GlyphSource α) : Prop where
  glyph : ∀ c font size g, 0 ≤ size → fonts.glyph c font size = some g → g.Contained
  search : ∀ c size font g, 0 ≤ size → fonts.search c size = some (font, g) → g.Contained

/-- A style whose glyphs stand upright and at least as far apart as they are wide. -/
structure Style.Upright (s : Style α) : Prop where
  size : 0 ≤ s.effectiveSize
  widthFactor : 0 < s.widthFactor
  tracking : 1 ≤ s.tracking
  oblique : s.oblique = 0

/-- No ink of the glyph stands behind ink of the other. -/
def PlacedGlyph.LeftOf (g h : PlacedGlyph α) : Prop :=
  ∀ p ∈ g.outline.points, ∀ q ∈ h.outline.points, p.x ≤ q.x

/-- A run whose glyphs keep their ink in their cells and do not overlap. -/
structure Run.Contained (r : Run α) : Prop where
  cells : ∀ g ∈ r.glyphs, g.Contained
  apart : r.glyphs.Pairwise PlacedGlyph.LeftOf

/-! ## Outlines -/

namespace Outline.Within

variable {o other : Outline α} {left right left' right' : α}

theorem mono (within : o.Within left right) (le : left' ≤ left) (ge : right ≤ right') :
    o.Within left' right' :=
  fun p member => ⟨le.trans (within p member).1, (within p member).2.trans ge⟩

theorem map (within : o.Within left right) {f : Point α → Point α}
    (keeps : ∀ p, left ≤ p.x → p.x ≤ right → left' ≤ (f p).x ∧ (f p).x ≤ right') :
    (o.map f).Within left' right' := by
  intro p member
  rw [Outline.points_map] at member
  obtain ⟨q, inOutline, rfl⟩ := List.mem_map.mp member
  exact keeps q (within q inOutline).1 (within q inOutline).2

theorem shift (within : o.Within left right) (dx dy : α) :
    (o.shift dx dy).Within (left + dx) (right + dx) :=
  within.map fun _ after before => ⟨add_le_add_left after dx, add_le_add_left before dx⟩

theorem scale (within : o.Within 0 right) {factor : α} (nonneg : 0 ≤ factor) :
    (o.map fun p => ⟨p.x * factor, p.y⟩).Within 0 (right * factor) :=
  within.map fun _ after before =>
    ⟨mul_nonneg after nonneg, mul_le_mul_of_nonneg_right before nonneg⟩

theorem append (within : o.Within left right) (others : other.Within left right) :
    (o.append other).Within left right := by
  intro p member
  rw [Outline.append, Outline.points, List.flatten_append] at member
  exact (List.mem_append.mp member).elim (within p) (others p)

end Outline.Within

theorem within_rectangle {x x' left right : α} (height : α) (first : left ≤ x ∧ x ≤ right)
    (second : left ≤ x' ∧ x' ≤ right) :
    (⟨[[⟨x, 0⟩, ⟨x', 0⟩, ⟨x', height⟩, ⟨x, height⟩, ⟨x, 0⟩]]⟩ : Outline α).Within left right := by
  simp only [Outline.Within, Outline.points, List.flatten_cons, List.flatten_nil, List.append_nil,
    List.forall_mem_cons]
  exact ⟨first, second, second, first, first, List.forall_mem_nil _⟩

/-- Bold ink is wider by the expansion at most, filled or struck twice. -/
theorem within_embolden {o : Outline α} {width expansion : α} (kind : FontKind)
    (within : o.Within 0 width) (nonneg : 0 ≤ expansion) :
    (embolden kind expansion width o).Within 0 (width + expansion) := by
  have wider : o.Within 0 (width + expansion) :=
    within.mono (le_refl 0) (le_add_of_nonneg_right nonneg)
  cases kind with
  | filled =>
    unfold embolden
    dsimp only
    split
    · next positive =>
      have stretched := within.scale (div_nonneg (add_nonneg positive.le nonneg) positive.le)
      rwa [mul_div_cancel₀ _ positive.ne'] at stretched
    -- A glyph of no width is not stretched.
    · exact wider
  | stroke =>
    exact wider.append ((within.shift expansion 0).mono (le_add_of_nonneg_right nonneg) (le_refl _))

theorem slant_zero (o : Outline α) : slant 0 o = o :=
  if_neg (by simp [bne, BEq.beq])

/-! ## Shaping -/

section Shaping

variable {r : Resources α} {s : Style α}

/-- What a style makes of a contained glyph is contained. -/
theorem Resources.contained_finish (expansion : 0 ≤ r.settings.boldExpansion) (upright : s.Upright)
    {glyph : Glyph α} (contained : glyph.Contained) (c : Char) (kind : FontKind) :
    (r.finish s c kind glyph).Contained := by
  let added := r.settings.boldExpansion * s.effectiveSize
  let width := glyph.advance * s.widthFactor
  let ink := (glyph.outline.getD .blank).map fun p => ⟨p.x * s.widthFactor, p.y⟩
  let strong := if s.bold then embolden kind added width ink else ink
  let base := if s.bold then width + added else width
  have widths : 0 ≤ width := mul_nonneg contained.advance upright.widthFactor.le
  have adds : 0 ≤ added := mul_nonneg expansion upright.size
  have inked : ink.Within 0 width := contained.ink.scale upright.widthFactor.le
  -- Bold adds as much to the advance as to the ink.
  have cell : 0 ≤ base ∧ strong.Within 0 base := by
    by_cases bold : s.bold = true
    · simp only [base, strong, if_pos bold]
      exact ⟨add_nonneg widths adds, within_embolden kind inked adds⟩
    · simp only [base, strong, if_neg bold]
      exact ⟨widths, inked⟩
  have tracked : base ≤ base * s.tracking := le_mul_of_one_le_right cell.1 upright.tracking
  have outline : (r.finish s c kind glyph).outline = strong := by
    show slant s.oblique strong = strong
    rw [upright.oblique, slant_zero]
  refine ⟨cell.1.trans tracked, ?_⟩
  rw [outline]
  exact cell.2.mono (le_refl 0) tracked

theorem Resources.contained_shape (expansion : 0 ≤ r.settings.boldExpansion) (upright : s.Upright)
    {c : Char} (contained : (r.lookup s c).Contained) : (r.shape s c).Contained := by
  obtain ⟨drawn, kind, shaped⟩ := r.shape_eq_finish s c
  rw [shaped]
  exact Resources.contained_finish expansion upright contained drawn kind

/-- The box that stands for a missing glyph is inset by a tenth of the size at either side. -/
theorem contained_placeholderBox {size : α} (nonneg : 0 ≤ size) :
    (placeholderBox size).Contained := by
  have inset : 0 ≤ size * 0.1 := mul_nonneg nonneg (by norm_num)
  have insets : size * 0.1 ≤ size * 0.6 := mul_le_mul_of_nonneg_left (by norm_num) nonneg
  exact ⟨inset.trans insets, within_rectangle size ⟨inset, insets⟩
    ⟨sub_nonneg.mpr insets, sub_le_self _ inset⟩⟩

theorem Resources.contained_lookup (fonts : r.fonts.Contained) (size : 0 ≤ s.glyphSize)
    (c : Char) : (r.lookup s c).Contained :=
  r.lookup_rec (fonts.glyph · · _ · size) (fonts.search · _ · · size)
    (contained_placeholderBox size) c

end Shaping

/-- Boxes fill their cells. -/
theorem BoxFonts.contained (b : BoxFonts α) : b.source.Contained := by
  have box (c : Char) {size : α} (nonneg : 0 ≤ size) : (BoxFonts.boxGlyph c size).Contained := by
    have advance : 0 ≤ size * 0.6 := mul_nonneg nonneg (by norm_num)
    refine ⟨advance, ?_⟩
    unfold BoxFonts.boxGlyph
    dsimp only
    split
    · exact List.forall_mem_nil _
    · exact within_rectangle size ⟨le_refl 0, advance⟩ ⟨advance, le_refl _⟩
  constructor
  · intro c font size g nonneg found
    rw [BoxFonts.eq_boxGlyph_of_glyph found]
    exact box c nonneg
  · intro c size font g nonneg found
    rw [BoxFonts.eq_boxGlyph_of_search found]
    exact box c nonneg

/-! ## Rows and runs -/

theorem ShapedGlyph.Contained.placedAt {g : ShapedGlyph α} (contained : g.Contained)
    (origin : Point α) : (g.placedAt origin).Contained := by
  have moved := contained.ink.shift origin.x origin.y
  rw [zero_add, add_comm] at moved
  exact ⟨contained.advance, moved⟩

theorem PlacedGlyph.Contained.shift {g : PlacedGlyph α} (contained : g.Contained) (dx dy : α) :
    (g.shift dx dy).Contained := by
  have moved := contained.ink.shift dx dy
  rw [add_right_comm] at moved
  exact ⟨contained.advance, moved⟩

theorem PlacedGlyph.LeftOf.shift {g h : PlacedGlyph α} (apart : g.LeftOf h) (dx dy : α) :
    (g.shift dx dy).LeftOf (h.shift dx dy) := by
  intro p first q second
  rw [PlacedGlyph.shift, Outline.shift, Outline.points_map] at first second
  obtain ⟨p, inFirst, rfl⟩ := List.mem_map.mp first
  obtain ⟨q, inSecond, rfl⟩ := List.mem_map.mp second
  exact add_le_add_left (apart p inFirst q inSecond) dx

theorem Run.Contained.shift {r : Run α} (contained : r.Contained) (dx dy : α) :
    (r.shift dx dy).Contained where
  cells := List.forall_mem_map.mpr fun g member => (contained.cells g member).shift dx dy
  apart := contained.apart.map _ fun _ _ apart => apart.shift dx dy

/-- Side by side, the cells of glyphs do not overlap, so neither does the ink in them. -/
theorem SideBySide.leftOf {p : Point α} {glyphs : List (PlacedGlyph α)}
    (row : SideBySide p glyphs) (contained : ∀ g ∈ glyphs, g.Contained) :
    glyphs.Pairwise PlacedGlyph.LeftOf := by
  induction glyphs generalizing p with
  | nil => exact .nil
  | cons g rest ih =>
    obtain ⟨rfl, tail⟩ := row
    obtain ⟨here, others⟩ := List.forall_mem_cons.mp contained
    refine .cons (fun h member q inFirst q' inSecond => ?_) (ih tail others)
    have cells : g.origin.x + g.advance ≤ h.origin.x :=
      (tail.within (fun g member => (others g member).advance) h member).1
    calc q.x ≤ g.origin.x + g.advance := (here.ink q inFirst).2
      _ ≤ h.origin.x := cells
      _ ≤ q'.x := ((others h member).ink q' inSecond).1

theorem contained_wordRun (style : Style α) (pen : α) {glyphs : List (ShapedGlyph α)}
    (contained : ∀ g ∈ glyphs, g.Contained) : (wordRun style glyphs pen).Contained := by
  have cells : ∀ g ∈ placeGlyphs pen glyphs, g.Contained := by
    intro g member
    obtain ⟨shaped, inText, origin, rfl⟩ := exists_placedAt member
    exact (contained shaped inText).placedAt origin
  exact ⟨cells, (sideBySide_placeGlyphs pen glyphs).leftOf cells⟩

/-! ## Layouts -/

/-- Upright ink stays in its cell, and the ink of a word in the cells of its glyphs. -/
structure Job.KeepsInk (job : Job α) (tokens : List (Token α)) : Prop where
  glyph : ∀ (s : Style α) (c : Char), s.Upright → (job.lookup s c).Contained →
    (job.shape s c).Contained
  /-- Of the box that stands for a missing glyph nothing has to be known but that its size is not
  negative. -/
  box : ∀ (s : Style α) (c : Char), s.Upright → 0 ≤ s.glyphSize →
    job.lookup s c = placeholderBox s.glyphSize → (job.shape s c).Contained
  words : List.Forall₂ (fun content r => ∀ text, content.2 = .word text → content.1.Upright →
      (∀ c ∈ text.chars, (job.lookup content.1 c).Contained) → r.Contained)
    (styledContents (job.styled tokens)) (job.layout tokens).runs

/-- **Upright ink stays in its advance cell**, regular or bold, filled or struck, and so the glyphs
of a word do not overlap, wherever its line is closed and aligned. -/
theorem Job.layout_contained (job : Job α) (expansion : 0 ≤ job.settings.boldExpansion)
    (tokens : List (Token α)) : job.KeepsInk tokens := by
  refine ⟨fun s c upright contained => Resources.contained_shape expansion upright contained,
    fun s c upright size box => ?_, Job.runs_forall₂ ?_ ?_ tokens⟩
  · refine Resources.contained_shape expansion upright ?_
    rw [box]
    exact contained_placeholderBox size
  · intro content r dx dy kept text word upright contained
    exact (kept text word upright contained).shift dx dy
  · rintro t c - style pen text rfl upright contained
    refine contained_wordRun style pen (List.forall_mem_map.mpr fun c member => ?_)
    exact Resources.contained_shape expansion upright (contained c member)

/-- Bold boxes of two fonts, drawn three times as far apart as they are wide. -/
theorem Job.layout_contained_bold :
    let job : Job ℝ :=
      { fonts := BoxFonts.standard.source
        palette := fun _ => none
        colors := {}
        settings := Settings.standard
        entity := Entity.standard }
    let style (font : String) (kind : FontKind) : Style ℝ :=
      { Style.plain font kind 2 .white with bold := true, tracking := 3 }
    0 ≤ job.settings.boldExpansion ∧ job.KeepsInk [.word (.text "ab")] ∧
      (∀ c, (job.shape (style "arial" .filled) c).Contained) ∧
      ∀ c, (job.shape (style "simplex" .stroke) c).Contained := by
  intro job style
  have expansion : 0 ≤ job.settings.boldExpansion := by
    norm_num [job, Settings.standard]
  have kept := job.layout_contained expansion [.word (.text "ab")]
  have upright (font : String) (kind : FontKind) : (style font kind).Upright := by
    refine ⟨mul_nonneg zero_le_two zero_le_one, one_pos, by norm_num [style], ?_⟩
    cases kind <;> simp [style, Style.plain, Style.refreshBlank, Style.oblique, FontKind.oblique]
  have size (font : String) (kind : FontKind) : 0 ≤ (style font kind).glyphSize :=
    mul_nonneg (upright font kind).size zero_le_one
  have shaped (font : String) (kind : FontKind) (c : Char) :
      (job.shape (style font kind) c).Contained :=
    kept.glyph _ c (upright font kind)
      (Resources.contained_lookup BoxFonts.standard.contained (size font kind) c)
  exact ⟨expansion, kept, shaped "arial" .filled, shaped "simplex" .stroke⟩

end Lettering
