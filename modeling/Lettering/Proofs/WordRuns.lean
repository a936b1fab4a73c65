import Mathlib
import Lettering.Proofs.Bounds
import Lettering.Proofs.Gathering
import Lettering.Proofs.GlyphRows

/-!
# The runs of words

The glyphs of a word stand side by side (`SideBySide`), the first at the start of the run.  Moving a
run keeps this, whether its line closes, is aligned or is spread, and it keeps the decorations where
they are beside their glyphs.  So a word stays without gaps, and the strokes under, over and through
it, which are drawn glyph by glyph, stay whole (`Job.layout_words`).
-/

namespace Lettering

section Lawless

variable {α : Type} [Scalar α]

/-- The stroke along a glyph of a run, at a height above the baseline in units of the size. -/
def Run.stroke (r : Run α) (kind : DecorationKind) (height : α) (g : PlacedGlyph α) :
    Decoration α where
  kind := kind
  start := ⟨g.origin.x, g.origin.y + height * r.size⟩
  stop := ⟨g.origin.x + g.advance, g.origin.y + height * r.size⟩
  color := r.color

/-- The strokes along a glyph of a run that the flags of a style ask for. -/
def Run.strokes (r : Run α) (style : Style α) (g : PlacedGlyph α) : List (Decoration α) :=
  (if style.underline then [r.stroke .underline (-0.2) g] else []) ++
    (if style.overline then [r.stroke .overline 1.2 g] else []) ++
      if style.strikeThrough then [r.stroke .strikeThrough 0.5 g] else []

omit [Scalar α] in
theorem Style.nodup_decorations (style : Style α) : style.decorations.Nodup := by
  unfold Style.decorations
  cases style.underline <;> cases style.overline <;> cases style.strikeThrough <;> decide

theorem Run.strokes_eq_map (r : Run α) (style : Style α) (g : PlacedGlyph α) :
    r.strokes style g = style.decorations.map fun kind => r.stroke kind kind.rise g := by
  unfold Run.strokes Style.decorations
  cases style.underline <;> cases style.overline <;> cases style.strikeThrough <;> rfl

end Lawless

variable {α : Type} [ExactScalar α]

/-- The run of a word in a style: a row of glyphs without gaps, and strokes along it. -/
structure Run.SetsWord (res : Resources α) (style : Style α) (text : WordText) (r : Run α) :
    Prop where
  /-- The glyphs are those of the word, one at least. -/
  shaped : r.glyphs.map PlacedGlyph.makeup =
    (res.shapeText style text.chars).map fun g => (g.char, g.kind, g.advance)
  filled : r.glyphs ≠ []
  first : r.glyphs.head?.map (·.origin.x) = some r.startX
  next : r.glyphs.IsChain fun g h => h.origin.x = g.origin.x + g.advance
  width : r.width = (r.glyphs.map (·.advance)).sum
  last : r.glyphs.getLast?.map (fun g => g.origin.x + g.advance) = some r.endX
  level : ∃ y, ∀ g ∈ r.glyphs, g.origin.y = y
  size : r.size = style.effectiveSize
  color : r.color = style.color
  decorations : r.decorations = r.glyphs.flatMap (r.strokes style)
  /-- The strokes of a kind make one line. -/
  whole : ∀ kind, (r.decorations.filter (·.kind = kind)).IsChain fun d e => e.start = d.stop

/-! ## Strokes -/

theorem Decoration.along_shift (kind : DecorationKind) (origin : Point α) (size advance : α)
    (color : Rgb) (dx dy : α) :
    (Decoration.along kind origin size advance color).shift dx dy =
      .along kind (origin.shift dx dy) size advance color := by
  simp only [Decoration.along, Decoration.shift, Point.shift, add_right_comm]

theorem Style.decorate_shift (style : Style α) (g : PlacedGlyph α) (dx dy : α) :
    (style.decorate g.origin g.advance).map (fun d => d.shift dx dy) =
      style.decorate (g.shift dx dy).origin (g.shift dx dy).advance := by
  rw [Style.decorate, Style.decorate, List.map_map]
  exact List.map_congr_left fun kind _ => Decoration.along_shift kind _ _ _ _ dx dy

/-- The decorations of a glyph are the strokes that the flags ask for. -/
theorem Style.decorate_eq_strokes {style : Style α} {r : Run α}
    (size : r.size = style.effectiveSize) (color : r.color = style.color) (g : PlacedGlyph α) :
    style.decorate g.origin g.advance = r.strokes style g := by
  rw [Style.decorate, r.strokes_eq_map]
  refine List.map_congr_left fun kind _ => ?_
  rw [Decoration.along, Run.stroke, size, color, Point.shift, Point.shift, add_zero]

/-- Along each glyph there is the same number of strokes of a kind, none or one. -/
theorem Run.strokes_of_kind (r : Run α) (style : Style α) (kind : DecorationKind) :
    (∀ g, (r.strokes style g).filter (·.kind = kind) = []) ∨
      ∀ g, (r.strokes style g).filter (·.kind = kind) = [r.stroke kind kind.rise g] := by
  have counted (g : PlacedGlyph α) : (r.strokes style g).filter (·.kind = kind) =
      (List.replicate (style.decorations.count kind) kind).map fun k => r.stroke k k.rise g := by
    rw [r.strokes_eq_map, List.filter_map, ← List.filter_beq]
    rfl
  have once := List.nodup_iff_count_le_one.mp style.nodup_decorations kind
  rcases Nat.le_one_iff_eq_zero_or_eq_one.mp once with none | one
  · exact .inl fun g => by rw [counted, none]; rfl
  · exact .inr fun g => by rw [counted, one]; rfl

/-- The strokes along a row of glyphs meet where the glyphs do. -/
theorem SideBySide.strokes {p : Point α} {glyphs : List (PlacedGlyph α)}
    (row : SideBySide p glyphs) (r : Run α) (style : Style α) (kind : DecorationKind) :
    ((glyphs.flatMap (r.strokes style)).filter (·.kind = kind)).IsChain
      fun d e => e.start = d.stop := by
  rw [List.filter_flatMap]
  rcases r.strokes_of_kind style kind with none | one
  · rw [List.flatMap_eq_nil_iff.mpr fun g _ => none g]
    exact .nil
  · rw [funext one, ← List.map_eq_flatMap, List.isChain_map]
    refine row.next.imp fun g h meets => ?_
    rw [Run.stroke, Run.stroke, meets]

/-! ## Runs of words -/

section Shifted

variable (style : Style α) (glyphs : List (ShapedGlyph α)) (pen dx dy : α)

theorem makeups_wordRun_shift :
    ((wordRun style glyphs pen).shift dx dy).glyphs.map PlacedGlyph.makeup =
      glyphs.map fun g => (g.char, g.kind, g.advance) :=
  (congrArg Makeup.glyphs (Run.makeup_shift _ dx dy)).trans (placeGlyphs_makeups pen glyphs)

theorem width_wordRun_shift :
    let r := (wordRun style glyphs pen).shift dx dy
    r.width = (r.glyphs.map (·.advance)).sum := by
  have advances := congrArg (List.map fun g : Char × FontKind × α => g.2.2)
    (makeups_wordRun_shift style glyphs pen dx dy)
  rw [List.map_map, List.map_map] at advances
  exact (Scalar.sum_eq_sum _).trans (congrArg List.sum advances.symm)

/-- Decorations stay beside their glyphs. -/
theorem decorations_wordRun_shift :
    let r := (wordRun style glyphs pen).shift dx dy
    r.decorations = r.glyphs.flatMap (r.strokes style) := by
  intro r
  have moved (g : PlacedGlyph α) :
      (style.decorate g.origin g.advance).map (fun d => d.shift dx dy) =
        r.strokes style (g.shift dx dy) :=
    (style.decorate_shift g dx dy).trans (Style.decorate_eq_strokes rfl rfl _)
  calc r.decorations
      = (placeGlyphs pen glyphs).flatMap fun g =>
          (style.decorate g.origin g.advance).map fun d => d.shift dx dy := List.map_flatMap
    _ = (placeGlyphs pen glyphs).flatMap fun g => r.strokes style (g.shift dx dy) := by
        rw [funext moved]
    _ = r.glyphs.flatMap (r.strokes style) := (List.flatMap_map _ _ _).symm

end Shifted

/-- The run of a word is set wherever it is moved. -/
theorem Run.setsWord_shift (res : Resources α) (style : Style α) {text : WordText}
    (inked : text.isEmpty = false) (pen dx dy : α) :
    ((wordRun style (res.shapeText style text.chars) pen).shift dx dy).SetsWord res style text := by
  let glyphs := res.shapeText style text.chars
  let r := (wordRun style glyphs pen).shift dx dy
  have row : SideBySide ⟨r.startX, 0 + dy⟩ r.glyphs :=
    (sideBySide_placeGlyphs pen glyphs).shift dx dy
  have shaped := makeups_wordRun_shift style glyphs pen dx dy
  have width : r.width = (r.glyphs.map (·.advance)).sum :=
    width_wordRun_shift style glyphs pen dx dy
  have decorations : r.decorations = r.glyphs.flatMap (r.strokes style) :=
    decorations_wordRun_shift style glyphs pen dx dy
  have filled : r.glyphs ≠ [] := by
    intro none
    rw [none, List.map_nil] at shaped
    have noChars : text.chars = [] := List.map_eq_nil_iff.mp (List.map_eq_nil_iff.mp shaped.symm)
    rw [WordText.isEmpty, noChars] at inked
    cases inked
  refine ⟨shaped, filled, ?_, row.next.imp fun g h meets => congrArg Point.x meets, width, ?_,
    ⟨_, row.level⟩, rfl, rfl, decorations, fun kind => ?_⟩
  · have first := congrArg (Option.map Point.x) (row.first filled)
    rw [Option.map_map] at first
    exact first
  · rw [row.last filled, ← width]
    rfl
  · rw [decorations]
    exact row.strokes r style kind

/-- **The run of a word is a row of glyphs without gaps**, and its decorations go along it without
gaps, after its line is closed and aligned. -/
theorem Job.layout_words (job : Job α) (tokens : List (Token α)) :
    List.Forall₂ (fun content r => ∀ text, content.2 = .word text →
        r.SetsWord job.toResources content.1 text)
      (styledContents (job.styled tokens)) (job.layout tokens).runs := by
  -- All that lines do to a run is to move it, so the run of its content says everything.
  have placed : List.Forall₂ (fun content r => (∀ text, content.2 = .word text →
      text.isEmpty = false) ∧ ∃ pen dx dy, r = (job.contentRun content.1 content.2 pen).shift dx dy)
      (styledContents (job.styled tokens)) (job.layout tokens).runs := by
    refine Job.runs_forall₂ ?_ ?_ tokens
    · rintro content r dx' dy' ⟨inked, pen, dx, dy, rfl⟩
      exact ⟨inked, pen, dx + dx', dy + dy', Run.shift_shift _ _ _ _ _⟩
    · intro t c found style pen
      refine ⟨?_, pen, 0, 0, (Run.shift_zero _).symm⟩
      rintro text rfl
      exact Token.inked_of_content found
  refine placed.imp ?_
  rintro ⟨style, c⟩ r ⟨inked, pen, dx, dy, rfl⟩ text rfl
  exact Run.setsWord_shift _ _ (inked text rfl) pen dx dy

end Lettering
