import Lettering.Proofs.Commands
import Lettering.Proofs.Makeup
import Mathlib.Data.List.Forall2

/-!
# Runs and content tokens

The runs of a layout, line by line, are those of the content tokens of the stream: none is lost,
doubled, split or moved before another.  `Job.layout_makeups` says it for all that no shift
changes of a run, `Job.layout_runs` spells out the characters and the color.  Neither asks for a
law of arithmetic.
-/

namespace Lettering

/-! ## The characters of a stack -/

theorem toList_of_isEmpty {s : String} (empty : s.isEmpty = true) : s.toList = [] := by
  rw [String.isEmpty_iff.mp empty]
  rfl

theorem StackText.chars_of_empty {e : StackText} (shape : e.shape = .empty) : e.chars = [] := by
  unfold StackText.shape at shape
  split at shape
  · next above below =>
    rw [StackText.chars, toList_of_isEmpty above, toList_of_isEmpty below]
    rfl
  all_goals cases shape

theorem StackText.chars_of_superscript {e : StackText} (shape : e.shape = .superscript) :
    e.chars = e.numerator.toList := by
  unfold StackText.shape at shape
  split at shape
  case h_2 below =>
    rw [StackText.chars, toList_of_isEmpty below, List.append_nil]
  all_goals cases shape

theorem StackText.chars_of_subscript {e : StackText} (shape : e.shape = .subscript) :
    e.chars = e.denominator.toList := by
  unfold StackText.shape at shape
  split at shape
  case h_3 above _ =>
    rw [StackText.chars, toList_of_isEmpty above, List.nil_append]
  all_goals cases shape

variable {α : Type} [Scalar α]

/-! ## The characters drawn -/

/-- Whether the active font, the big font or any font has a character at a size. -/
def Resources.has (r : Resources α) (font : String) (size : α) (c : Char) : Bool :=
  (r.fonts.glyph c font size).isSome ||
    (r.settings.bigFont.any fun big => (r.fonts.glyph c big size).isSome) ||
    (r.fonts.search c size).isSome

/-- The character drawn for one that a text asks for. -/
def Resources.drawn (r : Resources α) (font : String) (size : α) (c : Char) : Char :=
  if r.has font size c then c else r.settings.placeholder

/-- The size at which the glyphs of content are asked for; lone scripts are smaller. -/
def Resources.contentGlyphSize (r : Resources α) (style : Style α) : Content → α
  | .word _ => style.glyphSize
  | .stack e => (r.stackStyle style e.shape).glyphSize

/-- A run that draws content in a style: one glyph for each character, in the color in force. -/
structure Resources.Draws (r : Resources α) (style : Style α) (c : Content) (run : Run α) :
    Prop where
  chars : run.glyphs.map (·.char) =
    c.chars.map (r.drawn style.font (r.contentGlyphSize style c))
  color : run.color = style.color

theorem Resources.isSome_find? (r : Resources α) (style : Style α) (c : Char) :
    (r.find? style c).isSome = r.has style.font style.glyphSize c := by
  unfold Resources.find? Resources.has
  cases r.fonts.glyph c style.font style.glyphSize with
  | some g => rfl
  | none =>
    show (Option.or _ _).isSome = _
    rw [Option.isSome_or, Resources.fromBigFont?, Resources.fromAnyFont?, Option.isSome_map]
    cases r.settings.bigFont with
    | none => rfl
    | some big => simp only [Option.isSome_map, Option.any_some, Option.isSome_none, Bool.false_or]

theorem Resources.char_shape (r : Resources α) (style : Style α) (c : Char) :
    (r.shape style c).char = r.drawn style.font style.glyphSize c := by
  rw [Resources.drawn, ← r.isSome_find?, Resources.shape]
  cases r.find? style c with
  | none => rfl
  | some found => rfl

theorem Resources.chars_shapeText (r : Resources α) (style : Style α) (text : List Char) :
    (r.shapeText style text).map (·.char) = text.map (r.drawn style.font style.glyphSize) := by
  rw [Resources.shapeText, List.map_map]
  exact List.map_congr_left fun c _ => r.char_shape style c

/-- Every shape of a stack draws all its characters, the upper text first. -/
theorem Resources.glyphs_layoutStack (r : Resources α) (style : Style α) (e : StackText) :
    (r.layoutStack style e).glyphs.map StackGlyph.glyph =
      r.shapeText (r.stackStyle style e.shape) e.chars := by
  rw [Resources.layoutStack]
  cases shape : e.shape with
  | empty => rw [StackText.chars_of_empty shape]; rfl
  | superscript =>
    rw [StackText.chars_of_superscript shape]
    exact placeRow_glyphs _ _ _
  | subscript =>
    rw [StackText.chars_of_subscript shape]
    exact placeRow_glyphs _ _ _
  | fraction =>
    show List.map _ (_ ++ _) = _
    rw [List.map_append, placeRow_glyphs, placeRow_glyphs, Resources.shapeText,
      Resources.shapeText, ← List.map_append]
    rfl

/-- The style in which the glyphs of content are asked for. -/
def Resources.contentStyle (r : Resources α) (style : Style α) : Content → Style α
  | .word _ => style
  | .stack e => r.stackStyle style e.shape

theorem Resources.font_contentStyle (r : Resources α) (style : Style α) (c : Content) :
    (r.contentStyle style c).font = style.font := by
  cases c with
  | word text => rfl
  | stack e =>
    show (r.stackStyle style e.shape).font = _
    cases e.shape <;> rfl

theorem Resources.glyphSize_contentStyle (r : Resources α) (style : Style α) (c : Content) :
    (r.contentStyle style c).glyphSize = r.contentGlyphSize style c := by
  cases c <;> rfl

/-- The glyphs in the makeup of content are its characters, shaped. -/
theorem Resources.glyphs_contentMakeup (r : Resources α) (style : Style α) (c : Content) :
    (r.contentMakeup style c).glyphs =
      (r.shapeText (r.contentStyle style c) c.chars).map fun g => (g.char, g.kind, g.advance) := by
  cases c with
  | word text => exact placeGlyphs_makeups _ _
  | stack e =>
    show _ = (r.shapeText (r.stackStyle style e.shape) e.chars).map _
    rw [← r.glyphs_layoutStack, List.map_map]
    simp only [Resources.contentMakeup, Resources.contentRun, stackRun, Run.makeup, List.map_map]
    rfl

/-- The characters in the makeup of content. -/
theorem Resources.chars_contentMakeup (r : Resources α) (style : Style α) (c : Content) :
    (r.contentMakeup style c).glyphs.map Prod.fst =
      c.chars.map (r.drawn style.font (r.contentGlyphSize style c)) := by
  rw [r.glyphs_contentMakeup, List.map_map, ← r.font_contentStyle style c,
    ← r.glyphSize_contentStyle, ← r.chars_shapeText]
  rfl

theorem Resources.Draws.of_makeup {r : Resources α} {style : Style α} {c : Content} {run : Run α}
    (makeup : run.makeup = r.contentMakeup style c) : r.Draws style c run := by
  constructor
  · rw [← r.chars_contentMakeup, ← makeup, Run.makeup, List.map_map]
    rfl
  · rw [← r.color_contentMakeup style c, ← makeup]
    rfl

/-! ## All runs, in order -/

/-- The makeups of all runs of a pass, in order. -/
def Pass.makeups (p : Pass α) : List (Makeup α) := p.sketches.flatMap Sketch.runs

/-- However content reaches a line, its run is the last. -/
theorem Pass.makeups_place (job : Job α) (c : Content) (p : Pass α) :
    (p.place job c).makeups = p.makeups ++ [job.contentMakeup p.style c] := by
  cases breaks : p.needsBreak job (job.contentWidth p.style c) with
  | true =>
    obtain ⟨lines, cursor⟩ := Pass.place_of_needsBreak breaks
    rw [Pass.makeups, Pass.sketches, lines, cursor, List.flatMap_append]
    rfl
  | false =>
    obtain ⟨lines, cursor⟩ := Pass.place_of_fits breaks
    rw [Pass.makeups, Pass.sketches, lines, cursor, Pass.makeups, Pass.sketches,
      List.flatMap_append, List.flatMap_append, List.flatMap_singleton, List.flatMap_singleton,
      List.append_assoc]
    rfl

/-- Between two tokens a pass holds the runs of the content tokens so far. -/
theorem Job.passAfter_makeups (job : Job α) (tokens : List (Token α)) :
    (job.passAfter tokens).makeups =
      (styledContents (job.styled tokens)).map fun e => job.contentMakeup e.1 e.2 := by
  induction tokens using Job.passAfter_rec with
  | start => rfl
  | content tokens t c ih found =>
    rw [Pass.makeups_place, ih, job.styledContents_content found, List.map_append]
    rfl
  | paragraphBreak tokens ih =>
    rw [Pass.makeups, Pass.breakParagraph_sketches, List.flatMap_append, ← Pass.makeups, ih,
      job.styledContents_silent rfl]
    exact List.append_nil _
  | quiet tokens t ih quiet =>
    rw [Pass.makeups, (Pass.SameLines.step_quiet quiet).sketches, ← Pass.makeups, ih,
      job.styledContents_silent quiet.content]

/-- The runs of a layout are, but for where they stand, those of the content tokens. -/
theorem Job.layout_makeups (job : Job α) (tokens : List (Token α)) :
    (job.layout tokens).runs.map Run.makeup =
      (styledContents (job.styled tokens)).map fun e => job.contentMakeup e.1 e.2 := by
  have sketched (b : Block α) :
      b.runs.map Run.makeup = (b.lines.map Line.sketch).flatMap Sketch.runs := by
    rw [Block.runs, List.map_flatten, List.map_map, List.flatMap_def, List.map_map]
    rfl
  rw [sketched, job.layout_sketches, ← job.passAfter_makeups, Pass.makeups, Pass.sketches]
  split
  · next empty =>
    have bare : (job.passAfter tokens).cursor.sketch.runs = [] := by
      rw [Cursor.sketch, List.isEmpty_iff.mp empty]
      rfl
    rw [List.flatMap_append, List.flatMap_singleton, bare, List.append_nil]
  · rfl

/-- **One run for each content token, in the order of the stream**: a word or a stack leaves one
run with one glyph for each of its characters, in the color in force at the token.  A glyph draws
the character itself where some font has it and the placeholder elsewhere. -/
theorem Job.layout_runs (job : Job α) (tokens : List (Token α)) :
    (styledContents (job.styled tokens)).map Prod.snd = contentsOf tokens ∧
      List.Forall₂ (fun e run => job.Draws e.1 e.2 run) (styledContents (job.styled tokens))
        (job.layout tokens).runs := by
  constructor
  · rw [map_snd_styledContents, Job.styled, Job.map_snd_styledFrom]
  · have makeups := job.layout_makeups tokens
    rw [← List.forall₂_eq_eq_eq, List.forall₂_map_left_iff, List.forall₂_map_right_iff] at makeups
    exact makeups.flip.imp fun e run makeup => .of_makeup makeup

end Lettering
