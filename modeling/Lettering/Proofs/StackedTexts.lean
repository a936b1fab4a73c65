import Lettering.Font.BoxFonts
import Lettering.Proofs.Correspondence
import Lettering.Proofs.Groups
import Lettering.Scalar.Binary64

/-!
# The texts of stacks

The texts of a stack are shaped in styles that are made from the style in force without a command,
`Style.untracked` and `Style.script`.  They are the styles that commands make: one that sets the
tracking to one, and for a lone script one more that sets the relative height.  So the texts of a
stack are shaped as words are that stand behind these commands (`Job.stack_shapes_words`).

Of the style in force a stack reads what shapes glyphs, and nothing else: two styles that agree in
this (`Style.ShapesLike`) get the same stack.
-/

namespace Lettering

/-! ## The shapes of stacks -/

/-- A tolerance of one text: a lone superscript or subscript. -/
def StackText.IsScript (e : StackText) : Prop :=
  e.divider = .tolerance ∧
    (e.numerator ≠ "" ∧ e.denominator = "" ∨ e.numerator = "" ∧ e.denominator ≠ "")

section Shapes

variable {e : StackText}

theorem StackText.shape_of_empty (upper : e.numerator = "") (lower : e.denominator = "") :
    e.shape = .empty := by
  rw [StackText.shape, upper, lower]
  cases e.divider <;> rfl

theorem StackText.shape_of_superscript (lone : e.divider = .tolerance) (upper : e.numerator ≠ "")
    (lower : e.denominator = "") : e.shape = .superscript := by
  rw [StackText.shape, lone, String.isEmpty_eq_false_iff.mpr upper, lower]
  rfl

theorem StackText.shape_of_subscript (lone : e.divider = .tolerance) (upper : e.numerator = "")
    (lower : e.denominator ≠ "") : e.shape = .subscript := by
  rw [StackText.shape, lone, String.isEmpty_eq_false_iff.mpr lower, upper]
  rfl

/-- Every stack with a text that is no lone script is a fraction. -/
theorem StackText.shape_of_fraction (inked : e.numerator ≠ "" ∨ e.denominator ≠ "")
    (pair : ¬ e.IsScript) : e.shape = .fraction := by
  unfold StackText.shape
  split
  · next upper lower =>
    rw [String.isEmpty_iff] at upper lower
    exact (inked.elim (· upper) (· lower)).elim
  · next lone upper lower =>
    rw [String.isEmpty_iff] at lower
    rw [String.isEmpty_eq_false_iff] at upper
    exact (pair ⟨lone, .inl ⟨upper, lower⟩⟩).elim
  · next lone upper lower =>
    rw [String.isEmpty_iff] at upper
    rw [String.isEmpty_eq_false_iff] at lower
    exact (pair ⟨lone, .inr ⟨upper, lower⟩⟩).elim
  · rfl

end Shapes

/-! ## Styles that commands make -/

variable {α : Type} [Scalar α]

section Commands

variable (one : Scalar.isPositive (1 : α) = true) (job : Job α) (f : Formatting α)

include one

theorem Job.style_untracked :
    (job.apply f (.tracking (.absolute 1))).style = f.style.untracked :=
  if_pos one

theorem Job.style_script {scale : α} (usable : Scalar.isPositive scale = true) :
    (job.applyAll f [.tracking (.absolute 1), .height (.relative scale)]).style =
      f.style.script scale := by
  show (job.apply f (.tracking (.absolute 1))).style.setHeight (.relative scale) = _
  rw [job.style_untracked one f, Style.setHeight, if_pos usable]
  rfl

end Commands

/-! ## Styles that shape alike -/

/-- Two styles that agree in all that shapes the glyphs of a stack.  They may differ in tracking,
color, decorations, blanks and the place of their runs in a line. -/
structure Style.ShapesLike (s t : Style α) : Prop where
  font : s.font = t.font
  fontKind : s.fontKind = t.fontKind
  fontScale : s.fontScale = t.fontScale
  size : s.size = t.size
  sizeFactor : s.sizeFactor = t.sizeFactor
  obliqueAngle : s.obliqueAngle = t.obliqueAngle
  italic : s.italic = t.italic
  bold : s.bold = t.bold
  widthFactor : s.widthFactor = t.widthFactor

namespace Style.ShapesLike

variable {s t : Style α} (r : Resources α)

theorem untracked (alike : s.ShapesLike t) : s.untracked.ShapesLike t.untracked :=
  { alike with }

theorem script (alike : s.ShapesLike t) (scale : α) :
    (s.script scale).ShapesLike (t.script scale) :=
  { alike with sizeFactor := congrArg (· * scale) alike.sizeFactor }

theorem effectiveSize (alike : s.ShapesLike t) : s.effectiveSize = t.effectiveSize := by
  rw [Style.effectiveSize, alike.size, alike.sizeFactor]
  rfl

theorem glyphSize (alike : s.ShapesLike t) : s.glyphSize = t.glyphSize := by
  rw [Style.glyphSize, alike.effectiveSize, alike.fontScale]
  rfl

theorem oblique (alike : s.ShapesLike t) : s.oblique = t.oblique := by
  rw [Style.oblique, alike.fontKind, alike.obliqueAngle, alike.italic]
  rfl

theorem find? (alike : s.ShapesLike t) (c : Char) : r.find? s c = r.find? t c := by
  unfold Resources.find? Resources.fromBigFont? Resources.fromAnyFont?
  rw [alike.font, alike.fontKind, alike.glyphSize]

theorem finish (alike : s.ShapesLike t) (tracking : s.tracking = t.tracking) (c : Char)
    (kind : FontKind) (g : Glyph α) : r.finish s c kind g = r.finish t c kind g := by
  unfold Resources.finish
  rw [alike.effectiveSize, alike.widthFactor, alike.bold, alike.oblique, tracking]

/-- Tracking is all that a word has of its style and a stack has not. -/
theorem shape (alike : s.ShapesLike t) (tracking : s.tracking = t.tracking) (c : Char) :
    r.shape s c = r.shape t c := by
  have placeholder : r.placeholderGlyph s = r.placeholderGlyph t := by
    unfold Resources.placeholderGlyph
    rw [alike.font, alike.glyphSize]
  unfold Resources.shape
  rw [alike.find? r c, alike.fontKind, placeholder]
  cases r.find? t c with
  | some found => exact alike.finish r tracking c _ _
  | none => exact alike.finish r tracking _ _ _

theorem shapeText (alike : s.ShapesLike t) (tracking : s.tracking = t.tracking)
    (text : List Char) : r.shapeText s text = r.shapeText t text :=
  List.map_congr_left fun c _ => alike.shape r tracking c

theorem layoutScript (alike : s.ShapesLike t) (text : String) (offset : α) :
    r.layoutScript s text offset = r.layoutScript t text offset := by
  have script := alike.script r.settings.scriptScale
  simp only [Resources.layoutScript, script.shapeText r rfl, script.effectiveSize,
    alike.effectiveSize]

theorem layoutFraction (alike : s.ShapesLike t) (e : StackText) :
    r.layoutFraction s e = r.layoutFraction t e := by
  unfold Resources.layoutFraction
  rw [alike.untracked.shapeText r rfl, alike.untracked.shapeText r rfl, alike.effectiveSize]

theorem layoutStack (alike : s.ShapesLike t) (e : StackText) :
    r.layoutStack s e = r.layoutStack t e := by
  unfold Resources.layoutStack
  rw [alike.effectiveSize, alike.layoutScript r, alike.layoutScript r, alike.layoutFraction r]

theorem stackStyle (alike : s.ShapesLike t) (shape : StackShape) :
    (r.stackStyle s shape).ShapesLike (r.stackStyle t shape) := by
  cases shape with
  | empty | fraction => exact alike.untracked
  | superscript | subscript => exact alike.script _

theorem stackIncidents (alike : s.ShapesLike t) (e : StackText) :
    r.stackIncidents s e = r.stackIncidents t e := by
  have styles := alike.stackStyle r e.shape
  unfold Resources.stackIncidents Resources.shapingIncidents
  rw [funext fun c => congrArg Option.isNone (styles.find? r c), styles.font]

end Style.ShapesLike

/-! ## Stacks behind commands -/

/-- A stack is made of texts that are shaped as words are. -/
structure Job.ShapesStack (job : Job α) (f : Formatting α) (e : StackText) : Prop where
  /-- The texts of a fraction are those of words behind a command that takes the tracking back. -/
  fraction : ¬ e.IsScript → ∃ upper lower,
    (job.layoutStack f.style e).glyphs = upper ++ lower ∧
      upper.map StackGlyph.glyph =
        job.shapeText (job.apply f (.tracking (.absolute 1))).style e.numerator.toList ∧
      lower.map StackGlyph.glyph =
        job.shapeText (job.apply f (.tracking (.absolute 1))).style e.denominator.toList
  /-- The text of a lone script is that of a word behind one more command. -/
  script : e.IsScript → (job.layoutStack f.style e).glyphs.map StackGlyph.glyph =
    job.shapeText (job.applyAll f [.tracking (.absolute 1),
      .height (.relative job.settings.scriptScale)]).style e.chars
  /-- Styles that shape alike get the same stack, and there is the same to report about it. -/
  alike : ∀ t : Style α, f.style.ShapesLike t →
    job.layoutStack f.style e = job.layoutStack t e ∧
      job.stackIncidents f.style e = job.stackIncidents t e

/-- A fraction is its upper text and then its lower text; a stack without a text is neither. -/
theorem Resources.glyphs_of_fraction (r : Resources α) (s : Style α) {e : StackText}
    (pair : ¬ e.IsScript) : ∃ upper lower, (r.layoutStack s e).glyphs = upper ++ lower ∧
      upper.map StackGlyph.glyph = r.shapeText s.untracked e.numerator.toList ∧
      lower.map StackGlyph.glyph = r.shapeText s.untracked e.denominator.toList := by
  by_cases inked : e.numerator ≠ "" ∨ e.denominator ≠ ""
  · rw [Resources.layoutStack, StackText.shape_of_fraction inked pair]
    exact ⟨_, _, rfl, placeRow_glyphs _ _ _, placeRow_glyphs _ _ _⟩
  · obtain ⟨upper, lower⟩ := not_or.mp inked
    rw [ne_eq, Decidable.not_not] at upper lower
    rw [Resources.layoutStack, StackText.shape_of_empty upper lower, upper, lower]
    exact ⟨[], [], rfl, rfl, rfl⟩

theorem Resources.stackStyle_of_script (r : Resources α) (s : Style α) {e : StackText}
    (script : e.IsScript) : r.stackStyle s e.shape = s.script r.settings.scriptScale := by
  obtain ⟨lone, ⟨upper, lower⟩ | ⟨upper, lower⟩⟩ := script
  · rw [StackText.shape_of_superscript lone upper lower]
    rfl
  · rw [StackText.shape_of_subscript lone upper lower]
    rfl

/-- **The texts of a stack are shaped by the rules of words**, in the style that commands make of
the style in force, and no more of that style is read than shapes glyphs. -/
theorem Job.stack_shapes_words (job : Job Float)
    (usable : Scalar.isPositive job.settings.scriptScale = true) (f : Formatting Float)
    (e : StackText) : job.ShapesStack f e := by
  have one : Scalar.isPositive (1 : Float) = true := by decide
  refine ⟨fun pair => ?_, fun script => ?_, fun t alike => ?_⟩
  · rw [job.style_untracked one f]
    exact job.glyphs_of_fraction f.style pair
  · rw [job.style_script one f usable, job.glyphs_layoutStack, job.stackStyle_of_script _ script]
  · exact ⟨alike.layoutStack _ e, alike.stackIncidents _ e⟩

/-- A superscript in bold italics with wide tracking, of which the active font lacks a character. -/
theorem Job.stack_shapes_words_raised :
    let job : Job Float :=
      { fonts := BoxFonts.source <|
          ((BoxFonts.empty.addFont "main" .stroke).addFont "big" .filled).removeCharIn "main" 'λ'
        palette := fun _ => none
        colors := {}
        settings := { Settings.standard with bigFont := some "big" }
        entity := Entity.standard }
    let style : Style Float :=
      { Style.plain "main" .stroke 2 .white with bold := true, italic := true, tracking := 3 }
    let f : Formatting Float := ⟨⟨style, []⟩, .plain .left, []⟩
    let e : StackText := ⟨"2λ", "", .tolerance⟩
    Scalar.isPositive job.settings.scriptScale = true ∧ job.ShapesStack f e := by
  intro job style f e
  have usable : Scalar.isPositive job.settings.scriptScale = true := by decide +kernel
  exact ⟨usable, job.stack_shapes_words usable f e⟩

end Lettering
