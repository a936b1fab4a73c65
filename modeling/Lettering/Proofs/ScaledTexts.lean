import Mathlib
import Lettering.Proofs.Commands
import Lettering.Proofs.ScaledShapes

/-!
# Texts at another scale

A text is scaled with its drawing: the lengths in its formatting commands are, and so are the
insertion point, the height and the width of its entity.  Commands do to scaled styles and
paragraphs what they did (`Job.apply_scale`), provided that no relative width factor is a fraction
of the reference width, which would make a factor out of a length.
-/

namespace Lettering

variable {α : Type} [ExactScalar α]

/-! ## Scaled text -/

def ParagraphChange.scale (k : α) (change : ParagraphChange α) : ParagraphChange α :=
  { change with
    indent := change.indent.map (k * ·)
    left := change.left.map (k * ·)
    right := change.right.map (k * ·)
    tabs := change.tabs.map (List.map (k * ·)) }

/-- The command with its lengths scaled; factors and angles stay as they are. -/
def Command.scale (k : α) : Command α → Command α
  | .height (.absolute size) => .height (.absolute (k * size))
  | .paragraph change => .paragraph (change.scale k)
  | command => command

def Token.scale (k : α) : Token α → Token α
  | .format command => .format (command.scale k)
  | t => t

def Paragraph.scale (k : α) (p : Paragraph α) : Paragraph α :=
  { p with
    indent := k * p.indent
    leftMargin := k * p.leftMargin
    rightMargin := k * p.rightMargin
    tabs := p.tabs.map (k * ·) }

def StyleStack.scale (k : α) (styles : StyleStack α) : StyleStack α :=
  ⟨styles.active.scale k, styles.saved.map (Style.scale k)⟩

def Formatting.scale (k : α) (f : Formatting α) : Formatting α :=
  ⟨f.styles.scale k, f.paragraph.scale k, f.incidents⟩

/-- The job of a scaled drawing. -/
def Job.scale (k : α) (job : Job α) : Job α := { job with entity := job.entity.scale k }

theorem Token.content?_scale (k : α) (t : Token α) : (t.scale k).content? = t.content? := by
  cases t <;> rfl

/-! ## Paragraphs -/

section Positive

variable {k : α} (pos : 0 < k)

include pos

theorem Scalar.isPositive_scale (a : α) : isPositive (k * a) = isPositive a :=
  decide_eq_decide.mpr (mul_pos_iff_of_pos_left pos)

/-- Scaled tab stops are sorted as they were. -/
theorem mergeSort_scale (stops : List α) :
    (stops.map (k * ·)).mergeSort Scalar.precedes =
      (stops.mergeSort Scalar.precedes).map (k * ·) :=
  (List.map_mergeSort fun _ _ _ _ =>
    decide_eq_decide.mpr (mul_le_mul_iff_of_pos_left pos).symm).symm

theorem Paragraph.apply_scale (p : Paragraph α) (change : ParagraphChange α) :
    (p.scale k).apply (change.scale k) = (p.apply change).scale k := by
  have taken (o : Option α) (a : α) : (o.map (k * ·)).getD (k * a) = k * o.getD a := by
    cases o <;> rfl
  have stops : ((change.tabs.map (List.map (k * ·))).map fun stops =>
        stops.mergeSort Scalar.precedes).getD (p.tabs.map (k * ·)) =
      ((change.tabs.map fun stops => stops.mergeSort Scalar.precedes).getD p.tabs).map (k * ·) := by
    cases change.tabs with
    | none => rfl
    | some stops => exact mergeSort_scale pos stops
  simp only [Paragraph.apply, ParagraphChange.scale, Paragraph.scale, taken, stops]

theorem Paragraph.usableWidth_scale (p : Paragraph α) (width : α) :
    (p.scale k).usableWidth (k * width) = (p.usableWidth width).map (k * ·) := by
  simp only [Paragraph.usableWidth, Paragraph.scale, mul_pos_iff_of_pos_left pos]
  split
  · rw [← mul_sub, ← mul_sub, Option.map_some, ← Scalar.greater_scale pos, mul_zero]
  · rfl

theorem Paragraph.nextTab_scale (p : Paragraph α) (offset : α) :
    (p.scale k).nextTab (k * offset) = (p.nextTab offset).map (k * ·) := by
  simp only [Paragraph.nextTab, Paragraph.scale, List.find?_map, Function.comp_def,
    mul_lt_mul_iff_of_pos_left pos]

end Positive

/-! ## Commands -/

namespace Style

variable (k : α) (s : Style α)

theorem ite_scale (taken : Bool) (t : Style α) :
    (if taken then t.scale k else s.scale k) = (if taken then t else s).scale k :=
  (apply_ite (Style.scale k) _ _ _).symm

theorem setFont_scale (font : ResolvedFont α) (bold italic : Bool) :
    (s.scale k).setFont font bold italic = (s.setFont font bold italic).scale k :=
  (scale_refreshBlank k
    { s with
      font := font.name
      fontKind := font.info.kind
      fontScale := font.info.scale
      bold := bold
      italic := italic }).symm

theorem setHeight_scale_relative (factor : α) :
    (s.scale k).setHeight (.relative factor) = (s.setHeight (.relative factor)).scale k := by
  simp only [setHeight]
  split
  · exact (scale_refreshBlank k { s with sizeFactor := s.sizeFactor * factor }).symm
  · rfl

theorem setHeight_scale_absolute {k : α} (pos : 0 < k) (size : α) :
    (s.scale k).setHeight (.absolute (k * size)) = (s.setHeight (.absolute size)).scale k := by
  simp only [setHeight, Scalar.isPositive_scale pos]
  split
  · exact (scale_refreshBlank k { s with size := size, sizeFactor := 1 }).symm
  · rfl

theorem setTracking_scale (scale : Scale α) :
    (s.scale k).setTracking scale = (s.setTracking scale).scale k := by
  cases scale with
  | absolute factor => exact s.ite_scale k _ { s with tracking := factor }
  | relative factor => exact s.ite_scale k _ { s with tracking := s.tracking * factor }

theorem setOblique_scale (angle : α) :
    (s.scale k).setOblique angle = (s.setOblique angle).scale k :=
  s.ite_scale k _ { s with obliqueAngle := angle }

/-- No width factor is a fraction of the reference width. -/
theorem setWidthFactor_scale {job : Job α} (relative : job.settings.legacyWidthFactor = false)
    (scale : Scale α) :
    (s.scale k).setWidthFactor (job.scale k) scale = (s.setWidthFactor job scale).scale k := by
  cases scale with
  | absolute factor =>
    exact s.ite_scale k _ { s with widthFactor := factor * job.entity.widthFactor }
  | relative factor =>
    have legacy : (job.scale k).settings.legacyWidthFactor = false := relative
    simp only [setWidthFactor, legacy, relative, Bool.false_and, Bool.false_eq_true, if_false]
    exact s.ite_scale k _ { s with widthFactor := s.widthFactor * factor }

end Style

section Commands

variable {k : α} (pos : 0 < k) {job : Job α} (relative : job.settings.legacyWidthFactor = false)

include pos relative

/-- A command with its lengths scaled does to the scaled style what it did. -/
theorem Job.restyle_scale (s : Style α) (command : Command α) :
    (job.scale k).restyle (s.scale k) (command.scale k) = (job.restyle s command).scale k := by
  cases command with
  | font name bold italic => exact s.setFont_scale k _ bold italic
  | height scale =>
    cases scale with
    | absolute size => exact s.setHeight_scale_absolute pos size
    | relative factor => exact s.setHeight_scale_relative k factor
  | widthFactor scale => exact s.setWidthFactor_scale k relative scale
  | tracking scale => exact s.setTracking_scale k scale
  | oblique angle => exact s.setOblique_scale k angle
  | _ => rfl

theorem Job.restack_scale (styles : StyleStack α) (command : Command α) :
    (job.scale k).restack (styles.scale k) (command.scale k) =
      (job.restack styles command).scale k := by
  have modified : (styles.scale k).modify (fun s => (job.scale k).restyle s (command.scale k)) =
      (styles.modify fun s => job.restyle s command).scale k :=
    congrArg (StyleStack.mk · _) (Job.restyle_scale pos relative styles.active command)
  cases command with
  | groupOpen => rfl
  | groupClose => cases styles with | mk active saved => cases saved <;> rfl
  | height scale => cases scale <;> exact modified
  | _ => exact modified

/-- A command with its lengths scaled does to the scaled formatting what it did. -/
theorem Job.apply_scale (f : Formatting α) (command : Command α) :
    (job.scale k).apply (f.scale k) (command.scale k) = (job.apply f command).scale k := by
  have styles : ((job.scale k).apply (f.scale k) (command.scale k)).styles =
      (job.apply f command).styles.scale k := by
    rw [Job.styles_apply, Job.styles_apply]
    exact Job.restack_scale pos relative f.styles command
  have paragraph : ((job.scale k).apply (f.scale k) (command.scale k)).paragraph =
      (job.apply f command).paragraph.scale k := by
    cases command with
    | paragraph change => exact f.paragraph.apply_scale pos change
    | height scale => cases scale <;> rfl
    | _ => rfl
  have incidents : ((job.scale k).apply (f.scale k) (command.scale k)).incidents =
      (job.apply f command).incidents := by
    cases command with
    | height scale => cases scale <;> rfl
    | _ => rfl
  exact congr (congr (congrArg Formatting.mk styles) paragraph) incidents

end Commands

/-! ## The formatting that a text starts in -/

theorem Paragraph.scale_plain (k : α) (alignment : HorizontalAlignment) :
    (Paragraph.plain alignment).scale k = .plain alignment := by
  simp only [Paragraph.plain, Paragraph.scale, mul_zero, List.map_nil]

/-- A height that is not positive would be one, whatever the scale. -/
theorem Job.baseStyle_scale {k : α} (pos : 0 < k) {job : Job α} (height : 0 < job.entity.height) :
    (job.scale k).baseStyle = job.baseStyle.scale k := by
  have taken : Scalar.isPositive job.entity.height = true := Scalar.isPositive_iff.mpr height
  have size : (if Scalar.isPositive (k * job.entity.height) then k * job.entity.height else 1) =
      k * if Scalar.isPositive job.entity.height then job.entity.height else 1 := by
    rw [Scalar.isPositive_scale pos, taken, if_pos rfl, if_pos rfl]
  let font := job.resolveFont job.baseFont .stroke
  let base (size : α) : Style α :=
    { Style.plain font.name font.info.kind size (job.resolveColor job.entity.color) with
      fontScale := font.info.scale
      widthFactor := if Scalar.isPositive job.entity.widthFactor then job.entity.widthFactor else 1
      obliqueAngle := job.entity.oblique }
  have scaled (size : α) : (base (k * size)).refreshBlank = (base size).refreshBlank.scale k :=
    (Style.scale_refreshBlank k (base size)).symm
  exact (congrArg (fun size => (base size).refreshBlank) size).trans (scaled _)

theorem Job.baseFormatting_scale {k : α} (pos : 0 < k) {job : Job α}
    (height : 0 < job.entity.height) :
    (job.scale k).baseFormatting = job.baseFormatting.scale k := by
  have styles : StyleStack.mk (job.scale k).baseStyle [] =
      (StyleStack.mk job.baseStyle []).scale k :=
    congrArg (StyleStack.mk · []) (Job.baseStyle_scale pos height)
  have paragraph := (Paragraph.scale_plain k job.entity.attachment.alignment).symm
  exact congr (congr (congrArg Formatting.mk styles) paragraph) rfl

end Lettering
