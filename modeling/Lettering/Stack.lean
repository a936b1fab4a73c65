import Lettering.Shaping

/-!
# Stacks

Stacked expressions in a frame of their own, with the pen at `x = 0` on the
baseline of the line.  A fraction stands centered about one axis, its upper text
at `+0.6` and its lower text at `-0.6` of the size, with a rule at half the size
or a diagonal stroke between them.  A lone upper or lower text of a tolerance is a
superscript or a subscript.  All texts are shaped without tracking.
-/

namespace Lettering

/-- A shaped glyph with the place of its pen. -/
structure StackGlyph (α : Type) where
  glyph : ShapedGlyph α
  origin : Point α
deriving DecidableEq

/-- A stack laid out. -/
structure StackLayout (α : Type) where
  glyphs : List (StackGlyph α)
  /-- The ends of the rule or stroke, if one is drawn. -/
  divider : Option (Point α × Point α)
  width : α
  /-- The extent above the baseline, which counts toward the height of the line. -/
  height : α
deriving DecidableEq

/-- The layout that a stack gets. -/
inductive StackShape where
  | empty
  | superscript
  | subscript
  | fraction
deriving DecidableEq

/-- A lone text is a script only under the tolerance divider. -/
def StackText.shape (e : StackText) : StackShape :=
  match e.divider, e.numerator.isEmpty, e.denominator.isEmpty with
  | _, true, true => .empty
  | .tolerance, false, true => .superscript
  | .tolerance, true, false => .subscript
  | _, _, _ => .fraction

/-- All characters of a stack, the upper text first. -/
def StackText.chars (e : StackText) : List Char := e.numerator.toList ++ e.denominator.toList

variable {α : Type} [Scalar α]

namespace Style

/-- The style without tracking. -/
def untracked (s : Style α) : Style α := { s with tracking := 1 }

/-- The style of a lone superscript or subscript. -/
def script (scale : α) (s : Style α) : Style α :=
  refreshBlank { s.untracked with sizeFactor := s.sizeFactor * scale }

end Style

/-- A row of glyphs from a pen on, each at the end of the one before. -/
def placeRow (baseline : α) : α → List (ShapedGlyph α) → List (StackGlyph α)
  | _, [] => []
  | pen, g :: rest => ⟨g, ⟨pen, baseline⟩⟩ :: placeRow baseline (pen + g.advance) rest

/-- The height of the upper baseline and the drop of the lower one, in units of
the size. -/
def stackRise : α := 0.6

/-- The height of the rule, in units of the size. -/
def ruleHeight : α := 0.5

/-- The ends of what a divider draws. -/
def Divider.segment (d : Divider) (size width : α) : Option (Point α × Point α) :=
  match d with
  | .line => some (⟨0, ruleHeight * size⟩, ⟨width, ruleHeight * size⟩)
  | .slash => some (⟨0, -stackRise * size⟩, ⟨width, stackRise * size + size⟩)
  | .tolerance => none

namespace Resources

/-- The style in which the texts of a stack are shaped. -/
def stackStyle (r : Resources α) (style : Style α) : StackShape → Style α
  | .superscript | .subscript => style.script r.settings.scriptScale
  | .empty | .fraction => style.untracked

/-- A lone text at its offset. -/
def layoutScript (r : Resources α) (style : Style α) (text : String) (offset : α) :
    StackLayout α :=
  let script := style.script r.settings.scriptScale
  let row := r.shapeText script text.toList
  let rise := offset * style.effectiveSize
  { glyphs := placeRow rise 0 row
    divider := none
    width := totalAdvance row
    height := Scalar.greater (rise + script.effectiveSize) script.effectiveSize }

/-- Two texts, centered above each other. -/
def layoutFraction (r : Resources α) (style : Style α) (e : StackText) : StackLayout α :=
  let size := style.effectiveSize
  let upper := r.shapeText style.untracked e.numerator.toList
  let lower := r.shapeText style.untracked e.denominator.toList
  let width := Scalar.greater (totalAdvance upper) (totalAdvance lower)
  { glyphs :=
      placeRow (stackRise * size) (Scalar.half (width - totalAdvance upper)) upper ++
        placeRow (-stackRise * size) (Scalar.half (width - totalAdvance lower)) lower
    divider := e.divider.segment size width
    width := width
    height := stackRise * size + size }

/-- A stack laid out in a style. -/
def layoutStack (r : Resources α) (style : Style α) (e : StackText) : StackLayout α :=
  match e.shape with
  | .empty => ⟨[], none, 0, style.effectiveSize⟩
  | .superscript => r.layoutScript style e.numerator r.settings.superscriptOffset
  | .subscript => r.layoutScript style e.denominator r.settings.subscriptOffset
  | .fraction => r.layoutFraction style e

/-- What there is to report about laying out a stack. -/
def stackIncidents (r : Resources α) (style : Style α) (e : StackText) : List Incident :=
  r.shapingIncidents (r.stackStyle style e.shape) e.chars

end Resources

end Lettering
