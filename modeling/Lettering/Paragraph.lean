import Lettering.Scalar
import Lettering.Token

/-!
# Paragraphs

The properties of a paragraph.  Closing a group leaves them alone; a paragraph
break brings back the defaults.
-/

namespace Lettering

/-- Alignment, indent, margins and tab stops of a paragraph. -/
structure Paragraph (α : Type) where
  alignment : HorizontalAlignment
  /-- The extra offset of the first line, from the left margin. -/
  indent : α
  leftMargin : α
  rightMargin : α
  /-- Tab stops from the left margin, ascending. -/
  tabs : List α
deriving DecidableEq

namespace Paragraph

variable {α : Type} [Scalar α]

/-- A paragraph without indent, margins and tab stops. -/
def plain (alignment : HorizontalAlignment) : Paragraph α := ⟨alignment, 0, 0, 0, []⟩

/-- The paragraph with the properties that a change names. -/
def apply (p : Paragraph α) (change : ParagraphChange α) : Paragraph α where
  alignment := change.alignment.getD p.alignment
  indent := change.indent.getD p.indent
  leftMargin := change.left.getD p.leftMargin
  rightMargin := change.right.getD p.rightMargin
  tabs := (change.tabs.map fun stops => stops.mergeSort Scalar.precedes).getD p.tabs

/-- The width between the margins of a box of the given width, `none` when lines
do not wrap. -/
def usableWidth (p : Paragraph α) (width : α) : Option α :=
  if 0 < width then some (Scalar.greater (width - p.leftMargin - p.rightMargin) 0) else none

/-- The first tab stop after an offset. -/
def nextTab (p : Paragraph α) (offset : α) : Option α := p.tabs.find? fun stop => offset < stop

end Paragraph

end Lettering
