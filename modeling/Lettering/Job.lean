import Lettering.Entity
import Lettering.Font
import Lettering.Settings

/-!
# Jobs

What a layout is computed from, the token stream apart: fonts, palette, colors
and settings of the drawing, and the parameters of one block of text.
-/

namespace Lettering

/-- What all texts of a drawing share. -/
structure Resources (α : Type) where
  fonts : GlyphSource α
  palette : Palette
  colors : ReservedColors
  settings : Settings α

/-- One block of text to lay out. -/
structure Job (α : Type) extends Resources α where
  entity : Entity α

/-- The color that a request means. -/
def Resources.resolveColor {α : Type} (r : Resources α) (request : ColorRequest) : Rgb :=
  r.colors.resolve r.palette request

end Lettering
