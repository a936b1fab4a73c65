import Lettering.Font.Resolution
import Lettering.Paragraph
import Lettering.Style

/-!
# Formatting

What formatting commands act on, and what each of them does.  A command changes
the active style alone, except that group commands work the style stack and
paragraph commands the paragraph.  A size or factor that would not be finite and
above zero is not taken.
-/

namespace Lettering

/-- The state that commands act on, and the incidents so far. -/
structure Formatting (α : Type) where
  styles : StyleStack α
  paragraph : Paragraph α
  incidents : List Incident := []

namespace Formatting

variable {α : Type}

/-- The style in force. -/
def style (f : Formatting α) : Style α := f.styles.active

/-- Changes the style in force. -/
def restyle (f : Formatting α) (change : Style α → Style α) : Formatting α :=
  { f with styles := f.styles.modify change }

/-- Adds incidents. -/
def report (f : Formatting α) (incidents : List Incident) : Formatting α :=
  { f with incidents := f.incidents ++ incidents }

end Formatting

namespace Style

variable {α : Type} [Scalar α]

/-- The style in another font. -/
def setFont (font : ResolvedFont α) (bold italic : Bool) (s : Style α) : Style α :=
  refreshBlank
    { s with
      font := font.name
      fontKind := font.info.kind
      fontScale := font.info.scale
      bold := bold
      italic := italic }

/-- The style at another height. -/
def setHeight (scale : Scale α) (s : Style α) : Style α :=
  match scale with
  | .absolute size =>
    if Scalar.isPositive size then refreshBlank { s with size := size, sizeFactor := 1 } else s
  | .relative factor =>
    if Scalar.isPositive factor then refreshBlank { s with sizeFactor := s.sizeFactor * factor }
    else s

/-- The style with another factor on the advances. -/
def setTracking (scale : Scale α) (s : Style α) : Style α :=
  let next := match scale with
    | .absolute factor => factor
    | .relative factor => s.tracking * factor
  if Scalar.isPositive next then { s with tracking := next } else s

/-- The style with another width factor.  An absolute factor is a multiple of the
entity's; a relative one is a multiple of the factor in force, or of the
reference width where the settings say so and lines wrap. -/
def setWidthFactor (job : Job α) (scale : Scale α) (s : Style α) : Style α :=
  let next := match scale with
    | .absolute factor => factor * job.entity.widthFactor
    | .relative factor =>
      if job.settings.legacyWidthFactor && job.entity.wraps then factor * job.entity.width
      else s.widthFactor * factor
  if Scalar.isPositive next then { s with widthFactor := next } else s

/-- The style at another oblique angle. -/
def setOblique (angle : α) (s : Style α) : Style α :=
  if Scalar.isFinite angle then { s with obliqueAngle := angle } else s

end Style

namespace Job

variable {α : Type} [Scalar α]

/-- What there is to report about a font command, the font in force being of kind
`current`. -/
def fontCommandIncidents (job : Job α) (name : String) (bold italic : Bool)
    (current : FontKind) : List Incident :=
  job.fontIncidents name ++
    if (bold || italic) && (job.resolveFont name current).info.kind = .stroke then [.imitatedStyle]
    else []

/-- The formatting after a command. -/
def apply (job : Job α) (f : Formatting α) : Command α → Formatting α
  | .groupOpen => { f with styles := f.styles.push }
  | .groupClose => { f with styles := f.styles.pop }
  | .font name bold italic =>
    let current := f.style.fontKind
    (f.report (job.fontCommandIncidents name bold italic current)).restyle
      (Style.setFont (job.resolveFont name current) bold italic)
  | .color request => f.restyle fun s => { s with color := job.resolveColor request }
  | .widthFactor scale => f.restyle (Style.setWidthFactor job scale)
  | .height scale => f.restyle (Style.setHeight scale)
  | .tracking scale => f.restyle (Style.setTracking scale)
  | .oblique angle => f.restyle (Style.setOblique angle)
  | .underline on => f.restyle fun s => { s with underline := on }
  | .overline on => f.restyle fun s => { s with overline := on }
  | .strikeThrough on => f.restyle fun s => { s with strikeThrough := on }
  | .charAlignment alignment => f.restyle fun s => { s with charAlignment := alignment }
  | .paragraph change => { f with paragraph := f.paragraph.apply change }
  | .unknown _ => f

/-- The font that the entity asks for, the default font if it asks for none. -/
def baseFont (job : Job α) : String :=
  if Text.isBlankText job.entity.font then job.settings.defaultFont else job.entity.font

/-- The style that a text starts in. -/
def baseStyle (job : Job α) : Style α :=
  let entity := job.entity
  let font := job.resolveFont job.baseFont .stroke
  let size := if Scalar.isPositive entity.height then entity.height else 1
  Style.refreshBlank
    { Style.plain font.name font.info.kind size (job.resolveColor entity.color) with
      fontScale := font.info.scale
      widthFactor := if Scalar.isPositive entity.widthFactor then entity.widthFactor else 1
      obliqueAngle := entity.oblique }

/-- The formatting that a text starts in. -/
def baseFormatting (job : Job α) : Formatting α where
  styles := ⟨job.baseStyle, []⟩
  paragraph := .plain job.entity.attachment.alignment
  incidents := job.fontIncidents job.baseFont

end Job

end Lettering
