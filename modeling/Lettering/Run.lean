import Lettering.Color
import Lettering.Font
import Lettering.Token

/-!
# Runs

A run is what one word or one stack leaves on a line: its placed glyphs and its
decorations, in one color.
-/

namespace Lettering

/-- A glyph at its place. -/
structure PlacedGlyph (α : Type) where
  /-- The character drawn. -/
  char : Char
  /-- The kind of the font that drew it. -/
  kind : FontKind
  /-- The place of the pen on the baseline. -/
  origin : Point α
  advance : α
  outline : Outline α
  /-- A box around the advance cell and the outline. -/
  bounds : Box α
deriving DecidableEq

/-- What a decoration is for. -/
inductive DecorationKind where
  | underline
  | overline
  | strikeThrough
  | stackDivider
deriving DecidableEq

namespace DecorationKind

def all : List DecorationKind := [.underline, .overline, .strikeThrough, .stackDivider]

def name : DecorationKind → String
  | .underline => "underline"
  | .overline => "overline"
  | .strikeThrough => "strike_through"
  | .stackDivider => "stack_divider"

/-- The height of the line above the baseline, in units of the size. -/
def rise {α : Type} [Scalar α] : DecorationKind → α
  | .underline => -0.2
  | .overline => 1.2
  | .strikeThrough | .stackDivider => 0.5

end DecorationKind

/-- A line drawn apart from any glyph. -/
structure Decoration (α : Type) where
  kind : DecorationKind
  start : Point α
  stop : Point α
  color : Rgb
deriving DecidableEq

/-- A row of glyphs and its decorations. -/
structure Run (α : Type) where
  color : Rgb
  /-- The nominal size that the run counts with. -/
  size : α
  charAlignment : VerticalAlignment
  /-- The pen before the first glyph. -/
  startX : α
  /-- The sum of the advances. -/
  width : α
  glyphs : List (PlacedGlyph α)
  decorations : List (Decoration α)
deriving DecidableEq

variable {α : Type} [Scalar α]

namespace PlacedGlyph

/-- The glyph moved by `(dx, dy)`. -/
def shift (g : PlacedGlyph α) (dx dy : α) : PlacedGlyph α :=
  { g with
    origin := g.origin.shift dx dy
    outline := g.outline.shift dx dy
    bounds := g.bounds.shift dx dy }

/-- The glyph under an affine map. -/
def image (g : PlacedGlyph α) (t : Affine α) : PlacedGlyph α :=
  { g with
    origin := t.apply g.origin
    outline := g.outline.map t.apply
    bounds := g.bounds.image t }

end PlacedGlyph

namespace Decoration

/-- The decoration of something as wide as `advance` that stands at `origin`. -/
def along (kind : DecorationKind) (origin : Point α) (size advance : α) (color : Rgb) :
    Decoration α :=
  let y := kind.rise * size
  ⟨kind, origin.shift 0 y, origin.shift advance y, color⟩

/-- The distance of the ends. -/
def length (d : Decoration α) : α :=
  Scalar.hypot (d.stop.x - d.start.x) (d.stop.y - d.start.y)

def bounds (d : Decoration α) : Box α := .spanning d.start d.stop

/-- The decoration moved by `(dx, dy)`. -/
def shift (d : Decoration α) (dx dy : α) : Decoration α :=
  { d with start := d.start.shift dx dy, stop := d.stop.shift dx dy }

/-- The decoration under an affine map. -/
def image (d : Decoration α) (t : Affine α) : Decoration α :=
  { d with start := t.apply d.start, stop := t.apply d.stop }

end Decoration

namespace Run

/-- The pen after the last glyph. -/
def endX (r : Run α) : α := r.startX + r.width

/-- The box around all glyphs and decorations. -/
def bounds (r : Run α) : Box α :=
  .unions (r.glyphs.map (·.bounds) ++ r.decorations.map Decoration.bounds)

/-- The run moved by `(dx, dy)`. -/
def shift (r : Run α) (dx dy : α) : Run α :=
  { r with
    startX := r.startX + dx
    glyphs := r.glyphs.map fun g => g.shift dx dy
    decorations := r.decorations.map fun d => d.shift dx dy }

/-- The run with its geometry under an affine map; where it starts on the line
stays as it is. -/
def image (r : Run α) (t : Affine α) : Run α :=
  { r with
    glyphs := r.glyphs.map fun g => g.image t
    decorations := r.decorations.map fun d => d.image t }

end Run

end Lettering
