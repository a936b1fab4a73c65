import Lettering.Geometry.Outline

/-!
# Fonts

What a layout asks about fonts.  Font files live elsewhere: a `GlyphSource`
answers four kinds of question, and answers `none` to what it does not know.
-/

namespace Lettering

/-- How a font's glyphs are drawn. -/
inductive FontKind where
  /-- Open polylines, drawn as lines. -/
  | stroke
  /-- Closed contours, drawn as areas. -/
  | filled
deriving DecidableEq

namespace FontKind

def all : List FontKind := [.stroke, .filled]

def name : FontKind → String
  | .stroke => "stroke"
  | .filled => "filled"

variable {α : Type} [Scalar α]

/-- The width of a blank as a fraction of the size. -/
def blankRatio : FontKind → α
  | .stroke => 0.5
  | .filled => 0.3

/-- The skew that stands for italics, in degrees. -/
def italicSkew : α := Scalar.ofInt 15

/-- The oblique angle in degrees that a glyph gets.  Italics add the skew to the
angle of a filled font and replace the angle of a stroke font. -/
def oblique (kind : FontKind) (angle : α) (italic : Bool) : α :=
  match italic, kind with
  | false, _ => angle
  | true, .filled => angle + italicSkew
  | true, .stroke => italicSkew

end FontKind

/-- What is known of a loaded font. -/
structure FontInfo (α : Type) where
  kind : FontKind
  /-- The factor between a nominal size and the size that glyphs are asked at. -/
  scale : α
deriving DecidableEq

/-- A glyph at the size that it was asked at, with the pen at the origin. -/
structure Glyph (α : Type) where
  /-- How far the pen moves. -/
  advance : α
  /-- The ink, `none` for a glyph without any. -/
  outline : Option (Outline α)
deriving DecidableEq

/-- The source of glyphs and of what is known of fonts. -/
structure GlyphSource (α : Type) where
  /-- The glyph of a character in a font at a size. -/
  glyph : Char → String → α → Option (Glyph α)
  /-- What is known of a font, `none` when it is not available. -/
  info : String → Option (FontInfo α)
  /-- The name to try in place of a font that is not available. -/
  substitute : String → Option String
  /-- A font that has a character, with the glyph, out of all loaded fonts. -/
  search : Char → α → Option (String × Glyph α)

end Lettering
