import Lettering.Font

/-!
# Glyph tables

A glyph source that reads all its answers from tables.  Glyphs are tabulated at
size one and scaled to the size asked for.  Names are compared exactly, and the
first entry that matches counts.
-/

namespace Lettering

/-- The tables of a glyph source. -/
structure GlyphTable (α : Type) where
  fonts : List (String × FontInfo α)
  glyphs : List ((String × Char) × Glyph α)
  substitutes : List (String × String)
  /-- Which font answers for a character that was asked for without a font. -/
  index : List (Char × (String × Glyph α))

/-- A glyph with its advance and every coordinate multiplied by a size. -/
def Glyph.scaled {α : Type} [Scalar α] (g : Glyph α) (size : α) : Glyph α :=
  ⟨g.advance * size, g.outline.map fun o => o.map fun p => ⟨p.x * size, p.y * size⟩⟩

/-- The tables as a glyph source. -/
def GlyphTable.source {α : Type} [Scalar α] (t : GlyphTable α) : GlyphSource α where
  glyph c font size := (t.glyphs.lookup (font, c)).map (·.scaled size)
  info font := t.fonts.lookup font
  substitute font := t.substitutes.lookup font
  search c size := (t.index.lookup c).map fun entry => (entry.1, entry.2.scaled size)

end Lettering
