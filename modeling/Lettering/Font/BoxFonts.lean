import Lettering.Font
import Lettering.Text.CharClass

/-!
# Box fonts

A glyph source that needs no font files.  Every font that it lists answers every
character but control characters with a rectangle of six tenths of the size by
the size, so that a layout can be checked by simple arithmetic.  Names are
compared without regard to ASCII case.
-/

namespace Lettering

/-- Fonts whose glyphs are boxes, and what they lack.  All names are stored in
lower case, in the order of registration. -/
structure BoxFonts (α : Type) where
  fonts : List (String × FontInfo α)
  /-- Characters that no font has. -/
  missing : List Char
  /-- Characters that one font lacks. -/
  gaps : List (String × Char)
  /-- Names to try in place of fonts that are not available. -/
  aliases : List (String × String)

namespace BoxFonts

open Text (foldCase isBlank isControl)

variable {α : Type} [Scalar α]

/-- No fonts. -/
def empty : BoxFonts α := ⟨[], [], [], []⟩

/-- Registers a font with an explicit scale. -/
def addScaledFont (b : BoxFonts α) (name : String) (kind : FontKind) (scale : α) : BoxFonts α :=
  { b with fonts := b.fonts ++ [(foldCase name, ⟨kind, scale⟩)] }

/-- Registers a font of scale one. -/
def addFont (b : BoxFonts α) (name : String) (kind : FontKind) : BoxFonts α :=
  b.addScaledFont name kind 1

/-- Takes a character out of every font. -/
def removeChar (b : BoxFonts α) (c : Char) : BoxFonts α :=
  { b with missing := b.missing ++ [c] }

/-- Takes a character out of one font. -/
def removeCharIn (b : BoxFonts α) (name : String) (c : Char) : BoxFonts α :=
  { b with gaps := b.gaps ++ [(foldCase name, c)] }

/-- Registers the name to try in place of another. -/
def addAlias (b : BoxFonts α) (name target : String) : BoxFonts α :=
  { b with aliases := b.aliases ++ [(foldCase name, foldCase target)] }

/-- One stroke font and one filled font. -/
def standard : BoxFonts α := (empty.addFont "simplex" .stroke).addFont "arial" .filled

def info (b : BoxFonts α) (font : String) : Option (FontInfo α) := b.fonts.lookup (foldCase font)

/-- A rectangle, without ink for a blank. -/
def boxGlyph (c : Char) (size : α) : Glyph α :=
  let advance := size * 0.6
  ⟨advance, if isBlank c then none else
    some ⟨[[⟨0, 0⟩, ⟨advance, 0⟩, ⟨advance, size⟩, ⟨0, size⟩, ⟨0, 0⟩]]⟩⟩

/-- Whether a font has a character. -/
def has (b : BoxFonts α) (c : Char) (font : String) : Bool :=
  !isControl c && !b.missing.contains c && (b.info font).isSome &&
    !b.gaps.contains (foldCase font, c)

def glyph (b : BoxFonts α) (c : Char) (font : String) (size : α) : Option (Glyph α) :=
  if b.has c font then some (boxGlyph c size) else none

/-- The first registered font that has a character. -/
def search (b : BoxFonts α) (c : Char) (size : α) : Option (String × Glyph α) :=
  b.fonts.findSome? fun font => (b.glyph c font.1 size).map (font.1, ·)

/-- The fonts as a glyph source. -/
def source (b : BoxFonts α) : GlyphSource α where
  glyph := b.glyph
  info := b.info
  substitute font := b.aliases.lookup (foldCase font)
  search := b.search

end BoxFonts

end Lettering
