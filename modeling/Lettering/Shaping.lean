import Lettering.Incident
import Lettering.Job
import Lettering.Run
import Lettering.Style

/-!
# Shaping

One character becomes one glyph.  The fonts are asked in a fixed order: the active
font, the big font, any loaded font, and for a character that none of them has,
the active font for the placeholder; if that is missing too a box is drawn.  So
shaping never fails.  The width factor, the synthetic bold, the oblique shear and
the tracking are applied to the glyph that answered, with the pen at the origin.
-/

namespace Lettering

/-- A glyph ready to be placed. -/
structure ShapedGlyph (α : Type) where
  /-- The character drawn. -/
  char : Char
  /-- The kind of the font that drew it. -/
  kind : FontKind
  advance : α
  outline : Outline α
  /-- A box around the advance cell and the outline. -/
  bounds : Box α
deriving DecidableEq

variable {α : Type} [Scalar α]

/-- The glyph with the pen at `origin`. -/
def ShapedGlyph.placedAt (g : ShapedGlyph α) (origin : Point α) : PlacedGlyph α where
  char := g.char
  kind := g.kind
  origin := origin
  advance := g.advance
  outline := g.outline.shift origin.x origin.y
  bounds := g.bounds.shift origin.x origin.y

/-- The box drawn when not even the placeholder has a glyph. -/
def placeholderBox (size : α) : Glyph α :=
  let width := size * 0.6
  let inset := size * 0.1
  ⟨width, some ⟨[[⟨inset, 0⟩, ⟨width - inset, 0⟩, ⟨width - inset, size⟩, ⟨inset, size⟩,
    ⟨inset, 0⟩]]⟩⟩

namespace Resources

/-- The kind of a font, `current` if nothing is known of it. -/
def kindOf (r : Resources α) (font : String) (current : FontKind) : FontKind :=
  match r.fonts.info font with
  | some info => info.kind
  | none => current

/-- The glyph of a character out of the big font. -/
def fromBigFont? (r : Resources α) (style : Style α) (c : Char) : Option (FontKind × Glyph α) :=
  match r.settings.bigFont with
  | some font =>
    (r.fonts.glyph c font style.glyphSize).map fun g => (r.kindOf font style.fontKind, g)
  | none => none

/-- The glyph of a character out of any font. -/
def fromAnyFont? (r : Resources α) (style : Style α) (c : Char) : Option (FontKind × Glyph α) :=
  (r.fonts.search c style.glyphSize).map fun found => (r.kindOf found.1 style.fontKind, found.2)

/-- The glyph of a character with the kind of the font that has it, if any has. -/
def find? (r : Resources α) (style : Style α) (c : Char) : Option (FontKind × Glyph α) :=
  match r.fonts.glyph c style.font style.glyphSize with
  | some g => some (style.fontKind, g)
  | none => (r.fromBigFont? style c).or (r.fromAnyFont? style c)

/-- What is drawn in place of a character that no font has. -/
def placeholderGlyph (r : Resources α) (style : Style α) : Glyph α :=
  (r.fonts.glyph r.settings.placeholder style.font style.glyphSize).getD
    (placeholderBox style.glyphSize)

end Resources

/-- An outline made bold.  A filled glyph is stretched by the expansion, a stroke
glyph is struck twice. -/
def embolden (kind : FontKind) (expansion advance : α) (outline : Outline α) : Outline α :=
  match kind with
  | .filled =>
    if 0 < advance then
      let stretch := (advance + expansion) / advance
      outline.map fun p => ⟨p.x * stretch, p.y⟩
    else outline
  | .stroke => outline.append (outline.shift expansion 0)

/-- An outline sheared to an angle in degrees. -/
def slant (angle : α) (outline : Outline α) : Outline α :=
  if angle != 0 then
    let shear := Scalar.tan (Scalar.radians angle)
    outline.map fun p => ⟨p.x + p.y * shear, p.y⟩
  else outline

namespace Resources

/-- A glyph with the attributes of a style applied. -/
def finish (r : Resources α) (style : Style α) (c : Char) (kind : FontKind) (glyph : Glyph α) :
    ShapedGlyph α :=
  let size := style.effectiveSize
  let expansion := r.settings.boldExpansion * size
  let width := glyph.advance * style.widthFactor
  let ink := (glyph.outline.getD .blank).map fun p => ⟨p.x * style.widthFactor, p.y⟩
  let strong := if style.bold then embolden kind expansion width ink else ink
  let outline := slant style.oblique strong
  let advance := (if style.bold then width + expansion else width) * style.tracking
  { char := c
    kind := kind
    advance := advance
    outline := outline
    bounds := (Box.spanning .origin ⟨advance, size⟩).union outline.bounds }

/-- One character shaped. -/
def shape (r : Resources α) (style : Style α) (c : Char) : ShapedGlyph α :=
  match r.find? style c with
  | some (kind, glyph) => r.finish style c kind glyph
  | none => r.finish style r.settings.placeholder style.fontKind (r.placeholderGlyph style)

/-- A text shaped, character by character. -/
def shapeText (r : Resources α) (style : Style α) (text : List Char) : List (ShapedGlyph α) :=
  text.map (r.shape style)

/-- What there is to report about shaping a text. -/
def shapingIncidents (r : Resources α) (style : Style α) (text : List Char) : List Incident :=
  (text.filter fun c => (r.find? style c).isNone).map (.missingGlyph style.font ·)

end Resources

/-- The sum of the advances of a row of glyphs. -/
def totalAdvance (glyphs : List (ShapedGlyph α)) : α := Scalar.sum (glyphs.map (·.advance))

end Lettering
