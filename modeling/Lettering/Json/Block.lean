import Lettering.Block
import Lettering.Json.Configuration
import Lettering.Paragraph
import Lettering.Style

/-!
# Layouts in JSON

Writers for what a layout computes: styles, paragraphs, diagnostics and blocks.
-/

namespace Lettering

variable {α : Type}

def Style.toJson (number : α → Json α) (s : Style α) : Json α :=
  .obj [("font", .str s.font), ("font_kind", s.fontKind.toJson),
    ("font_scale_factor", number s.fontScale), ("font_size", number s.size),
    ("font_size_scale_factor", number s.sizeFactor), ("color", s.color.toJson),
    ("underline", .bool s.underline), ("overline", .bool s.overline),
    ("strike_through", .bool s.strikeThrough), ("oblique_angle", number s.obliqueAngle),
    ("italic", .bool s.italic), ("bold", .bool s.bold),
    ("width_factor", number s.widthFactor), ("tracking", number s.tracking),
    ("word_space", number s.wordSpace), ("blank_width", number s.blankWidth),
    ("char_alignment", s.charAlignment.toJson)]

def Paragraph.toJson (number : α → Json α) (p : Paragraph α) : Json α :=
  .obj [("alignment", p.alignment.toJson), ("indent", number p.indent),
    ("left_margin", number p.leftMargin), ("right_margin", number p.rightMargin),
    ("tabs", .ofList number p.tabs)]

namespace Diagnostics

/-- The fonts that lack a character, each once, in order. -/
def fontsWithGaps (d : Diagnostics) : List String :=
  (d.missingGlyphs.map fun entry => entry.1.1).eraseDups

/-- The characters that are missing under one font, with their counts. -/
def gapsOf (d : Diagnostics) (font : String) : List (String × Json α) :=
  (d.missingGlyphs.filter fun entry => entry.1.1 == font).map
    fun entry => (entry.1.2.toString, .int entry.2)

def toJson (d : Diagnostics) : Json α :=
  .obj [("unsupported_chars", .obj (d.fontsWithGaps.map fun font => (font, .obj (d.gapsOf font)))),
    ("missing_fonts", .obj (d.missingFonts.map fun entry => (entry.1, .int entry.2))),
    ("unsupported_font_styles", .int d.imitatedStyles)]

end Diagnostics

def PlacedGlyph.toJson (number : α → Json α) (g : PlacedGlyph α) : Json α :=
  .obj [("ch", .str g.char.toString), ("kind", g.kind.toJson),
    ("origin", g.origin.toJson number), ("advance", number g.advance),
    ("outline", g.outline.toJson number), ("bounds", g.bounds.toJson number)]

def DecorationKind.toJson (k : DecorationKind) : Json α := .str k.name

def Decoration.toJson (number : α → Json α) (d : Decoration α) : Json α :=
  .obj [("kind", d.kind.toJson), ("start", d.start.toJson number),
    ("end", d.stop.toJson number), ("color", d.color.toJson)]

def Run.toJson (number : α → Json α) (r : Run α) : Json α :=
  .obj [("color", r.color.toJson), ("size", number r.size),
    ("char_alignment", r.charAlignment.toJson), ("start_x", number r.startX),
    ("width", number r.width), ("glyphs", .ofList (PlacedGlyph.toJson number) r.glyphs),
    ("decorations", .ofList (Decoration.toJson number) r.decorations)]

def Line.toJson (number : α → Json α) (l : Line α) : Json α :=
  .obj [("baseline", number l.baseline), ("advance", number l.advance),
    ("max_font_size", number l.maxSize), ("starts_paragraph", .bool l.startsParagraph),
    ("runs", .ofList (Run.toJson number) l.runs), ("bounds", l.bounds.toJson number)]

def Block.toJson (number : α → Json α) (b : Block α) : Json α :=
  .obj [("total_height", number b.height), ("lines", .ofList (Line.toJson number) b.lines),
    ("bounds", b.bounds.toJson number), ("diagnostics", b.diagnostics.toJson)]

end Lettering
