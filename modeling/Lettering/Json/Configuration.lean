import Lettering.Entity
import Lettering.Font
import Lettering.Json.Reader
import Lettering.Json.Token
import Lettering.Settings

/-!
# Configuration in JSON

Settings, entities, colors and what is known of fonts.  The fields of settings and
of entities may be absent, and then have their standard values; settings that are
read from a text have to lie in their ranges.
-/

namespace Lettering

variable {α : Type}

namespace Rgb

def toJson (c : Rgb) : Json α :=
  .obj [("r", .int c.r.toNat), ("g", .int c.g.toNat), ("b", .int c.b.toNat)]

/-- A channel of a color. -/
def channel? (j : Json α) : Option UInt8 := (j.below? 256).map Nat.toUInt8

def ofJson? (j : Json α) : Option Rgb := do
  let f ← j.fields? ["r", "g", "b"]
  return ⟨← f.need "r" channel?, ← f.need "g" channel?, ← f.need "b" channel?⟩

end Rgb

namespace ReservedColors

def toJson (c : ReservedColors) : Json α :=
  .obj [("by_layer", c.byLayer.toJson), ("by_block", c.byBlock.toJson)]

def ofJson? (j : Json α) : Option ReservedColors := do
  let f ← j.fields? ["by_layer", "by_block"]
  return ⟨← f.need "by_layer" Rgb.ofJson?, ← f.need "by_block" Rgb.ofJson?⟩

end ReservedColors

namespace FontKind

def toJson (k : FontKind) : Json α := .str k.name

def ofJson? (j : Json α) : Option FontKind := j.named? false all name

end FontKind

namespace FontInfo

def toJson (number : α → Json α) (i : FontInfo α) : Json α :=
  .obj [("kind", i.kind.toJson), ("scale_factor", number i.scale)]

def ofJson? [Scalar α] (j : Json α) : Option (FontInfo α) := do
  let f ← j.fields? ["kind", "scale_factor"]
  return ⟨← f.need "kind" FontKind.ofJson?, ← f.need "scale_factor" Json.number?⟩

end FontInfo

namespace Attachment

def toJson (a : Attachment) : Json α := .int a.code

/-- An attachment point by its code. -/
def ofJson? (j : Json α) : Option Attachment := (j.below? 256).bind ofCode?

end Attachment

namespace Flow

def toJson (f : Flow) : Json α := .str f.name

def ofJson? (j : Json α) : Option Flow := j.named? false all name

end Flow

namespace Settings

def toJson (number : α → Json α) (s : Settings α) : Json α :=
  .obj [("default_font", .str s.defaultFont), ("big_font", .ofOption .str s.bigFont),
    ("not_found_char", .str s.placeholder.toString),
    ("line_spacing_constant", number s.spacingConstant),
    ("bold_expansion", number s.boldExpansion),
    ("legacy_relative_width_factor", .bool s.legacyWidthFactor),
    ("script_scale", number s.scriptScale),
    ("superscript_offset", number s.superscriptOffset),
    ("subscript_offset", number s.subscriptOffset),
    ("default_tab_size", number s.tabSize)]

def ofJson? [Scalar α] (j : Json α) : Option (Settings α) := do
  let f ← j.fields?
    ["default_font", "big_font", "not_found_char", "line_spacing_constant", "bold_expansion",
      "legacy_relative_width_factor", "script_scale", "superscript_offset", "subscript_offset",
      "default_tab_size"]
  let s : Settings α := standard
  return {
    defaultFont := ← f.getD "default_font" Json.text? s.defaultFont
    bigFont := ← f.getD "big_font" (Json.optional? Json.text?) s.bigFont
    placeholder := ← f.getD "not_found_char" Json.char? s.placeholder
    spacingConstant := ← f.getD "line_spacing_constant" Json.number? s.spacingConstant
    boldExpansion := ← f.getD "bold_expansion" Json.number? s.boldExpansion
    legacyWidthFactor := ← f.getD "legacy_relative_width_factor" Json.bool? s.legacyWidthFactor
    scriptScale := ← f.getD "script_scale" Json.number? s.scriptScale
    superscriptOffset := ← f.getD "superscript_offset" Json.number? s.superscriptOffset
    subscriptOffset := ← f.getD "subscript_offset" Json.number? s.subscriptOffset
    tabSize := ← f.getD "default_tab_size" Json.number? s.tabSize }

/-- The settings of a JSON text, if they lie in their ranges. -/
def ofText [Scalar α] (text : String) : Except (ConfigError α) (Settings α) := do
  match (Json.parse text).bind ofJson? with
  | none => .error .malformed
  | some s => do s.validate; .ok s

end Settings

namespace Entity

def toJson (number : α → Json α) (e : Entity α) : Json α :=
  .obj [("insertion", e.insertion.toJson number), ("height", number e.height),
    ("width", number e.width), ("attachment", e.attachment.toJson),
    ("flow_direction", e.flow.toJson), ("rotation", number e.rotation),
    ("direction", .ofOption (Point.toJson number) e.direction),
    ("line_space_factor", number e.lineSpaceFactor), ("font", .str e.font),
    ("width_factor", number e.widthFactor), ("oblique", number e.oblique),
    ("color", e.color.toJson)]

def ofJson? [Scalar α] (j : Json α) : Option (Entity α) := do
  let f ← j.fields?
    ["insertion", "height", "width", "attachment", "flow_direction", "rotation", "direction",
      "line_space_factor", "font", "width_factor", "oblique", "color"]
  let e : Entity α := standard
  return {
    insertion := ← f.getD "insertion" Point.ofJson? e.insertion
    height := ← f.getD "height" Json.number? e.height
    width := ← f.getD "width" Json.number? e.width
    attachment := ← f.getD "attachment" Attachment.ofJson? e.attachment
    flow := ← f.getD "flow_direction" Flow.ofJson? e.flow
    rotation := ← f.getD "rotation" Json.number? e.rotation
    direction := ← f.getD "direction" (Json.optional? Point.ofJson?) e.direction
    lineSpaceFactor := ← f.getD "line_space_factor" Json.number? e.lineSpaceFactor
    font := ← f.getD "font" Json.text? e.font
    widthFactor := ← f.getD "width_factor" Json.number? e.widthFactor
    oblique := ← f.getD "oblique" Json.number? e.oblique
    color := ← f.getD "color" ColorRequest.ofJson? e.color }

end Entity

end Lettering
