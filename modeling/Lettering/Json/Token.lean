import Lettering.Json.Geometry
import Lettering.Token

/-!
# Tokens in JSON

A token is tagged `type` and `value`, a command `command` and `value`.  A color
request and a scale are objects of one member.  A word is a text or a list of texts.
-/

namespace Lettering

variable {α : Type}

namespace WordText

def toJson : WordText → Json α
  | .text s => .str s
  | .parts pieces => .ofList .str pieces

def ofJson? : Json α → Option WordText
  | .str s => some (.text s)
  | .arr items => (items.mapM Json.text?).map .parts
  | _ => none

end WordText

namespace ColorRequest

def toJson : ColorRequest → Json α
  | .index i => .obj [("index", .int i.toNat)]
  | .rgb packed => .obj [("rgb", .int packed.toNat)]

def ofJson? (j : Json α) : Option ColorRequest :=
  match j.single? with
  | some ("index", i) => (i.below? 65536).map fun n => .index n.toUInt16
  | some ("rgb", packed) => (packed.below? 4294967296).map fun n => .rgb n.toUInt32
  | _ => none

end ColorRequest

namespace Scale

def toJson (number : α → Json α) : Scale α → Json α
  | .absolute value => .obj [("absolute", number value)]
  | .relative factor => .obj [("relative", number factor)]

def ofJson? [Scalar α] (j : Json α) : Option (Scale α) :=
  match j.single? with
  | some ("absolute", value) => value.number?.map .absolute
  | some ("relative", factor) => factor.number?.map .relative
  | _ => none

end Scale

namespace Divider

def toJson (d : Divider) : Json α := .str d.name

def ofJson? (held : Bool) (j : Json α) : Option Divider := j.named? held all name

end Divider

namespace HorizontalAlignment

def toJson (a : HorizontalAlignment) : Json α := .str a.name

def ofJson? (held : Bool) (j : Json α) : Option HorizontalAlignment := j.named? held all name

end HorizontalAlignment

namespace VerticalAlignment

def toJson (a : VerticalAlignment) : Json α := .str a.name

def ofJson? (held : Bool) (j : Json α) : Option VerticalAlignment := j.named? held all name

end VerticalAlignment

namespace StackText

def toJson (e : StackText) : Json α :=
  .obj [("numerator", .str e.numerator), ("denominator", .str e.denominator),
    ("divider", e.divider.toJson)]

def ofJson? (held : Bool) (j : Json α) : Option StackText := do
  let f ← j.fields? ["numerator", "denominator", "divider"]
  return {
    numerator := ← f.need "numerator" Json.text?
    denominator := ← f.need "denominator" Json.text?
    divider := ← f.need "divider" (Divider.ofJson? held) }

end StackText

namespace ParagraphChange

def toJson (number : α → Json α) (c : ParagraphChange α) : Json α :=
  .obj [("indent", .ofOption number c.indent), ("left", .ofOption number c.left),
    ("right", .ofOption number c.right),
    ("alignment", .ofOption HorizontalAlignment.toJson c.alignment),
    ("tabs", .ofOption (.ofList number) c.tabs)]

def ofJson? [Scalar α] (held : Bool) (j : Json α) : Option (ParagraphChange α) := do
  let f ← j.fields? ["indent", "left", "right", "alignment", "tabs"]
  return {
    indent := ← f.getD "indent" (Json.optional? Json.number?) none
    left := ← f.getD "left" (Json.optional? Json.number?) none
    right := ← f.getD "right" (Json.optional? Json.number?) none
    alignment :=
      ← f.getD "alignment" (Json.optional? (HorizontalAlignment.ofJson? held)) none
    tabs := ← f.getD "tabs" (Json.optional? (Json.list? Json.number?)) none }

end ParagraphChange

namespace Command

/-- The names of all kinds of command. -/
def names : List String :=
  ["group_open", "group_close", "font", "color", "width_factor", "height", "tracking", "oblique",
    "underline", "overline", "strike_through", "char_alignment", "paragraph", "unknown"]

/-- The content of a command, `none` for the kinds without. -/
def content (number : α → Json α) : Command α → Option (Json α)
  | .groupOpen | .groupClose => none
  | .font name bold italic =>
    some (.obj [("name", .str name), ("bold", .bool bold), ("italic", .bool italic)])
  | .color request => some request.toJson
  | .widthFactor scale | .height scale | .tracking scale => some (scale.toJson number)
  | .oblique angle => some (number angle)
  | .underline on | .overline on | .strikeThrough on => some (.bool on)
  | .charAlignment alignment => some alignment.toJson
  | .paragraph change => some (change.toJson number)
  | .unknown code => some (.str code)

def toJson (number : α → Json α) (c : Command α) : Json α :=
  .obj (("command", .str c.name) :: ((c.content number).map ("value", ·)).toList)

/-- The content of a font command, which is never an array. -/
def fontOfJson? (j : Json α) : Option (Command α) := do
  let f ← j.members? ["name", "bold", "italic"]
  return .font (← f.need "name" Json.text?) (← f.getD "bold" Json.bool? false)
    (← f.getD "italic" Json.bool? false)

/-- The command of a kind with a content. -/
def ofContent? [Scalar α] (kind : String) (content : Option (Json.Content α)) :
    Option (Command α) :=
  match kind with
  | "group_open" => Json.bare .groupOpen content
  | "group_close" => Json.bare .groupClose content
  | "font" => Json.filled (fun _ => fontOfJson?) content
  | "color" => Json.filled (fun _ j => (ColorRequest.ofJson? j).map .color) content
  | "width_factor" => Json.filled (fun _ j => (Scale.ofJson? j).map .widthFactor) content
  | "height" => Json.filled (fun _ j => (Scale.ofJson? j).map .height) content
  | "tracking" => Json.filled (fun _ j => (Scale.ofJson? j).map .tracking) content
  | "oblique" => Json.filled (fun _ j => j.number?.map .oblique) content
  | "underline" => Json.filled (fun _ j => j.bool?.map .underline) content
  | "overline" => Json.filled (fun _ j => j.bool?.map .overline) content
  | "strike_through" => Json.filled (fun _ j => j.bool?.map .strikeThrough) content
  | "char_alignment" =>
    Json.filled (fun held j => (VerticalAlignment.ofJson? held j).map .charAlignment) content
  | "paragraph" =>
    Json.filled (fun held j => (ParagraphChange.ofJson? held j).map .paragraph) content
  | "unknown" => Json.filled (fun _ j => j.text?.map .unknown) content
  | _ => none

def ofJson? [Scalar α] (held : Bool) (j : Json α) : Option (Command α) := do
  let (kind, content) ← j.tagged? held "command" "value" names
  ofContent? kind content

end Command

namespace Token

/-- The names of all kinds of token. -/
def names : List String :=
  ["word", "space", "non_breaking_space", "tab", "paragraph_break", "stack", "format"]

/-- The content of a token, `none` for the kinds without. -/
def content (number : α → Json α) : Token α → Option (Json α)
  | .word text => some text.toJson
  | .space | .nonBreakingSpace | .tab | .paragraphBreak => none
  | .stack expression => some expression.toJson
  | .format command => some (command.toJson number)

def toJson (number : α → Json α) (t : Token α) : Json α :=
  .obj (("type", .str t.name) :: ((t.content number).map ("value", ·)).toList)

/-- The token of a kind with a content. -/
def ofContent? [Scalar α] (kind : String) (content : Option (Json.Content α)) :
    Option (Token α) :=
  match kind with
  | "word" => Json.filled (fun _ j => (WordText.ofJson? j).map .word) content
  | "space" => Json.bare .space content
  | "non_breaking_space" => Json.bare .nonBreakingSpace content
  | "tab" => Json.bare .tab content
  | "paragraph_break" => Json.bare .paragraphBreak content
  | "stack" => Json.filled (fun held j => (StackText.ofJson? held j).map .stack) content
  | "format" => Json.filled (fun held j => (Command.ofJson? held j).map .format) content
  | _ => none

def ofJson? [Scalar α] (j : Json α) : Option (Token α) := do
  let (kind, content) ← j.tagged? false "type" "value" names
  ofContent? kind content

end Token

end Lettering
