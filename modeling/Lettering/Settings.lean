import Lettering.Scalar
import Lettering.Text.CharClass

/-!
# Settings

What is decided once for all texts of a drawing, and why a configuration is
refused.  A layout itself never fails.
-/

namespace Lettering

/-- The policy of the layout engine. -/
structure Settings (α : Type) where
  /-- The font that stands in for one that is not available. -/
  defaultFont : String
  /-- The font asked second when the active font lacks a glyph. -/
  bigFont : Option String
  /-- The character drawn in place of one that no font has. -/
  placeholder : Char
  /-- The leading as a fraction of the size. -/
  spacingConstant : α
  /-- How much a bold glyph grows, as a fraction of the size. -/
  boldExpansion : α
  /-- Whether a relative width factor is a fraction of the reference width. -/
  legacyWidthFactor : Bool
  /-- The size of a lone superscript or subscript, relative to the text. -/
  scriptScale : α
  /-- The baseline of a lone superscript, in units of the size. -/
  superscriptOffset : α
  /-- The baseline of a lone subscript, in units of the size. -/
  subscriptOffset : α
  /-- The distance of default tab stops, in blanks. -/
  tabSize : α
deriving DecidableEq

/-- Why a configuration is refused. -/
inductive ConfigError (α : Type) where
  /-- The text is no value of the form that is read. -/
  | malformed
  | emptyDefaultFont
  /-- A value outside the range that its field allows. -/
  | outOfRange (field allowed : String) (value : α)
  /-- A number that names no attachment point. -/
  | unknownAttachment (code : Nat)
deriving DecidableEq

namespace ConfigError

variable {α : Type}

/-- The field that is at fault, if a value is. -/
def field? : ConfigError α → Option String
  | .malformed => none
  | .emptyDefaultFont => some "default_font"
  | .outOfRange field _ _ => some field
  | .unknownAttachment _ => some "attachment"

/-- Why the value of the field is refused; `write` is the text of a scalar. -/
def reason (write : α → String) : ConfigError α → String
  | .malformed => "not a value of the expected form"
  | .emptyDefaultFont => "must not be empty"
  | .outOfRange _ allowed value => "must be " ++ allowed ++ ", got " ++ write value
  | .unknownAttachment code => "expected 1..=9, got " ++ Nat.repr code

/-- The message for a reader. -/
def message (write : α → String) (e : ConfigError α) : String :=
  match e.field? with
  | some field => "invalid value for `" ++ field ++ "`: " ++ e.reason write
  | none => e.reason write

end ConfigError

namespace Settings

variable {α : Type} [Scalar α]

/-- The settings in force when nothing else is said. -/
def standard : Settings α where
  defaultFont := "simplex"
  bigFont := none
  placeholder := '?'
  spacingConstant := Scalar.ofInt 2 / Scalar.ofInt 3
  boldExpansion := 0.06
  legacyWidthFactor := true
  scriptScale := 0.7
  superscriptOffset := 0.1
  subscriptOffset := -0.3
  tabSize := Scalar.ofInt 4

/-- Refuses a value unless it lies in its range. -/
def require (field allowed : String) (value : α) (inRange : Bool) : Except (ConfigError α) Unit :=
  if inRange then .ok () else .error (.outOfRange field allowed value)

/-- Refuses settings for the first field whose value is out of its range. -/
def validate (s : Settings α) : Except (ConfigError α) Unit := do
  if Text.isBlankText s.defaultFont then .error .emptyDefaultFont else .ok ()
  require "line_spacing_constant" ">= 0" s.spacingConstant (0 ≤ s.spacingConstant)
  require "script_scale" "in (0, 1]" s.scriptScale (0 < s.scriptScale && s.scriptScale ≤ 1)
  require "bold_expansion" ">= 0" s.boldExpansion (0 ≤ s.boldExpansion)
  require "default_tab_size" "> 0" s.tabSize (0 < s.tabSize)

end Settings

end Lettering
