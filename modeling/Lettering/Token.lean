import Lettering.Color

/-!
# Tokens

The stream that a layout consumes.  A tokenizer elsewhere turns marked-up text
such as `{\C1;Hello}\P\S1/2;` into these tokens; the layout reads them once, from
first to last.
-/

namespace Lettering

/-- The characters of a word, whole or in pieces. -/
inductive WordText where
  | text (s : String)
  | parts (pieces : List String)
deriving DecidableEq

/-- The characters in order, whatever the pieces. -/
def WordText.chars : WordText → List Char
  | .text s => s.toList
  | .parts pieces => (pieces.map String.toList).flatten

/-- Whether the word has no character. -/
def WordText.isEmpty (w : WordText) : Bool := w.chars.isEmpty

/-- What stands between the halves of a stack. -/
inductive Divider where
  /-- A horizontal rule. -/
  | line
  /-- A diagonal stroke. -/
  | slash
  /-- Nothing; a lone half is a superscript or a subscript. -/
  | tolerance
deriving DecidableEq

namespace Divider

def all : List Divider := [.line, .slash, .tolerance]

/-- The character that writes a divider. -/
def mark : Divider → Char
  | .line => '/'
  | .slash => '#'
  | .tolerance => '^'

def name (d : Divider) : String := d.mark.toString

/-- The divider that a character writes. -/
def ofMark? (c : Char) : Option Divider := all.find? fun d => d.mark == c

end Divider

/-- A stacked expression: one text above another. -/
structure StackText where
  numerator : String
  denominator : String
  divider : Divider
deriving DecidableEq

/-- A new value, or a factor on the value in force. -/
inductive Scale (α : Type) where
  | absolute (value : α)
  | relative (factor : α)
deriving DecidableEq

/-- How the lines of a paragraph stand between the margins. -/
inductive HorizontalAlignment where
  | left
  | center
  | right
  /-- Runs spread until the line fills the usable width. -/
  | distributed
deriving DecidableEq

namespace HorizontalAlignment

def all : List HorizontalAlignment := [.left, .center, .right, .distributed]

def name : HorizontalAlignment → String
  | .left => "left"
  | .center => "center"
  | .right => "right"
  | .distributed => "distributed"

end HorizontalAlignment

/-- How a run stands in a line that is taller than the run. -/
inductive VerticalAlignment where
  | bottom
  | center
  | top
deriving DecidableEq

namespace VerticalAlignment

def all : List VerticalAlignment := [.bottom, .center, .top]

def name : VerticalAlignment → String
  | .bottom => "bottom"
  | .center => "center"
  | .top => "top"

end VerticalAlignment

/-- A change of paragraph properties; what is absent stays as it is. -/
structure ParagraphChange (α : Type) where
  indent : Option α := none
  left : Option α := none
  right : Option α := none
  alignment : Option HorizontalAlignment := none
  /-- Tab stops, relative to the left margin. -/
  tabs : Option (List α) := none
deriving DecidableEq

/-- An inline formatting command. -/
inductive Command (α : Type) where
  | groupOpen
  | groupClose
  | font (name : String) (bold italic : Bool)
  | color (request : ColorRequest)
  | widthFactor (scale : Scale α)
  | height (scale : Scale α)
  | tracking (scale : Scale α)
  /-- The oblique angle in degrees. -/
  | oblique (angle : α)
  | underline (on : Bool)
  | overline (on : Bool)
  | strikeThrough (on : Bool)
  | charAlignment (alignment : VerticalAlignment)
  | paragraph (change : ParagraphChange α)
  /-- A command that the layout does not know and passes over. -/
  | unknown (code : String)
deriving DecidableEq

/-- The name of a command's kind. -/
def Command.name {α : Type} : Command α → String
  | .groupOpen => "group_open"
  | .groupClose => "group_close"
  | .font .. => "font"
  | .color _ => "color"
  | .widthFactor _ => "width_factor"
  | .height _ => "height"
  | .tracking _ => "tracking"
  | .oblique _ => "oblique"
  | .underline _ => "underline"
  | .overline _ => "overline"
  | .strikeThrough _ => "strike_through"
  | .charAlignment _ => "char_alignment"
  | .paragraph _ => "paragraph"
  | .unknown _ => "unknown"

/-- One token of a stream. -/
inductive Token (α : Type) where
  /-- Characters that no line break separates. -/
  | word (text : WordText)
  /-- A blank that a line may break after. -/
  | space
  /-- A blank that no line breaks after. -/
  | nonBreakingSpace
  | tab
  | paragraphBreak
  | stack (expression : StackText)
  | format (command : Command α)
deriving DecidableEq

/-- The name of a token's kind. -/
def Token.name {α : Type} : Token α → String
  | .word _ => "word"
  | .space => "space"
  | .nonBreakingSpace => "non_breaking_space"
  | .tab => "tab"
  | .paragraphBreak => "paragraph_break"
  | .stack _ => "stack"
  | .format _ => "format"

end Lettering
