import Lettering.Color
import Lettering.Font
import Lettering.Token

/-!
# Character style

Every attribute that characters have while they are laid out, and the stack of
styles that groups save.  Opening a group saves a copy of the active style;
closing it brings that copy back, and closing without an open group does nothing.
-/

namespace Lettering

/-- The attributes of characters. -/
structure Style (α : Type) where
  /-- The name that glyphs are asked for with. -/
  font : String
  fontKind : FontKind
  /-- The factor between a nominal size and the size that glyphs are asked at. -/
  fontScale : α
  /-- The nominal text height. -/
  size : α
  /-- The product of the relative heights since the last absolute one. -/
  sizeFactor : α
  color : Rgb
  underline : Bool
  overline : Bool
  strikeThrough : Bool
  /-- The oblique angle asked for, in degrees. -/
  obliqueAngle : α
  italic : Bool
  bold : Bool
  widthFactor : α
  /-- The factor on every advance. -/
  tracking : α
  /-- The factor on every blank. -/
  wordSpace : α
  /-- The advance of a blank, kept for the font and size in force. -/
  blankWidth : α
  charAlignment : VerticalAlignment
deriving DecidableEq

namespace Style

variable {α : Type} [Scalar α]

/-- The nominal size with relative heights applied; it counts toward the height
of a line. -/
def effectiveSize (s : Style α) : α := s.size * s.sizeFactor

/-- The size that glyphs are asked at. -/
def glyphSize (s : Style α) : α := s.effectiveSize * s.fontScale

/-- The oblique angle in degrees, italics included. -/
def oblique (s : Style α) : α := s.fontKind.oblique s.obliqueAngle s.italic

/-- The style with the advance of a blank recomputed for its font and size. -/
def refreshBlank (s : Style α) : Style α :=
  { s with blankWidth := s.effectiveSize * s.fontKind.blankRatio }

/-- The plain style of a font at a size. -/
def plain (font : String) (kind : FontKind) (size : α) (color : Rgb) : Style α :=
  refreshBlank
    { font := font
      fontKind := kind
      fontScale := 1
      size := size
      sizeFactor := 1
      color := color
      underline := false
      overline := false
      strikeThrough := false
      obliqueAngle := 0
      italic := false
      bold := false
      widthFactor := 1
      tracking := 1
      wordSpace := 1
      blankWidth := 0
      charAlignment := .bottom }

end Style

/-- The active style, and the styles that the open groups saved, the innermost
group first. -/
structure StyleStack (α : Type) where
  active : Style α
  saved : List (Style α) := []
deriving DecidableEq

namespace StyleStack

variable {α : Type}

/-- How many groups are open. -/
def depth (s : StyleStack α) : Nat := s.saved.length

/-- Opens a group. -/
def push (s : StyleStack α) : StyleStack α := ⟨s.active, s.active :: s.saved⟩

/-- Closes the innermost group, if one is open. -/
def pop (s : StyleStack α) : StyleStack α :=
  match s.saved with
  | [] => s
  | style :: rest => ⟨style, rest⟩

/-- Changes the active style. -/
def modify (s : StyleStack α) (f : Style α → Style α) : StyleStack α :=
  { s with active := f s.active }

@[simp] theorem pop_push (s : StyleStack α) : s.push.pop = s := rfl

@[simp] theorem depth_push (s : StyleStack α) : s.push.depth = s.depth + 1 := rfl

@[simp] theorem saved_modify (s : StyleStack α) (f : Style α → Style α) :
    (s.modify f).saved = s.saved := rfl

@[simp] theorem active_modify (s : StyleStack α) (f : Style α → Style α) :
    (s.modify f).active = f s.active := rfl

end StyleStack

end Lettering
