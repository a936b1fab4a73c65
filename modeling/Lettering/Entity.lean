import Lettering.Color
import Lettering.Geometry.Point
import Lettering.Token

/-!
# Text entities

The parameters that a drawing stores with one block of text: where it stands,
how high and how wide it is, by which of its nine points it is attached, and how
it is turned.
-/

namespace Lettering

/-- The horizontal part of an attachment point. -/
inductive HorizontalAnchor where
  | left
  | center
  | right
deriving DecidableEq

def HorizontalAnchor.name : HorizontalAnchor → String
  | .left => "Left"
  | .center => "Center"
  | .right => "Right"

/-- The vertical part of an attachment point. -/
inductive VerticalAnchor where
  | top
  | middle
  | bottom
deriving DecidableEq

def VerticalAnchor.name : VerticalAnchor → String
  | .top => "Top"
  | .middle => "Middle"
  | .bottom => "Bottom"

/-- The point of a block of text that stands on the insertion point. -/
structure Attachment where
  vertical : VerticalAnchor
  horizontal : HorizontalAnchor
deriving DecidableEq

namespace Attachment

/-- The nine points in the order of their codes, from 1. -/
def all : List Attachment :=
  [⟨.top, .left⟩, ⟨.top, .center⟩, ⟨.top, .right⟩,
    ⟨.middle, .left⟩, ⟨.middle, .center⟩, ⟨.middle, .right⟩,
    ⟨.bottom, .left⟩, ⟨.bottom, .center⟩, ⟨.bottom, .right⟩]

def name (a : Attachment) : String := a.vertical.name ++ a.horizontal.name

/-- The code of a point, from 1 to 9 by rows from the top left. -/
def code (a : Attachment) : Nat := all.idxOf a + 1

/-- The point with a code. -/
def ofCode? (code : Nat) : Option Attachment := if code = 0 then none else all[code - 1]?

/-- The paragraph alignment until a command says otherwise. -/
def alignment (a : Attachment) : HorizontalAlignment :=
  match a.horizontal with
  | .left => .left
  | .center => .center
  | .right => .right

end Attachment

/-- The direction in which lines follow each other. -/
inductive Flow where
  | leftToRight
  | topToBottom
  | bottomToTop
  /-- As the text style says, which is downwards. -/
  | byStyle
deriving DecidableEq

namespace Flow

def all : List Flow := [.leftToRight, .topToBottom, .bottomToTop, .byStyle]

def name : Flow → String
  | .leftToRight => "left_to_right"
  | .topToBottom => "top_to_bottom"
  | .bottomToTop => "bottom_to_top"
  | .byStyle => "by_style"

/-- Whether each line stands above the one before. -/
def isUpward : Flow → Bool
  | .bottomToTop => true
  | _ => false

/-- The sign of the step from one baseline to the next. -/
def sign {α : Type} [Scalar α] (f : Flow) : α := if f.isUpward then 1 else -1

end Flow

/-- The parameters of one block of text. -/
structure Entity (α : Type) where
  /-- The insertion point, in drawing coordinates. -/
  insertion : Point α
  /-- The nominal text height. -/
  height : α
  /-- The reference width; lines wrap at it if it is above zero. -/
  width : α
  attachment : Attachment
  flow : Flow
  /-- The rotation in radians, counter-clockwise. -/
  rotation : α
  /-- The direction of the text, which takes the place of the rotation. -/
  direction : Option (Point α)
  /-- The factor on the leading. -/
  lineSpaceFactor : α
  /-- The font; blank for the default font. -/
  font : String
  widthFactor : α
  /-- The oblique angle in degrees. -/
  oblique : α
  color : ColorRequest
deriving DecidableEq

namespace Entity

variable {α : Type} [Scalar α]

/-- The entity whose drawing says nothing. -/
def standard : Entity α where
  insertion := .origin
  height := 1
  width := 0
  attachment := ⟨.top, .left⟩
  flow := .leftToRight
  rotation := 0
  direction := none
  lineSpaceFactor := 1
  font := ""
  widthFactor := 1
  oblique := 0
  color := .index 256

/-- The angle of the text in radians: that of the direction, unless it is absent
or the null vector. -/
def angle (e : Entity α) : α :=
  match e.direction with
  | some d => if d.x != 0 || d.y != 0 then Scalar.atan2 d.y d.x else e.rotation
  | none => e.rotation

/-- Whether lines wrap. -/
def wraps (e : Entity α) : Bool := 0 < e.width

end Entity

end Lettering
