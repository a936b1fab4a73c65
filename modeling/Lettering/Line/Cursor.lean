import Lettering.Entity
import Lettering.Line

/-!
# Line cursor

Runs gather on an open line at baseline zero.  When the line closes its height is
known: the baseline moves by the advance of the line, and each run moves to it,
shifted up by what its alignment asks for.  The first line advances by its height
alone, each later line by its height and the leading.
-/

namespace Lettering

/-- The pen, and the open line. -/
structure Cursor (α : Type) where
  /-- The pen, from the left margin. -/
  pen : α
  /-- The baseline of the last closed line. -/
  baseline : α
  /-- How many lines are closed. -/
  lineCount : Nat
  /-- The largest nominal size on the open line, zero if there is none. -/
  maxSize : α
  /-- The runs of the open line. -/
  runs : List (Run α)
  /-- Whether the open line opens a paragraph. -/
  startsParagraph : Bool
deriving DecidableEq

/-- What sets the distance of the lines of one block. -/
structure Leading (α : Type) where
  /-- The entity's factor on the leading. -/
  factor : α
  /-- The leading as a fraction of the size. -/
  constant : α
  flow : Flow

variable {α : Type} [Scalar α]

/-- The advance of the line of an index, whose largest size is `maxSize`, while the
size in force is `current`. -/
def Leading.advance (l : Leading α) (index : Nat) (maxSize current : α) : α :=
  if index = 0 then maxSize else l.factor * current * l.constant + maxSize

/-- How far a run of a size moves up on a line of a greater size. -/
def VerticalAlignment.rise (a : VerticalAlignment) (maxSize size : α) : α :=
  match a with
  | .bottom => 0
  | .center => Scalar.half (maxSize - size)
  | .top => maxSize - size

namespace Cursor

/-- The cursor at the start of a block. -/
def start : Cursor α := ⟨0, 0, 0, 0, [], true⟩

/-- Whether the open line has no run. -/
def isLineEmpty (c : Cursor α) : Bool := c.runs.isEmpty

/-- Moves the pen. -/
def move (c : Cursor α) (dx : α) : Cursor α := { c with pen := c.pen + dx }

/-- Counts a size toward the height of the open line. -/
def recordSize (c : Cursor α) (size : α) : Cursor α :=
  if c.maxSize < size then { c with maxSize := size } else c

/-- Adds a run to the open line. -/
def push (c : Cursor α) (run : Run α) : Cursor α := { c with runs := c.runs ++ [run] }

/-- The height of the open line; a line that recorded no size is as high as the
size in force. -/
def lineSize (c : Cursor α) (current : α) : α := if 0 < c.maxSize then c.maxSize else current

/-- The advance of the open line. -/
def lineAdvance (c : Cursor α) (leading : Leading α) (current : α) : α :=
  leading.advance c.lineCount (c.lineSize current) current

/-- The baseline of the open line. -/
def lineBaseline (c : Cursor α) (leading : Leading α) (current : α) : α :=
  if c.lineCount = 0 then if leading.flow.isUpward then 0 else -c.lineSize current
  else c.baseline + leading.flow.sign * c.lineAdvance leading current

/-- The open line as it is when it closes. -/
def line (c : Cursor α) (leading : Leading α) (current : α) : Line α :=
  let maxSize := c.lineSize current
  let baseline := c.lineBaseline leading current
  Line.refreshBounds
    { baseline := baseline
      advance := c.lineAdvance leading current
      maxSize := maxSize
      startsParagraph := c.startsParagraph
      runs := c.runs.map fun r => r.shift 0 (baseline + r.charAlignment.rise maxSize r.size)
      bounds := .empty }

/-- The cursor on the next line. -/
def next (c : Cursor α) (leading : Leading α) (current : α) (startsParagraph : Bool) :
    Cursor α where
  pen := 0
  baseline := c.lineBaseline leading current
  lineCount := c.lineCount + 1
  maxSize := 0
  runs := []
  startsParagraph := startsParagraph

end Cursor

end Lettering
