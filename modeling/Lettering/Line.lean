import Lettering.Run

/-!
# Lines

A line holds its runs from left to right, where it stands, and what it adds to the
height of the block.  `refreshBounds` computes the box around the runs anew; every
function that moves runs ends with it.
-/

namespace Lettering

/-- A finished line. -/
structure Line (α : Type) where
  /-- The ordinate of the baseline. -/
  baseline : α
  /-- What the line adds to the height of the block. -/
  advance : α
  /-- The largest nominal size on the line. -/
  maxSize : α
  /-- Whether the line opens a paragraph, and so got the indent. -/
  startsParagraph : Bool
  runs : List (Run α)
  /-- The box around all runs. -/
  bounds : Box α
deriving DecidableEq

namespace Line

variable {α : Type} [Scalar α]

/-- The line with its box computed anew. -/
def refreshBounds (l : Line α) : Line α := { l with bounds := .unions (l.runs.map Run.bounds) }

/-- The characters drawn on the line. -/
def text (l : Line α) : String :=
  String.ofList (l.runs.map fun r => r.glyphs.map (·.char)).flatten

end Line

end Lettering
