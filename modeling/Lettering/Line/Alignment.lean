import Lettering.Line

/-!
# Line alignment

A finished line is moved between the margins.  Where lines do not wrap, the space
between the margins is taken as a box of width zero at the left margin.  A
distributed line has its runs spread until they fill the space, unless it has one
run only or fills the space already.
-/

namespace Lettering

/-- The space that a line is aligned in. -/
structure Frame (α : Type) where
  leftMargin : α
  /-- The offset of the start of the line from the left margin. -/
  indent : α
  /-- The width between the margins, `none` where lines do not wrap. -/
  usable : Option α

variable {α : Type} [Scalar α]

/-- Where the content of the line starts. -/
def Frame.start (f : Frame α) : α := f.leftMargin + f.indent

/-- How far a line that ends at `stop` moves. -/
def Frame.offset (f : Frame α) (alignment : HorizontalAlignment) (stop : α) : α :=
  match alignment, f.usable with
  | .left, _ => 0
  | .center, some usable => f.leftMargin + Scalar.half usable - Scalar.half (f.start + stop)
  | .center, none => f.leftMargin - Scalar.half (f.start + stop)
  | .right, some usable => f.leftMargin + usable - stop
  | .right, none => f.leftMargin - stop
  | .distributed, _ => 0

/-- Runs placed one after another from a pen on, `gap` apart. -/
def spreadFrom (gap : α) : α → List (Run α) → List (Run α)
  | _, [] => []
  | pen, r :: rest => r.shift (pen - r.startX) 0 :: spreadFrom gap (pen + (r.width + gap)) rest

/-- Runs spread over a width from `start` on, if there are two at least and they do
not reach the width. -/
def spread (start width : α) (runs : List (Run α)) : List (Run α) :=
  let content := Scalar.sum (runs.map (·.width))
  if runs.length < 2 ∨ width ≤ content then runs
  else spreadFrom ((width - content) / Scalar.ofInt (runs.length - 1)) start runs

namespace Line

/-- The greatest end of a run, `none` for a line without runs. -/
def contentEnd (l : Line α) : Option α :=
  match l.runs with
  | [] => none
  | r :: rest => some (rest.foldl (fun stop r => Scalar.greater stop r.endX) r.endX)

/-- The runs of a line with the spaces that distributed alignment asks for. -/
def spreadRuns (l : Line α) (alignment : HorizontalAlignment) (frame : Frame α) : List (Run α) :=
  match alignment, frame.usable with
  | .distributed, some usable => spread frame.start (usable - frame.indent) l.runs
  | _, _ => l.runs

/-- The line aligned in a frame; a line without runs stays as it is. -/
def align (l : Line α) (alignment : HorizontalAlignment) (frame : Frame α) : Line α :=
  match l.contentEnd with
  | none => l
  | some stop =>
    let dx := frame.offset alignment stop
    let runs := l.spreadRuns alignment frame
    refreshBounds { l with runs := if dx != 0 then runs.map fun r => r.shift dx 0 else runs }

end Line

end Lettering
