import Lettering.Diagnostics
import Lettering.Line

/-!
# Blocks

A block is a whole text laid out: its lines, the box around them, and what was
met on the way.  A renderer walks the lines, or takes the geometry in batches
that each need one way of drawing and one color.
-/

namespace Lettering

/-- A text laid out. -/
structure Block (α : Type) where
  /-- The sum of the advances of the lines. -/
  height : α
  lines : List (Line α)
  /-- The box around all lines. -/
  bounds : Box α
  diagnostics : Diagnostics
deriving DecidableEq

/-- Contours that are drawn alike. -/
structure Batch (α : Type) where
  /-- Whether contours are areas or lines. -/
  kind : FontKind
  color : Rgb
  contours : List (List (Point α))
deriving DecidableEq

namespace Batch

variable {α : Type}

/-- Whether two batches are drawn alike. -/
def alike (b c : Batch α) : Bool := b.kind = c.kind && b.color = c.color

/-- Joins neighbors that are drawn alike. -/
def merge : List (Batch α) → List (Batch α)
  | [] => []
  | b :: rest =>
    match merge rest with
    | [] => [b]
    | c :: more =>
      if b.alike c then { c with contours := b.contours ++ c.contours } :: more
      else b :: c :: more

end Batch

/-- What the glyphs and decorations of a run draw, one batch each; a glyph
without a point draws nothing. -/
def Run.batches {α : Type} (r : Run α) : List (Batch α) :=
  let inked := r.glyphs.filter fun g => !g.outline.isEmpty
  inked.map (fun g => ⟨g.kind, r.color, g.outline.contours⟩) ++
    r.decorations.map fun d => ⟨.stroke, d.color, [[d.start, d.stop]]⟩

namespace Block

variable {α : Type} [Scalar α]

/-- The runs of all lines, in order. -/
def runs (b : Block α) : List (Run α) := (b.lines.map (·.runs)).flatten

/-- The decorations of all runs, in order. -/
def decorations (b : Block α) : List (Decoration α) := (b.runs.map (·.decorations)).flatten

def glyphCount (b : Block α) : Nat := b.runs.foldl (fun sum r => sum + r.glyphs.length) 0

/-- The block with the boxes of its lines and its own computed anew. -/
def refreshBounds (b : Block α) : Block α :=
  let lines := b.lines.map Line.refreshBounds
  { b with lines := lines, bounds := .unions (lines.map (·.bounds)) }

/-- The block with its geometry under an affine map.  Baselines and the places of
runs on their lines stay as they are. -/
def image (b : Block α) (t : Affine α) : Block α :=
  refreshBounds
    { b with lines := b.lines.map fun l => { l with runs := l.runs.map fun r => r.image t } }

/-- The geometry of the block in batches, neighbors that are drawn alike joined. -/
def batches (b : Block α) : List (Batch α) := Batch.merge (b.runs.map Run.batches).flatten

end Block

end Lettering
