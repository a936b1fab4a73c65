import Lettering.Proofs.Content

/-!
# What moving leaves alone

A run is shifted up when its line closes, and sideways when its line is aligned.  Its *makeup* is
all that no shift changes: color, size, alignment and width, the characters, kinds and advances
of its glyphs, and the kinds and colors of its decorations.  A *sketch* of a line keeps the
makeups of its runs and whether the line opens a paragraph.

`Job.layout_sketches` reads the sketches of a layout off the pass at the end of the stream, so
that a statement about which runs stand on which lines needs no arithmetic: it follows from
`Pass.place_of_needsBreak`, `Pass.place_of_fits` and `Pass.breakParagraph_sketches`.
-/

namespace Lettering

/-- What no shift changes of a run. -/
structure Makeup (α : Type) where
  color : Rgb
  size : α
  charAlignment : VerticalAlignment
  width : α
  glyphs : List (Char × FontKind × α)
  decorations : List (DecorationKind × Rgb)
deriving DecidableEq

/-- What no shift changes of a line. -/
structure Sketch (α : Type) where
  startsParagraph : Bool
  runs : List (Makeup α)
deriving DecidableEq

variable {α : Type}

/-- The character, kind and advance of a glyph. -/
def PlacedGlyph.makeup (g : PlacedGlyph α) : Char × FontKind × α := (g.char, g.kind, g.advance)

/-- The kind and color of a decoration. -/
def Decoration.makeup (d : Decoration α) : DecorationKind × Rgb := (d.kind, d.color)

def Run.makeup (r : Run α) : Makeup α where
  color := r.color
  size := r.size
  charAlignment := r.charAlignment
  width := r.width
  glyphs := r.glyphs.map PlacedGlyph.makeup
  decorations := r.decorations.map Decoration.makeup

def Line.sketch (l : Line α) : Sketch α := ⟨l.startsParagraph, l.runs.map Run.makeup⟩

/-- The sketch of the open line. -/
def Cursor.sketch (c : Cursor α) : Sketch α := ⟨c.startsParagraph, c.runs.map Run.makeup⟩

/-- The sketches of the closed lines and of the open line. -/
def Pass.sketches (p : Pass α) : List (Sketch α) := p.lines.map Line.sketch ++ [p.cursor.sketch]

/-- The sketch with one more run at its end. -/
def Sketch.push (s : Sketch α) (m : Makeup α) : Sketch α := { s with runs := s.runs ++ [m] }

theorem Pass.SameLines.sketches {p q : Pass α} (same : p.SameLines q) :
    q.sketches = p.sketches := by
  rw [Pass.sketches, Pass.sketches, same.lines, Cursor.sketch, Cursor.sketch, same.runs,
    same.startsParagraph]

theorem Block.mem_runs {b : Block α} {r : Run α} : r ∈ b.runs ↔ ∃ l ∈ b.lines, r ∈ l.runs := by
  simp only [Block.runs, List.mem_flatten, List.mem_map, exists_exists_and_eq_and]

/-- Every run of a pass, on a closed line or on the open one, has a property. -/
structure Pass.AllRuns (P : Run α → Prop) (p : Pass α) : Prop where
  closed : ∀ l ∈ p.lines, ∀ r ∈ l.runs, P r
  pending : ∀ r ∈ p.cursor.runs, P r

theorem Pass.AllRuns.of_sameLines {P : Run α → Prop} {p q : Pass α} (now : p.AllRuns P)
    (same : p.SameLines q) : q.AllRuns P :=
  ⟨by rw [same.lines]; exact now.closed, by rw [same.runs]; exact now.pending⟩

variable [Scalar α]

/-! ## Shifts -/

@[simp] theorem Run.makeup_shift (r : Run α) (dx dy : α) : (r.shift dx dy).makeup = r.makeup := by
  simp only [Run.makeup, Run.shift, List.map_map]
  congr 1

theorem shifts_makeups (runs : List (Run α)) (dx dy : Run α → α) :
    (runs.map fun r => r.shift (dx r) (dy r)).map Run.makeup = runs.map Run.makeup := by
  rw [List.map_map]
  exact List.map_congr_left fun r _ => r.makeup_shift _ _

theorem spreadFrom_makeups (gap pen : α) (runs : List (Run α)) :
    (spreadFrom gap pen runs).map Run.makeup = runs.map Run.makeup := by
  induction runs generalizing pen with
  | nil => rfl
  | cons r rest ih => rw [spreadFrom, List.map_cons, List.map_cons, ih, Run.makeup_shift]

theorem spread_makeups (start width : α) (runs : List (Run α)) :
    (spread start width runs).map Run.makeup = runs.map Run.makeup := by
  unfold spread
  dsimp only
  split
  · rfl
  · exact spreadFrom_makeups _ _ _

theorem Line.spreadRuns_makeups (l : Line α) (alignment : HorizontalAlignment) (frame : Frame α) :
    (l.spreadRuns alignment frame).map Run.makeup = l.runs.map Run.makeup := by
  unfold Line.spreadRuns
  split
  · exact spread_makeups _ _ _
  · rfl

@[simp] theorem Line.sketch_refreshBounds (l : Line α) : l.refreshBounds.sketch = l.sketch := rfl

theorem Line.sketch_align (l : Line α) (alignment : HorizontalAlignment) (frame : Frame α) :
    (l.align alignment frame).sketch = l.sketch := by
  unfold Line.align
  split
  · rfl
  · dsimp only
    rw [Line.sketch_refreshBounds, Line.sketch, Line.sketch]
    split
    · rw [shifts_makeups, Line.spreadRuns_makeups]
    · rw [Line.spreadRuns_makeups]

/-- Closing a line and aligning it leaves its sketch as it was while the line was open. -/
theorem Pass.sketch_closedLine (job : Job α) (p : Pass α) :
    (p.closedLine job).sketch = p.cursor.sketch := by
  rw [Pass.closedLine, Line.sketch_align, Cursor.line, Line.sketch_refreshBounds, Line.sketch,
    shifts_makeups, Cursor.sketch]

/-! ## The makeup of content -/

theorem placeRow_glyphs (baseline pen : α) (glyphs : List (ShapedGlyph α)) :
    (placeRow baseline pen glyphs).map StackGlyph.glyph = glyphs := by
  induction glyphs generalizing pen with
  | nil => rfl
  | cons g rest ih => rw [placeRow, List.map_cons, ih]

/-- The glyph of a stack at its place. -/
def StackGlyph.placed (g : StackGlyph α) : PlacedGlyph α := g.glyph.placedAt g.origin

/-- The glyphs of a word make a row at baseline zero. -/
theorem placeGlyphs_eq_placeRow (pen : α) (glyphs : List (ShapedGlyph α)) :
    placeGlyphs pen glyphs = (placeRow 0 pen glyphs).map StackGlyph.placed := by
  induction glyphs generalizing pen with
  | nil => rfl
  | cons g rest ih => rw [placeGlyphs, ih, placeRow, List.map_cons, StackGlyph.placed]

theorem placeGlyphs_makeups (pen : α) (glyphs : List (ShapedGlyph α)) :
    (placeGlyphs pen glyphs).map PlacedGlyph.makeup =
      glyphs.map fun g => (g.char, g.kind, g.advance) := by
  conv_rhs => rw [← placeRow_glyphs 0 pen glyphs, List.map_map]
  rw [placeGlyphs_eq_placeRow, List.map_map]
  rfl

/-- Each glyph of a word is one of its shaped glyphs at some place. -/
theorem exists_placedAt {pen : α} {glyphs : List (ShapedGlyph α)} {g : PlacedGlyph α}
    (member : g ∈ placeGlyphs pen glyphs) :
    ∃ shaped ∈ glyphs, ∃ origin, g = shaped.placedAt origin := by
  rw [placeGlyphs_eq_placeRow] at member
  obtain ⟨placed, inRow, rfl⟩ := List.mem_map.mp member
  have shaped : placed.glyph ∈ (placeRow 0 pen glyphs).map StackGlyph.glyph :=
    List.mem_map_of_mem inRow
  rw [placeRow_glyphs] at shaped
  exact ⟨placed.glyph, shaped, placed.origin, rfl⟩

theorem Style.decorate_makeups (s : Style α) (origin : Point α) (advance : α) :
    (s.decorate origin advance).map Decoration.makeup = s.decorations.map (·, s.color) := by
  rw [Style.decorate, List.map_map]
  rfl

/-- The makeup of content in a style. -/
def Resources.contentMakeup (r : Resources α) (style : Style α) (c : Content) : Makeup α :=
  (r.contentRun style c 0).makeup

/-- The makeup of content does not depend on where its run starts. -/
theorem Resources.makeup_contentRun (r : Resources α) (style : Style α) (c : Content) (pen : α) :
    (r.contentRun style c pen).makeup = r.contentMakeup style c := by
  cases c with
  | word text =>
    have decorations (glyphs : List (ShapedGlyph α)) (pen : α) :
        ((placeGlyphs pen glyphs).flatMap fun g => style.decorate g.origin g.advance).map
          Decoration.makeup = glyphs.flatMap fun _ => style.decorations.map (·, style.color) := by
      induction glyphs generalizing pen with
      | nil => rfl
      | cons g rest ih =>
        rw [placeGlyphs, List.flatMap_cons, List.map_append, ih, Style.decorate_makeups,
          List.flatMap_cons]
    simp only [Resources.contentMakeup, Resources.contentRun, wordRun, Run.makeup,
      placeGlyphs_makeups, decorations]
  | stack e =>
    simp only [Resources.contentMakeup, Resources.contentRun, stackRun, Run.makeup, List.map_map,
      List.map_append, Style.decorate_makeups]
    congr 2
    cases (r.layoutStack style e).divider <;> rfl

theorem Resources.color_contentMakeup (r : Resources α) (style : Style α) (c : Content) :
    (r.contentMakeup style c).color = style.color := by
  cases c <;> rfl

/-! ## Steps -/

variable {job : Job α} {p : Pass α} {c : Content}

/-- Closing the open line opens one without runs. -/
theorem Pass.breakLine_lines (job : Job α) (startsParagraph : Bool) (p : Pass α) :
    (p.breakLine job startsParagraph).lines.map Line.sketch = p.sketches := by
  rw [Pass.sketches, ← p.sketch_closedLine job, ← List.map_singleton, ← List.map_append]
  rfl

theorem Pass.breakParagraph_sketches (job : Job α) (p : Pass α) :
    (p.breakParagraph job).sketches = p.sketches ++ [⟨true, []⟩] := by
  rw [← Pass.breakLine_lines job true p]
  rfl

theorem Cursor.sketch_recordSize (c : Cursor α) (size : α) :
    (c.recordSize size).sketch = c.sketch := by
  unfold Cursor.recordSize
  split <;> rfl

/-- Emitting a run adds its makeup to the open line. -/
theorem Pass.sketch_emit (run : Run α) (dx : α) (phase : Phase) (p : Pass α) :
    (p.emit run dx phase).cursor.sketch = p.cursor.sketch.push run.makeup := by
  have pushed (c : Cursor α) : ((c.push run).move dx).sketch = c.sketch.push run.makeup := by
    rw [Sketch.push, Cursor.sketch, Cursor.sketch, ← List.map_singleton, ← List.map_append]
    rfl
  rw [← p.cursor.sketch_recordSize run.size, ← pushed]
  rfl

/-- Content that has to go to a new line is the first on it, and the line opens no paragraph. -/
theorem Pass.place_of_needsBreak
    (breaks : p.needsBreak job (job.contentWidth p.style c) = true) :
    (p.place job c).lines.map Line.sketch = p.sketches ∧
      (p.place job c).cursor.sketch = ⟨false, [job.contentMakeup p.style c]⟩ := by
  constructor
  · show (p.ready job c).lines.map Line.sketch = _
    rw [Pass.ready_of_needsBreak breaks, Pass.breakLine_lines]
    rfl
  · rw [Pass.place, Pass.sketch_emit, Resources.makeup_contentRun, Pass.ready_of_needsBreak breaks]
    rfl

/-- Content that fits is the last on the open line. -/
theorem Pass.place_of_fits (fits : p.needsBreak job (job.contentWidth p.style c) = false) :
    (p.place job c).lines.map Line.sketch = p.lines.map Line.sketch ∧
      (p.place job c).cursor.sketch = p.cursor.sketch.push (job.contentMakeup p.style c) := by
  have same : p.SameLines (p.ready job c) := by
    obtain ⟨lines, height, cursor⟩ := Pass.SameLines.beginContent p
    rw [Pass.ready_of_fits fits]
    exact ⟨lines, height, cursor⟩
  constructor
  · rw [Pass.lines_place_of_fits fits]
  · rw [Pass.place, Pass.sketch_emit, Resources.makeup_contentRun, Cursor.sketch, same.runs,
      same.startsParagraph, ← Cursor.sketch]

/-! ## Whole layouts -/

theorem Job.layout_lines (job : Job α) (tokens : List (Token α)) :
    (job.layout tokens).lines =
      ((job.passAfter tokens).flush job).lines.map Line.refreshBounds := rfl

/-- A layout has the lines of the pass after its stream, the open one only if it has a run. -/
theorem Job.layout_sketches (job : Job α) (tokens : List (Token α)) :
    (job.layout tokens).lines.map Line.sketch =
      if (job.passAfter tokens).cursor.isLineEmpty then
        (job.passAfter tokens).lines.map Line.sketch
      else (job.passAfter tokens).sketches := by
  have refreshed : Line.sketch ∘ Line.refreshBounds = (Line.sketch : Line α → Sketch α) :=
    funext Line.sketch_refreshBounds
  rw [Job.layout_lines, List.map_map, refreshed, Pass.flush]
  split
  · rfl
  · exact Pass.breakLine_lines job false _

/-! ## Properties that moving keeps -/

section AllRuns

variable {P : Run α → Prop} {tokens : List (Token α)}

theorem spreadFrom_all (kept : ∀ r dx dy, P r → P (r.shift dx dy)) (gap pen : α)
    {runs : List (Run α)} (all : ∀ r ∈ runs, P r) : ∀ r ∈ spreadFrom gap pen runs, P r := by
  induction runs generalizing pen with
  | nil => exact all
  | cons r rest ih =>
    obtain ⟨first, others⟩ := List.forall_mem_cons.mp all
    exact List.forall_mem_cons.mpr ⟨kept _ _ _ first, ih _ others⟩

theorem Line.spreadRuns_all (kept : ∀ r dx dy, P r → P (r.shift dx dy)) {l : Line α}
    (all : ∀ r ∈ l.runs, P r) (alignment : HorizontalAlignment) (frame : Frame α) :
    ∀ r ∈ l.spreadRuns alignment frame, P r := by
  unfold Line.spreadRuns
  split
  · unfold spread
    dsimp only
    split
    · exact all
    · exact spreadFrom_all kept _ _ all
  · exact all

theorem Line.align_all (kept : ∀ r dx dy, P r → P (r.shift dx dy)) {l : Line α}
    (all : ∀ r ∈ l.runs, P r) (alignment : HorizontalAlignment) (frame : Frame α) :
    ∀ r ∈ (l.align alignment frame).runs, P r := by
  have spread := l.spreadRuns_all kept all alignment frame
  unfold Line.align
  split
  · exact all
  · dsimp only [Line.refreshBounds]
    split
    · exact List.forall_mem_map.mpr fun r member => kept r _ _ (spread r member)
    · exact spread

/-- Closing a line moves its runs up and then sideways, and does nothing else to them. -/
theorem Pass.AllRuns.breakLine (kept : ∀ r dx dy, P r → P (r.shift dx dy)) (now : p.AllRuns P)
    (job : Job α) (startsParagraph : Bool) : (p.breakLine job startsParagraph).AllRuns P := by
  have raised : ∀ r ∈ (p.cursor.line job.leading p.style.effectiveSize).runs, P r :=
    List.forall_mem_map.mpr fun r member => kept r _ _ (now.pending r member)
  refine ⟨?_, fun r member => nomatch member⟩
  exact List.forall_mem_append.mpr
    ⟨now.closed, List.forall_mem_singleton.mpr (Line.align_all kept raised _ _)⟩

theorem Pass.AllRuns.place (kept : ∀ r dx dy, P r → P (r.shift dx dy)) (now : p.AllRuns P)
    (content : ∀ pen, P (job.contentRun p.style c pen)) : (p.place job c).AllRuns P := by
  have ready : (p.ready job c).AllRuns P := by
    cases breaks : p.needsBreak job (job.contentWidth p.style c) with
    | true =>
      have reported : (p.report (job.contentIncidents p.style c)).AllRuns P :=
        ⟨now.closed, now.pending⟩
      rw [Pass.ready_of_needsBreak breaks]
      exact reported.breakLine kept job false
    | false =>
      have begun := now.of_sameLines (Pass.SameLines.beginContent p)
      rw [Pass.ready_of_fits breaks]
      exact ⟨begun.closed, begun.pending⟩
  refine ⟨ready.closed, ?_⟩
  rw [Pass.runs_place]
  exact List.forall_mem_append.mpr
    ⟨ready.pending, List.forall_mem_singleton.mpr (content _)⟩

theorem Job.passAfter_allRuns (job : Job α) (kept : ∀ r dx dy, P r → P (r.shift dx dy))
    (content : ∀ before c pen, P (job.contentRun (job.passAfter before).style c pen))
    (tokens : List (Token α)) : (job.passAfter tokens).AllRuns P := by
  induction tokens using Job.passAfter_rec with
  | start => exact ⟨fun _ member => (nomatch member), fun _ member => nomatch member⟩
  | content tokens t c ih found => exact ih.place kept (content tokens c)
  | paragraphBreak tokens ih =>
    have closed := ih.breakLine kept job true
    exact ⟨closed.closed, closed.pending⟩
  | quiet tokens t ih quiet => exact ih.of_sameLines (Pass.SameLines.step_quiet quiet)

/-- What holds of the run of all content in the styles of a pass, and is kept when a run is moved,
holds of every run of a layout. -/
theorem Job.runs_all (job : Job α) (kept : ∀ r dx dy, P r → P (r.shift dx dy))
    (content : ∀ before c pen, P (job.contentRun (job.passAfter before).style c pen))
    (tokens : List (Token α)) : ∀ r ∈ (job.layout tokens).runs, P r := by
  have after := job.passAfter_allRuns kept content tokens
  have flushed : ((job.passAfter tokens).flush job).AllRuns P := by
    unfold Pass.flush
    split
    · exact after
    · exact after.breakLine kept job false
  intro r member
  obtain ⟨l, inLayout, inLine⟩ := Block.mem_runs.mp member
  rw [Job.layout_lines] at inLayout
  obtain ⟨closed, inPass, rfl⟩ := List.mem_map.mp inLayout
  exact flushed.closed closed inPass r inLine

end AllRuns

end Lettering
