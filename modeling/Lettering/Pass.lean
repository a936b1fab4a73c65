import Lettering.Block
import Lettering.Formatting
import Lettering.Line.Alignment
import Lettering.Line.Cursor
import Lettering.Stack

/-!
# Layout

A pass reads a token stream once.  Words and stacks are shaped whole before they
reach the line, and the only place where a line may break is before a word or a
stack that arrives at a word boundary: after a space, a tab or a stack.  So words
that formatting commands or non-breaking spaces join stay on one line, and no
word is ever split.

`Pass.step` is what one token does, `Job.layout` the whole pass.
-/

namespace Lettering

/-- Where a pass stands between two tokens. -/
inductive Phase where
  /-- Within a word; the next word continues it. -/
  | inLine
  /-- After a blank; the next word may open a line. -/
  | atWordBoundary
  /-- At the start of a paragraph; the next content gets the indent. -/
  | atParagraphBreak
deriving DecidableEq

namespace Phase

def all : List Phase := [.inLine, .atWordBoundary, .atParagraphBreak]

def name : Phase → String
  | .inLine => "InLine"
  | .atWordBoundary => "AtWordBoundary"
  | .atParagraphBreak => "AtParagraphBreak"

end Phase

/-- A pass between two tokens. -/
structure Pass (α : Type) where
  formatting : Formatting α
  cursor : Cursor α
  phase : Phase
  /-- The closed lines, in order. -/
  lines : List (Line α)
  /-- The sum of their advances. -/
  height : α

variable {α : Type} [Scalar α]

/-- The decorations that a style asks for, in the order in which they are drawn. -/
def Style.decorations (s : Style α) : List DecorationKind :=
  [(s.underline, .underline), (s.overline, .overline),
    (s.strikeThrough, .strikeThrough)].filterMap fun (on, kind) => if on then some kind else none

/-- The decorations of something as wide as `advance` that stands at `origin`. -/
def Style.decorate (s : Style α) (origin : Point α) (advance : α) : List (Decoration α) :=
  s.decorations.map fun kind => .along kind origin s.effectiveSize advance s.color

/-- The glyphs of a word from a pen on. -/
def placeGlyphs : α → List (ShapedGlyph α) → List (PlacedGlyph α)
  | _, [] => []
  | pen, g :: rest => g.placedAt ⟨pen, 0⟩ :: placeGlyphs (pen + g.advance) rest

/-- The run of a word. -/
def wordRun (style : Style α) (glyphs : List (ShapedGlyph α)) (startX : α) : Run α :=
  let placed := placeGlyphs startX glyphs
  { color := style.color
    size := style.effectiveSize
    charAlignment := style.charAlignment
    startX := startX
    width := totalAdvance glyphs
    glyphs := placed
    decorations := placed.flatMap fun g => style.decorate g.origin g.advance }

/-- The run of a stack. -/
def stackRun (style : Style α) (stack : StackLayout α) (startX : α) : Run α :=
  { color := style.color
    size := stack.height
    charAlignment := style.charAlignment
    startX := startX
    width := stack.width
    glyphs := stack.glyphs.map fun g => g.glyph.placedAt (g.origin.shift startX 0)
    decorations :=
      (stack.divider.map fun ends =>
        ⟨.stackDivider, ends.1.shift startX 0, ends.2.shift startX 0, style.color⟩).toList ++
          style.decorate ⟨startX, 0⟩ stack.width }

/-- The leading of the lines of a job. -/
def Job.leading (job : Job α) : Leading α :=
  ⟨job.entity.lineSpaceFactor, job.settings.spacingConstant, job.entity.flow⟩

namespace Pass

/-- The pass before the first token. -/
def start (job : Job α) : Pass α := ⟨job.baseFormatting, .start, .atParagraphBreak, [], 0⟩

/-- The style in force. -/
def style (p : Pass α) : Style α := p.formatting.style

/-- The paragraph in force. -/
def paragraph (p : Pass α) : Paragraph α := p.formatting.paragraph

/-- The space in which a line is aligned. -/
def frame (job : Job α) (p : Pass α) : Frame α where
  leftMargin := p.paragraph.leftMargin
  indent := if p.cursor.startsParagraph then p.paragraph.indent else 0
  usable := p.paragraph.usableWidth job.entity.width

/-- The open line as it is when it closes, aligned. -/
def closedLine (job : Job α) (p : Pass α) : Line α :=
  (p.cursor.line job.leading p.style.effectiveSize).align p.paragraph.alignment (p.frame job)

/-- Closes the open line. -/
def breakLine (job : Job α) (startsParagraph : Bool) (p : Pass α) : Pass α :=
  let line := p.closedLine job
  { p with
    cursor := p.cursor.next job.leading p.style.effectiveSize startsParagraph
    lines := p.lines ++ [line]
    height := p.height + line.advance }

/-- Closes the open line and starts a paragraph. -/
def breakParagraph (job : Job α) (p : Pass α) : Pass α :=
  let p := p.breakLine job true
  { p with
    formatting := { p.formatting with paragraph := .plain job.entity.attachment.alignment }
    phase := .atParagraphBreak }

/-- Puts the pen at the indent if content opens a paragraph. -/
def beginContent (p : Pass α) : Pass α :=
  if p.phase = .atParagraphBreak ∧ p.cursor.isLineEmpty then
    { p with cursor := { p.cursor with pen := p.paragraph.indent } }
  else p

/-- Whether something of a width has to go to a new line: it stands at a word
boundary, the line has a run, lines wrap, and the width does not fit. -/
def needsBreak (job : Job α) (width : α) (p : Pass α) : Bool :=
  p.phase = .atWordBoundary && !p.cursor.isLineEmpty &&
    match p.paragraph.usableWidth job.entity.width with
    | some usable => usable < p.cursor.pen + width
    | none => false

/-- Closes the open line if something of a width has to go to a new one. -/
def wrap (job : Job α) (width : α) (p : Pass α) : Pass α :=
  if p.needsBreak job width then p.breakLine job false else p

/-- Where on the plane the pen stands. -/
def penX (p : Pass α) : α := p.paragraph.leftMargin + p.cursor.pen

/-- Adds incidents. -/
def report (incidents : List Incident) (p : Pass α) : Pass α :=
  { p with formatting := p.formatting.report incidents }

/-- Puts a run that counts with its own size on the open line, moves the pen and
leaves the pass in a phase. -/
def emit (run : Run α) (dx : α) (phase : Phase) (p : Pass α) : Pass α :=
  { p with cursor := ((p.cursor.recordSize run.size).push run).move dx, phase := phase }

/-- Lays out a word; one without characters leaves no trace. -/
def addWord (job : Job α) (text : WordText) (p : Pass α) : Pass α :=
  if text.isEmpty then p
  else
    let glyphs := job.shapeText p.style text.chars
    let width := totalAdvance glyphs
    let q := (p.beginContent.report (job.shapingIncidents p.style text.chars)).wrap job width
    q.emit (wordRun p.style glyphs q.penX) width .inLine

/-- Moves the pen by a blank. -/
def addBlank (phase : Phase) (p : Pass α) : Pass α :=
  let q := p.beginContent
  { q with cursor := q.cursor.move (p.style.blankWidth * p.style.wordSpace), phase := phase }

/-- Where a tab takes a pen: to the next tab stop, past the last one to the next
multiple of the default distance. -/
def tabTarget (job : Job α) (p : Pass α) (pen : α) : α :=
  let step := job.settings.tabSize * p.style.blankWidth
  match p.paragraph.nextTab pen with
  | some stop => stop
  | none => if 0 < step then (Scalar.floor (pen / step) + 1) * step else pen

/-- Moves the pen to where a tab takes it. -/
def addTab (job : Job α) (p : Pass α) : Pass α :=
  let q := p.beginContent
  { q with
    cursor := { q.cursor with pen := q.tabTarget job q.cursor.pen }
    phase := .atWordBoundary }

/-- Lays out a stack; a blank follows it. -/
def addStack (job : Job α) (e : StackText) (p : Pass α) : Pass α :=
  let stack := job.layoutStack p.style e
  let q := (p.beginContent.report (job.stackIncidents p.style e)).wrap job stack.width
  q.emit (stackRun p.style stack q.penX) (stack.width + p.style.blankWidth) .atWordBoundary

/-- What one token does. -/
def step (job : Job α) (p : Pass α) : Token α → Pass α
  | .word text => p.addWord job text
  | .space => p.addBlank .atWordBoundary
  | .nonBreakingSpace => p.addBlank .inLine
  | .tab => p.addTab job
  | .paragraphBreak => p.breakParagraph job
  | .stack e => p.addStack job e
  | .format command => { p with formatting := job.apply p.formatting command }

/-- The pass after a token stream. -/
def run (job : Job α) (p : Pass α) (tokens : List (Token α)) : Pass α := tokens.foldl (step job) p

/-- Closes the open line if it has a run. -/
def flush (job : Job α) (p : Pass α) : Pass α :=
  if p.cursor.isLineEmpty then p else p.breakLine job false

/-- The block of a pass whose last line is closed. -/
def block (p : Pass α) : Block α :=
  Block.refreshBounds ⟨p.height, p.lines, .empty, .ofIncidents p.formatting.incidents⟩

end Pass

/-- Lays out a token stream, with the origin at the top left of the first line, or
at its bottom left where lines follow each other upwards. -/
def Job.layout (job : Job α) (tokens : List (Token α)) : Block α :=
  (((Pass.start job).run job tokens).flush job).block

end Lettering
