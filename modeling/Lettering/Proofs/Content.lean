import Lettering.Pass
import Mathlib.Data.List.Induction

/-!
# Content tokens

Words with a character and stacks leave a run on a line; no other token does.  `Content` is
what such a token puts on a line and `Token.content?` reads it off a token.

* `Pass.place` is the one way in which content reaches a line: the line is begun, closed if the
  content has to go to a new one, and the run of the content is emitted.  `Pass.step_content`
  says that a token with content does exactly this.
* A token without content that is no paragraph break is *quiet*: it keeps the lines and the open
  line as they are and moves at most the pen (`Pass.SameLines.step_quiet`).
* `Job.passAfter_rec` is the induction over a stream with these three kinds of step.
-/

namespace Lettering

/-- What a token puts on a line. -/
inductive Content where
  | word (text : WordText)
  | stack (expression : StackText)
deriving DecidableEq

/-- The characters of content, in the order of its glyphs. -/
def Content.chars : Content → List Char
  | .word text => text.chars
  | .stack e => e.chars

/-- Where a pass stands after content. -/
def Content.phase : Content → Phase
  | .word _ => .inLine
  | .stack _ => .atWordBoundary

/-- The content of a token: a word with a character, or a stack. -/
def Token.content? {α : Type} : Token α → Option Content
  | .word text => if text.isEmpty then none else some (.word text)
  | .stack e => some (.stack e)
  | _ => none

/-- Whether a token ends a paragraph. -/
def Token.isParagraphBreak {α : Type} : Token α → Bool
  | .paragraphBreak => true
  | _ => false

/-- A token that leaves no run and ends no paragraph. -/
structure Token.Quiet {α : Type} (t : Token α) : Prop where
  content : t.content? = none
  noBreak : t.isParagraphBreak = false

/-- The contents of a stream, in order. -/
def contentsOf {α : Type} (tokens : List (Token α)) : List Content :=
  tokens.filterMap Token.content?

theorem contentsOf_concat {α : Type} (tokens : List (Token α)) (t : Token α) :
    contentsOf (tokens ++ [t]) = contentsOf tokens ++ t.content?.toList := by
  rw [contentsOf, List.filterMap_append, List.filterMap_cons, List.filterMap_nil]
  cases t.content? <;> rfl

theorem Token.isParagraphBreak_eq_true {α : Type} {t : Token α} :
    t.isParagraphBreak = true ↔ t = .paragraphBreak := by
  cases t <;> simp [Token.isParagraphBreak]

/-- The three kinds of token that a pass tells apart. -/
theorem Token.kinds {α : Type} (t : Token α) :
    (∃ c, t.content? = some c) ∨ t = .paragraphBreak ∨ t.Quiet := by
  cases found : t.content? with
  | some c => exact .inl ⟨c, rfl⟩
  | none =>
    cases ends : t.isParagraphBreak with
    | true => exact .inr (.inl (Token.isParagraphBreak_eq_true.mp ends))
    | false => exact .inr (.inr ⟨found, ends⟩)

theorem Token.content?_word {α : Type} {text : WordText} (inked : text.isEmpty = false) :
    (Token.word text : Token α).content? = some (.word text) :=
  if_neg (by rw [inked]; exact Bool.false_ne_true)

theorem Token.inked_of_content {α : Type} {t : Token α} {text : WordText}
    (found : t.content? = some (.word text)) : text.isEmpty = false := by
  cases t with
  | word other =>
    rw [Token.content?] at found
    split at found
    · cases found
    · next inked =>
      cases found
      exact Bool.eq_false_iff.mpr inked
  | _ => cases found

theorem Token.noBreak_of_content {α : Type} {t : Token α} {c : Content}
    (content : t.content? = some c) : t.isParagraphBreak = false := by
  cases t with
  | paragraphBreak => cases content
  | _ => rfl

variable {α : Type} {p q : Pass α}

theorem Pass.beginContent_of_phase (inside : p.phase ≠ .atParagraphBreak) :
    p.beginContent = p := by
  unfold Pass.beginContent
  exact if_neg fun begins => inside begins.1

theorem Pass.beginContent_of_runs (filled : p.cursor.runs ≠ []) : p.beginContent = p := by
  unfold Pass.beginContent
  exact if_neg fun begins => filled (List.isEmpty_iff.mp begins.2)

theorem Pass.formatting_beginContent (p : Pass α) :
    p.beginContent.formatting = p.formatting := by
  unfold Pass.beginContent
  split <;> rfl

/-! ## Passes with the same lines -/

/-- The lines of `q` are those of `p`, and so is the open line but for the pen. -/
structure Pass.SameLines (p q : Pass α) : Prop where
  lines : q.lines = p.lines
  height : q.height = p.height
  cursor : ∃ pen, q.cursor = { p.cursor with pen := pen }

theorem Pass.SameLines.refl (p : Pass α) : p.SameLines p := ⟨rfl, rfl, p.cursor.pen, rfl⟩

theorem Pass.SameLines.runs (same : p.SameLines q) : q.cursor.runs = p.cursor.runs := by
  obtain ⟨pen, cursor⟩ := same.cursor
  rw [cursor]

theorem Pass.SameLines.startsParagraph (same : p.SameLines q) :
    q.cursor.startsParagraph = p.cursor.startsParagraph := by
  obtain ⟨pen, cursor⟩ := same.cursor
  rw [cursor]

theorem Pass.SameLines.beginContent (p : Pass α) : p.SameLines p.beginContent := by
  unfold Pass.beginContent
  split
  · exact ⟨rfl, rfl, p.paragraph.indent, rfl⟩
  · exact .refl p

/-- Moving the pen after the line is begun, in any phase, keeps the lines. -/
theorem Pass.SameLines.move (pen : α) (phase : Phase) :
    p.SameLines { p.beginContent with
      cursor := { p.beginContent.cursor with pen := pen }, phase := phase } := by
  obtain ⟨lines, height, start, cursor⟩ := Pass.SameLines.beginContent p
  refine ⟨lines, height, pen, ?_⟩
  simp only [cursor]

variable [Scalar α]

/-! ## Content on its way to a line -/

namespace Resources

/-- The run of content in a style, from a pen on. -/
def contentRun (r : Resources α) (style : Style α) : Content → α → Run α
  | .word text, pen => wordRun style (r.shapeText style text.chars) pen
  | .stack e, pen => stackRun style (r.layoutStack style e) pen

/-- The width of content in a style. -/
def contentWidth (r : Resources α) (style : Style α) : Content → α
  | .word text => totalAdvance (r.shapeText style text.chars)
  | .stack e => (r.layoutStack style e).width

/-- How far content moves the pen: a blank follows a stack. -/
def contentAdvance (r : Resources α) (style : Style α) : Content → α
  | .word text => totalAdvance (r.shapeText style text.chars)
  | .stack e => (r.layoutStack style e).width + style.blankWidth

/-- What there is to report about content. -/
def contentIncidents (r : Resources α) (style : Style α) : Content → List Incident
  | .word text => r.shapingIncidents style text.chars
  | .stack e => r.stackIncidents style e

end Resources

@[simp] theorem Resources.startX_contentRun (r : Resources α) (style : Style α) (c : Content)
    (pen : α) : (r.contentRun style c pen).startX = pen := by
  cases c <;> rfl

@[simp] theorem Resources.width_contentRun (r : Resources α) (style : Style α) (c : Content)
    (pen : α) : (r.contentRun style c pen).width = r.contentWidth style c := by
  cases c <;> rfl

variable {job : Job α} {t : Token α} {c : Content}

/-- The pass just before the run of content is emitted. -/
def Pass.ready (job : Job α) (c : Content) (p : Pass α) : Pass α :=
  (p.beginContent.report (job.contentIncidents p.style c)).wrap job (job.contentWidth p.style c)

/-- Puts content on a line. -/
def Pass.place (job : Job α) (c : Content) (p : Pass α) : Pass α :=
  (p.ready job c).emit (job.contentRun p.style c (p.ready job c).penX)
    (job.contentAdvance p.style c) c.phase

theorem Pass.step_content (content : t.content? = some c) : p.step job t = p.place job c := by
  cases t with
  | word text =>
    simp only [Token.content?] at content
    split at content
    · cases content
    · next nonempty =>
      cases content
      show p.addWord job text = _
      rw [Pass.addWord, if_neg nonempty]
      rfl
  | stack e => cases content; rfl
  | _ => cases content

/-- Content at the start of a paragraph never breaks the line, so whether a break is needed can
be asked before the line is begun. -/
theorem Pass.needsBreak_beginContent (width : α) (incidents : List Incident) :
    (p.beginContent.report incidents).needsBreak job width = p.needsBreak job width := by
  unfold Pass.beginContent
  split
  · next begins =>
    have outside : p.phase ≠ .atWordBoundary := by
      rw [begins.1]
      exact Phase.noConfusion
    simp only [Pass.needsBreak, Pass.report, outside, decide_false, Bool.false_and]
  · rfl

theorem Pass.phase_of_needsBreak {width : α} (breaks : p.needsBreak job width = true) :
    p.phase = .atWordBoundary := by
  simp only [Pass.needsBreak, Bool.and_eq_true, decide_eq_true_eq] at breaks
  exact breaks.1.1

theorem Pass.runs_of_needsBreak {width : α} (breaks : p.needsBreak job width = true) :
    p.cursor.runs ≠ [] := by
  simp only [Pass.needsBreak, Bool.and_eq_true, Bool.not_eq_true'] at breaks
  exact List.isEmpty_eq_false_iff.mp breaks.1.2

/-- Content that has to go to a new line closes the open one. -/
theorem Pass.ready_of_needsBreak (breaks : p.needsBreak job (job.contentWidth p.style c) = true) :
    p.ready job c = (p.report (job.contentIncidents p.style c)).breakLine job false := by
  have boundary := Pass.phase_of_needsBreak breaks
  have begun : p.beginContent = p :=
    Pass.beginContent_of_phase (by rw [boundary]; exact Phase.noConfusion)
  rw [Pass.ready, Pass.wrap, Pass.needsBreak_beginContent, if_pos breaks, begun]

/-- Content that stays on the open line begins it. -/
theorem Pass.ready_of_fits (fits : p.needsBreak job (job.contentWidth p.style c) = false) :
    p.ready job c = p.beginContent.report (job.contentIncidents p.style c) := by
  rw [Pass.ready, Pass.wrap, Pass.needsBreak_beginContent, if_neg (by rw [fits]; simp)]

theorem Pass.phase_place_ne (job : Job α) (c : Content) (p : Pass α) :
    (p.place job c).phase ≠ .atParagraphBreak := by
  show c.phase ≠ _
  cases c <;> exact Phase.noConfusion

/-- Content acts on the formatting by its incidents alone. -/
theorem Pass.formatting_place (job : Job α) (c : Content) (p : Pass α) :
    (p.place job c).formatting = p.formatting.report (job.contentIncidents p.style c) := by
  show (p.ready job c).formatting = _
  rw [← p.formatting_beginContent, Pass.ready, Pass.wrap]
  split <;> rfl

/-! ## Where content is placed -/

theorem Cursor.pen_recordSize (cursor : Cursor α) (size : α) :
    (cursor.recordSize size).pen = cursor.pen := by
  unfold Cursor.recordSize
  split <;> rfl

theorem Cursor.runs_recordSize (cursor : Cursor α) (size : α) :
    (cursor.recordSize size).runs = cursor.runs := by
  unfold Cursor.recordSize
  split <;> rfl

theorem Pass.pen_place (job : Job α) (c : Content) (p : Pass α) :
    (p.place job c).cursor.pen = (p.ready job c).cursor.pen + job.contentAdvance p.style c := by
  rw [← Cursor.pen_recordSize (p.ready job c).cursor (job.contentRun p.style c _).size]
  rfl

/-- The run of content is the last on its line. -/
theorem Pass.runs_place (job : Job α) (c : Content) (p : Pass α) :
    (p.place job c).cursor.runs =
      (p.ready job c).cursor.runs ++ [job.contentRun p.style c (p.ready job c).penX] := by
  rw [← Cursor.runs_recordSize (p.ready job c).cursor (job.contentRun p.style c _).size]
  rfl

theorem Pass.isLineEmpty_place (job : Job α) (c : Content) (p : Pass α) :
    (p.place job c).cursor.isLineEmpty = false := by
  rw [Cursor.isLineEmpty, List.isEmpty_eq_false_iff, Pass.runs_place]
  exact List.append_ne_nil_of_right_ne_nil _ (List.cons_ne_nil _ _)

theorem Pass.pen_place_of_needsBreak
    (breaks : p.needsBreak job (job.contentWidth p.style c) = true) :
    (p.place job c).cursor.pen = 0 + job.contentAdvance p.style c := by
  rw [Pass.pen_place, Pass.ready_of_needsBreak breaks]
  rfl

theorem Pass.pen_place_of_fits (fits : p.needsBreak job (job.contentWidth p.style c) = false) :
    (p.place job c).cursor.pen = p.beginContent.cursor.pen + job.contentAdvance p.style c := by
  rw [Pass.pen_place, Pass.ready_of_fits fits]
  rfl

theorem Pass.lines_place_of_needsBreak
    (breaks : p.needsBreak job (job.contentWidth p.style c) = true) :
    (p.place job c).lines = p.lines ++ [p.closedLine job] := by
  show (p.ready job c).lines = _
  rw [Pass.ready_of_needsBreak breaks]
  rfl

theorem Pass.length_lines_place_of_needsBreak
    (breaks : p.needsBreak job (job.contentWidth p.style c) = true) :
    (p.place job c).lines.length = p.lines.length + 1 := by
  rw [Pass.lines_place_of_needsBreak breaks]
  exact List.length_append

theorem Pass.lines_place_of_fits (fits : p.needsBreak job (job.contentWidth p.style c) = false) :
    (p.place job c).lines = p.lines := by
  show (p.ready job c).lines = _
  rw [Pass.ready_of_fits fits]
  exact (Pass.SameLines.beginContent p).lines

/-- A word without characters leaves no trace. -/
theorem Pass.step_emptyWord {text : WordText}
    (content : (Token.word text : Token α).content? = none) : p.step job (.word text) = p := by
  simp only [Token.content?] at content
  split at content
  · next empty =>
    show p.addWord job text = p
    rw [Pass.addWord, if_pos empty]
  · cases content

theorem Pass.SameLines.step_quiet (quiet : t.Quiet) : p.SameLines (p.step job t) := by
  cases t with
  | word text =>
    rw [Pass.step_emptyWord quiet.content]
    exact .refl p
  | space => exact .move _ _
  | nonBreakingSpace => exact .move _ _
  | tab => exact .move _ _
  | paragraphBreak => cases quiet.noBreak
  | stack e => cases quiet.content
  | format command => exact ⟨rfl, rfl, p.cursor.pen, rfl⟩

/-! ## Passes after a stream -/

/-- The pass after a token stream, its last line still open. -/
def Job.passAfter (job : Job α) (tokens : List (Token α)) : Pass α :=
  (Pass.start job).run job tokens

theorem Pass.run_append (p : Pass α) (earlier later : List (Token α)) :
    p.run job (earlier ++ later) = (p.run job earlier).run job later :=
  List.foldl_append

theorem Job.passAfter_append (job : Job α) (earlier later : List (Token α)) :
    job.passAfter (earlier ++ later) = (job.passAfter earlier).run job later :=
  Pass.run_append _ _ _

theorem Job.passAfter_concat (job : Job α) (tokens : List (Token α)) (t : Token α) :
    job.passAfter (tokens ++ [t]) = (job.passAfter tokens).step job t :=
  job.passAfter_append tokens [t]

/-- What holds of the pass before the first token, and is kept by content, by paragraph breaks
and by quiet tokens, holds of the pass after every stream. -/
theorem Job.passAfter_rec {motive : List (Token α) → Pass α → Prop}
    (start : motive [] (Pass.start job))
    (content : ∀ tokens t c, motive tokens (job.passAfter tokens) → t.content? = some c →
      motive (tokens ++ [t]) ((job.passAfter tokens).place job c))
    (paragraphBreak : ∀ tokens, motive tokens (job.passAfter tokens) →
      motive (tokens ++ [.paragraphBreak]) ((job.passAfter tokens).breakParagraph job))
    (quiet : ∀ tokens t, motive tokens (job.passAfter tokens) → t.Quiet →
      motive (tokens ++ [t]) ((job.passAfter tokens).step job t))
    (tokens : List (Token α)) : motive tokens (job.passAfter tokens) := by
  induction tokens using List.reverseRecOn with
  | nil => exact start
  | append_singleton tokens t ih =>
    rw [job.passAfter_concat]
    rcases t.kinds with ⟨c, found⟩ | rfl | noContent
    · rw [Pass.step_content found]
      exact content tokens t c ih found
    · exact paragraphBreak tokens ih
    · exact quiet tokens t ih noContent

end Lettering
