import Lettering.Proofs.Closing
import Lettering.Proofs.Commands
import Mathlib.Data.List.Forall2

/-!
# Passes abreast

What a pass does next depends on its styles, its paragraph, its phase and the open line, and on its
closed lines only by the last baseline and by whether there is one.  Two passes that differ in their
closed lines and incidents alone are *twins*, and stay twins whatever comes (`Pass.Twin.step`).

So what is to be shown of the lines that twins close is to be shown of one closing line:
`Job.layouts_abreast` takes a relation of lines that holds when twins close one, and concludes it of
all lines that a stream adds after either of two interchangeable streams.
-/

namespace Lettering

variable {α : Type}

/-- The pass with other lines and incidents behind it. -/
def Pass.behind (column : Column α) (incidents : List Incident) (p : Pass α) : Pass α where
  formatting := { p.formatting with incidents := incidents }
  cursor := { p.cursor with lineCount := column.lineCount, baseline := column.baseline }
  phase := p.phase
  lines := column.lines
  height := column.height

/-- Two passes that differ in their closed lines and incidents alone. -/
def Pass.Twin (p q : Pass α) : Prop := q = p.behind q.column q.formatting.incidents

namespace Pass.Twin

variable {p q : Pass α}

theorem of_behind (column : Column α) (incidents : List Incident)
    (same : q = p.behind column incidents) : p.Twin q := by
  subst same
  rfl

theorem exists_behind (twin : p.Twin q) : ∃ column incidents, q = p.behind column incidents :=
  ⟨_, _, twin⟩

theorem symm (twin : p.Twin q) : q.Twin p := by
  obtain ⟨column, incidents, rfl⟩ := twin.exists_behind
  rfl

theorem trans {r : Pass α} (twin : p.Twin q) (next : q.Twin r) : p.Twin r := by
  obtain ⟨column, incidents, rfl⟩ := twin.exists_behind
  exact next

theorem styles (twin : p.Twin q) : q.formatting.styles = p.formatting.styles := by
  rw [twin]
  rfl

theorem style (twin : p.Twin q) : q.style = p.style := congrArg StyleStack.active twin.styles

theorem beginContent (twin : p.Twin q) : p.beginContent.Twin q.beginContent := by
  obtain ⟨column, incidents, rfl⟩ := twin.exists_behind
  refine of_behind column incidents ?_
  by_cases begins : p.phase = .atParagraphBreak ∧ p.cursor.isLineEmpty
  · exact (if_pos begins).trans (by rw [Pass.beginContent, if_pos begins]; rfl)
  · exact (if_neg begins).trans (by rw [Pass.beginContent, if_neg begins])

theorem report (twin : p.Twin q) (incidents : List Incident) :
    (p.report incidents).Twin (q.report incidents) := by
  obtain ⟨column, earlier, rfl⟩ := twin.exists_behind
  rfl

variable [Scalar α] {job : Job α}

theorem breakLine (twin : p.Twin q) (startsParagraph : Bool) :
    (p.breakLine job startsParagraph).Twin (q.breakLine job startsParagraph) := by
  obtain ⟨column, incidents, rfl⟩ := twin.exists_behind
  rfl

theorem emit (twin : p.Twin q) (run : Run α) (dx : α) (phase : Phase) :
    (p.emit run dx phase).Twin (q.emit run dx phase) := by
  obtain ⟨column, incidents, rfl⟩ := twin.exists_behind
  have recorded : (p.behind column incidents).cursor.recordSize run.size =
      { p.cursor.recordSize run.size with
        lineCount := column.lineCount, baseline := column.baseline } := by
    by_cases larger : p.cursor.maxSize < run.size
    · exact (if_pos larger).trans (by rw [Cursor.recordSize, if_pos larger]; rfl)
    · exact (if_neg larger).trans (by rw [Cursor.recordSize, if_neg larger]; rfl)
  refine of_behind column incidents ?_
  rw [Pass.emit, recorded]
  rfl

theorem needsBreak (twin : p.Twin q) (width : α) :
    q.needsBreak job width = p.needsBreak job width := by
  rw [twin]
  rfl

theorem place (twin : p.Twin q) (c : Content) : (p.place job c).Twin (q.place job c) := by
  have ready : (p.ready job c).Twin (q.ready job c) := by
    have reported := twin.report (job.contentIncidents p.style c)
    cases breaks : p.needsBreak job (job.contentWidth p.style c) with
    | true =>
      have breaks' : q.needsBreak job (job.contentWidth q.style c) = true := by
        rw [twin.needsBreak, twin.style, breaks]
      rw [Pass.ready_of_needsBreak breaks, Pass.ready_of_needsBreak breaks', twin.style]
      exact reported.breakLine false
    | false =>
      have fits : q.needsBreak job (job.contentWidth q.style c) = false := by
        rw [twin.needsBreak, twin.style, breaks]
      rw [Pass.ready_of_fits breaks, Pass.ready_of_fits fits, twin.style]
      exact twin.beginContent.report _
  have penX : (q.ready job c).penX = (p.ready job c).penX := by
    rw [ready]
    rfl
  rw [Pass.place, Pass.place, twin.style, penX]
  exact ready.emit _ _ _

theorem addBlank (twin : p.Twin q) (phase : Phase) :
    (p.addBlank phase).Twin (q.addBlank phase) := by
  obtain ⟨column, incidents, begun⟩ := twin.beginContent.exists_behind
  rw [Pass.addBlank, Pass.addBlank, twin.style, begun]
  rfl

theorem addTab (twin : p.Twin q) : (p.addTab job).Twin (q.addTab job) := by
  obtain ⟨column, incidents, begun⟩ := twin.beginContent.exists_behind
  rw [Pass.addTab, Pass.addTab, begun]
  rfl

theorem breakParagraph (twin : p.Twin q) : (p.breakParagraph job).Twin (q.breakParagraph job) := by
  obtain ⟨column, incidents, rfl⟩ := twin.exists_behind
  rfl

theorem step (twin : p.Twin q) (t : Token α) : (p.step job t).Twin (q.step job t) := by
  rcases t.kinds with ⟨c, found⟩ | rfl | quiet
  · rw [Pass.step_content found, Pass.step_content found]
    exact twin.place c
  · exact twin.breakParagraph
  · cases t with
    | word text =>
      rw [Pass.step_emptyWord quiet.content, Pass.step_emptyWord quiet.content]
      exact twin
    | space | nonBreakingSpace => exact twin.addBlank _
    | tab => exact twin.addTab
    | paragraphBreak => cases quiet.noBreak
    | stack e => cases quiet.content
    | format command =>
      obtain ⟨column, incidents, rfl⟩ := twin.exists_behind
      cases command <;> rfl

/-- Past the first line an advance depends on the open line and the style alone. -/
theorem lineAdvance (twin : p.Twin q) (job : Job α) (begun : p.cursor.lineCount ≠ 0)
    (begun' : q.cursor.lineCount ≠ 0) :
    q.cursor.lineAdvance job.leading q.style.effectiveSize =
      p.cursor.lineAdvance job.leading p.style.effectiveSize := by
  rw [Cursor.lineAdvance, Cursor.lineAdvance, Leading.advance, Leading.advance, if_neg begun,
    if_neg begun', twin]
  rfl

end Pass.Twin

/-! ## Lines closed by twins -/

section Lines

variable {B : α → α → Prop} {R : Line α → Line α → Prop} {done done' : List (Line α)}
  {c d : Column α} {p q : Pass α} {l m : Line α}

/-- Two columns past their first line that have grown by related lines. -/
structure Column.Abreast (B : α → α → Prop) (R : Line α → Line α → Prop)
    (done done' : List (Line α)) (c d : Column α) : Prop where
  lines : ∃ new new', c.lines = done ++ new ∧ d.lines = done' ++ new' ∧ List.Forall₂ R new new'
  baseline : B c.baseline d.baseline
  begun : c.lineCount ≠ 0
  begun' : d.lineCount ≠ 0

/-- Twins whose columns are abreast. -/
structure Pass.Abreast (B : α → α → Prop) (R : Line α → Line α → Prop)
    (done done' : List (Line α)) (p q : Pass α) : Prop where
  twin : p.Twin q
  column : p.column.Abreast B R done done' q.column

variable [Scalar α] {job : Job α}

theorem Column.Abreast.close (abreast : c.Abreast B R done done' d) (related : R l m)
    (baseline : B l.baseline m.baseline) :
    (c.close l).Abreast B R done done' (d.close m) := by
  obtain ⟨new, new', lines, lines', all⟩ := abreast.lines
  refine ⟨⟨new ++ [l], new' ++ [m], ?_, ?_, ?_⟩, baseline, Nat.succ_ne_zero _, Nat.succ_ne_zero _⟩
  · rw [Column.close, lines, List.append_assoc]
  · rw [Column.close, lines', List.append_assoc]
  · exact List.rel_append all (.cons related .nil)

/-- Twins past their first line, with related baselines, close related lines. -/
structure Job.ClosesAlike (job : Job α) (B : α → α → Prop) (R : Line α → Line α → Prop) : Prop where
  related : ∀ {p q : Pass α}, p.Twin q → p.cursor.lineCount ≠ 0 → q.cursor.lineCount ≠ 0 →
    B p.cursor.baseline q.cursor.baseline → R (p.closedLine job) (q.closedLine job)
  baseline : ∀ {l m : Line α}, R l m → B l.baseline m.baseline

namespace Pass.Abreast

theorem close (abreast : p.Abreast B R done done' q) (closes : job.ClosesAlike B R) :
    (p.column.close (p.closedLine job)).Abreast B R done done'
      (q.column.close (q.closedLine job)) := by
  have related := closes.related abreast.twin abreast.column.begun abreast.column.begun'
    abreast.column.baseline
  exact abreast.column.close related (closes.baseline related)

theorem step (abreast : p.Abreast B R done done' q) (closes : job.ClosesAlike B R) (t : Token α) :
    (p.step job t).Abreast B R done done' (q.step job t) := by
  refine ⟨abreast.twin.step t, ?_⟩
  rcases t.kinds with ⟨c, found⟩ | rfl | quiet
  · rw [Pass.step_content found, Pass.step_content found, Pass.column_place, Pass.column_place,
      abreast.twin.needsBreak, abreast.twin.style]
    split
    · exact abreast.close closes
    · exact abreast.column
  · show (p.breakParagraph job).column.Abreast B R done done' (q.breakParagraph job).column
    rw [Pass.column_breakParagraph, Pass.column_breakParagraph]
    exact abreast.close closes
  · rw [(Pass.SameLines.step_quiet quiet).column, (Pass.SameLines.step_quiet quiet).column]
    exact abreast.column

theorem run (abreast : p.Abreast B R done done' q) (closes : job.ClosesAlike B R)
    (tokens : List (Token α)) : (p.run job tokens).Abreast B R done done' (q.run job tokens) := by
  induction tokens generalizing p q with
  | nil => exact abreast
  | cons t rest ih => exact ih (abreast.step closes t)

theorem flush (abreast : p.Abreast B R done done' q) (closes : job.ClosesAlike B R) :
    (p.flush job).column.Abreast B R done done' (q.flush job).column := by
  have empty : q.cursor.isLineEmpty = p.cursor.isLineEmpty := by
    rw [abreast.twin]
    rfl
  rw [Pass.flush, Pass.flush, empty]
  split
  · exact abreast.column
  · rw [Pass.column_breakLine, Pass.column_breakLine]
    exact abreast.close closes

end Pass.Abreast

end Lines

/-! ## Interchangeable streams -/

section Streams

variable [Scalar α] {job : Job α} {before before' : List (Token α)}

/-- Streams that end with a paragraph break and leave the same styles, active and saved. -/
structure Job.Interchangeable (job : Job α) (before before' : List (Token α)) : Prop where
  ends : before.getLast? = some .paragraphBreak
  ends' : before'.getLast? = some .paragraphBreak
  styles : (job.passAfter before').formatting.styles = (job.passAfter before).formatting.styles

/-- The pass at the start of a paragraph, nothing behind it. -/
def Pass.opening (job : Job α) (styles : StyleStack α) : Pass α :=
  { Pass.start job with
    formatting := { styles := styles, paragraph := .plain job.entity.attachment.alignment } }

/-- Of what came before a paragraph, a pass keeps the styles alone. -/
theorem Job.twin_opening (job : Job α) (ends : before.getLast? = some .paragraphBreak) :
    (Pass.opening job (job.passAfter before).formatting.styles).Twin (job.passAfter before) := by
  obtain ⟨init, rfl⟩ := List.getLast?_eq_some_iff.mp ends
  rw [Job.passAfter_concat]
  rfl

theorem Job.lineCount_of_ends (job : Job α) (ends : before.getLast? = some .paragraphBreak) :
    (job.passAfter before).cursor.lineCount ≠ 0 := by
  obtain ⟨init, rfl⟩ := List.getLast?_eq_some_iff.mp ends
  rw [Job.passAfter_concat]
  exact Nat.succ_ne_zero _

theorem Job.layout_lines_of_ends (job : Job α) (ends : before.getLast? = some .paragraphBreak) :
    (job.layout before).lines = (job.passAfter before).lines := by
  have empty : (job.passAfter before).cursor.isLineEmpty = true := by
    rw [job.twin_opening ends]
    rfl
  rw [Job.layout_lines_flush, Pass.flush, if_pos empty]

/-- What twins closing a line make of it, they make of all lines that a stream adds to either of two
interchangeable ones. -/
theorem Job.layouts_abreast {B : α → α → Prop} {R : Line α → Line α → Prop}
    (together : job.Interchangeable before before') (closes : job.ClosesAlike B R)
    (baseline : B (job.passAfter before).cursor.baseline (job.passAfter before').cursor.baseline)
    (after : List (Token α)) :
    ∃ new new', (job.layout (before ++ after)).lines = (job.layout before).lines ++ new ∧
      (job.layout (before' ++ after)).lines = (job.layout before').lines ++ new' ∧
      List.Forall₂ R new new' := by
  -- Both passes are twins of the one that opens a paragraph in the styles that they share.
  have twin : (job.passAfter before).Twin (job.passAfter before') := by
    have opening' := job.twin_opening together.ends'
    rw [together.styles] at opening'
    exact (job.twin_opening together.ends).symm.trans opening'
  have now : (job.passAfter before).Abreast B R (job.passAfter before).lines
      (job.passAfter before').lines (job.passAfter before') :=
    ⟨twin, ⟨[], [], (List.append_nil _).symm, (List.append_nil _).symm, .nil⟩, baseline,
      job.lineCount_of_ends together.ends, job.lineCount_of_ends together.ends'⟩
  rw [job.layout_lines_of_ends together.ends, job.layout_lines_of_ends together.ends',
    Job.layout_lines_flush, Job.layout_lines_flush, Job.passAfter_append, Job.passAfter_append]
  exact ((now.run closes after).flush closes).lines

end Streams

end Lettering
