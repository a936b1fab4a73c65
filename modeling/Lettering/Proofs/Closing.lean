import Lettering.Proofs.Makeup

/-!
# Closing lines

A pass keeps four things of the lines that it has closed: the lines, the sum of their advances,
their number and the last baseline.  They make up its *column*.  A column changes only where a line
is closed, and then all of it does (`Column.close`), so what holds of the columns of all passes, and
of layouts, is proved for that step alone (`Job.column_rec`, `Job.layout_column`).
-/

namespace Lettering

variable {α : Type}

/-- The closed lines of a pass, with what is kept of them. -/
structure Column (α : Type) where
  lines : List (Line α)
  height : α
  lineCount : Nat
  baseline : α

def Pass.column (p : Pass α) : Column α :=
  ⟨p.lines, p.height, p.cursor.lineCount, p.cursor.baseline⟩

theorem Pass.SameLines.column {p q : Pass α} (same : p.SameLines q) : q.column = p.column := by
  obtain ⟨pen, cursor⟩ := same.cursor
  rw [Pass.column, same.lines, same.height, cursor, Pass.column]

variable [Scalar α] {job : Job α} {p : Pass α} {c : Content}

/-- The column with one more line. -/
def Column.close (column : Column α) (l : Line α) : Column α :=
  ⟨column.lines ++ [l], column.height + l.advance, column.lineCount + 1, l.baseline⟩

/-! ## The line that closes -/

theorem Line.align_measures (l : Line α) (alignment : HorizontalAlignment) (frame : Frame α) :
    (l.align alignment frame).baseline = l.baseline ∧
      (l.align alignment frame).advance = l.advance ∧
      (l.align alignment frame).maxSize = l.maxSize ∧
      (l.align alignment frame).startsParagraph = l.startsParagraph := by
  unfold Line.align
  split <;> exact ⟨rfl, rfl, rfl, rfl⟩

theorem Pass.baseline_closedLine (job : Job α) (p : Pass α) :
    (p.closedLine job).baseline = p.cursor.lineBaseline job.leading p.style.effectiveSize :=
  (Line.align_measures _ _ _).1

theorem Pass.advance_closedLine (job : Job α) (p : Pass α) :
    (p.closedLine job).advance = p.cursor.lineAdvance job.leading p.style.effectiveSize :=
  (Line.align_measures _ _ _).2.1

theorem Pass.maxSize_closedLine (job : Job α) (p : Pass α) :
    (p.closedLine job).maxSize = p.cursor.lineSize p.style.effectiveSize :=
  (Line.align_measures _ _ _).2.2.1

theorem Pass.refreshBounds_closedLine (job : Job α) (p : Pass α) :
    (p.closedLine job).refreshBounds = p.closedLine job := by
  unfold Pass.closedLine Line.align
  split <;> rfl

theorem Pass.column_breakLine (job : Job α) (startsParagraph : Bool) (p : Pass α) :
    (p.breakLine job startsParagraph).column = p.column.close (p.closedLine job) := by
  rw [Column.close, Pass.baseline_closedLine]
  rfl

/-! ## Steps -/

theorem Pass.column_breakParagraph (job : Job α) (p : Pass α) :
    (p.breakParagraph job).column = p.column.close (p.closedLine job) := by
  rw [← Pass.column_breakLine job true]
  rfl

theorem Pass.column_emit (run : Run α) (dx : α) (phase : Phase) (p : Pass α) :
    (p.emit run dx phase).column = p.column := by
  have recorded (cursor : Cursor α) : (cursor.recordSize run.size).lineCount = cursor.lineCount ∧
      (cursor.recordSize run.size).baseline = cursor.baseline := by
    unfold Cursor.recordSize
    split <;> exact ⟨rfl, rfl⟩
  show Column.mk p.lines p.height (Cursor.recordSize _ _).lineCount
    (Cursor.recordSize _ _).baseline = p.column
  rw [(recorded p.cursor).1, (recorded p.cursor).2, Pass.column]

/-- Content closes the open line or leaves the column as it is. -/
theorem Pass.column_place (job : Job α) (c : Content) (p : Pass α) :
    (p.place job c).column =
      if p.needsBreak job (job.contentWidth p.style c) then p.column.close (p.closedLine job)
      else p.column := by
  rw [Pass.place, Pass.column_emit]
  split
  · next breaks =>
    rw [Pass.ready_of_needsBreak breaks, Pass.column_breakLine]
    rfl
  · next fits =>
    rw [Pass.ready_of_fits (Bool.eq_false_iff.mpr fits),
      ← (Pass.SameLines.beginContent p).column]
    rfl

/-- A token closes the open line or none. -/
theorem Pass.lines_step (job : Job α) (p : Pass α) (t : Token α) :
    (p.step job t).lines = p.lines ∨ (p.step job t).lines = p.lines ++ [p.closedLine job] := by
  rcases t.kinds with ⟨c, found⟩ | rfl | quiet
  · rw [Pass.step_content found]
    cases breaks : p.needsBreak job (job.contentWidth p.style c) with
    | true => exact .inr (Pass.lines_place_of_needsBreak breaks)
    | false => exact .inl (Pass.lines_place_of_fits breaks)
  · exact .inr rfl
  · exact .inl (Pass.SameLines.step_quiet quiet).lines

section Induction

variable {motive : Column α → Prop} (start : motive ⟨[], 0, 0, 0⟩)
  (close : ∀ before, motive (job.passAfter before).column →
    motive ((job.passAfter before).column.close ((job.passAfter before).closedLine job)))

include start close

/-- What holds of no lines, and is kept when a pass closes its open line, holds of the column of
every pass. -/
theorem Job.column_rec (tokens : List (Token α)) : motive (job.passAfter tokens).column := by
  induction tokens using Job.passAfter_rec with
  | start => exact start
  | content tokens t c ih found =>
    rw [Pass.column_place]
    split
    · exact close tokens ih
    · exact ih
  | paragraphBreak tokens ih =>
    rw [Pass.column_breakParagraph]
    exact close tokens ih
  | quiet tokens t ih quiet =>
    rw [(Pass.SameLines.step_quiet quiet).column]
    exact ih

theorem Job.column_flush (tokens : List (Token α)) :
    motive ((job.passAfter tokens).flush job).column := by
  have after := Job.column_rec start close tokens
  unfold Pass.flush
  split
  · exact after
  · rw [Pass.column_breakLine]
    exact close tokens after

end Induction

/-! ## Whole layouts -/

/-- The lines of a layout are those that were closed, box and all. -/
theorem Job.layout_lines_flush (job : Job α) (tokens : List (Token α)) :
    (job.layout tokens).lines = ((job.passAfter tokens).flush job).lines := by
  have refreshed : ∀ l ∈ ((job.passAfter tokens).flush job).column.lines, l.refreshBounds = l := by
    refine Job.column_flush (motive := fun column => ∀ l ∈ column.lines, l.refreshBounds = l)
      (fun _ member => nomatch member) (fun before ih => ?_) tokens
    exact List.forall_mem_append.mpr
      ⟨ih, List.forall_mem_singleton.mpr (Pass.refreshBounds_closedLine job _)⟩
  rw [Job.layout_lines]
  exact (List.map_congr_left refreshed).trans (List.map_id _)

/-- The open line is closed at the end of a stream if it has a run. -/
theorem Job.layout_lines_closed (job : Job α) (tokens : List (Token α)) :
    (job.layout tokens).lines = (job.passAfter tokens).lines ++
      if (job.passAfter tokens).cursor.isLineEmpty then []
      else [(job.passAfter tokens).closedLine job] := by
  rw [job.layout_lines_flush, Pass.flush]
  split
  · exact (List.append_nil _).symm
  · rfl

/-- `Job.column_rec` for the lines and the height of a whole layout. -/
theorem Job.layout_column (job : Job α) {motive : Column α → Prop} (start : motive ⟨[], 0, 0, 0⟩)
    (close : ∀ before, motive (job.passAfter before).column →
      motive ((job.passAfter before).column.close ((job.passAfter before).closedLine job)))
    (tokens : List (Token α)) :
    ∃ column, motive column ∧ (job.layout tokens).lines = column.lines ∧
      (job.layout tokens).height = column.height :=
  ⟨_, Job.column_flush start close tokens, job.layout_lines_flush tokens, rfl⟩

/-! ## What is kept adds up -/

/-- The baseline of the last of some lines, zero if there is none. -/
def lastBaseline (lines : List (Line α)) : α := (lines.getLast?.map (·.baseline)).getD 0

theorem lastBaseline_concat (lines : List (Line α)) (l : Line α) :
    lastBaseline (lines ++ [l]) = l.baseline := by
  rw [lastBaseline, List.getLast?_concat, Option.map_some, Option.getD_some]

/-- The height, the number and the baseline of a column are those of its lines. -/
structure Column.Measured (column : Column α) : Prop where
  height : column.height = Scalar.sum (column.lines.map (·.advance))
  lineCount : column.lineCount = column.lines.length
  baseline : column.baseline = lastBaseline column.lines

theorem Column.Measured.start : (⟨[], 0, 0, 0⟩ : Column α).Measured := ⟨rfl, rfl, rfl⟩

theorem Column.Measured.close {column : Column α} (measured : column.Measured) (l : Line α) :
    (column.close l).Measured := by
  constructor
  · show column.height + l.advance = Scalar.sum ((column.lines ++ [l]).map _)
    rw [measured.height, Scalar.sum, Scalar.sum, List.map_append, List.foldl_append]
    rfl
  · show column.lineCount + 1 = (column.lines ++ [l]).length
    rw [measured.lineCount, List.length_append]
    rfl
  · exact (lastBaseline_concat column.lines l).symm

theorem Job.column_measured (job : Job α) (tokens : List (Token α)) :
    (job.passAfter tokens).column.Measured :=
  Job.column_rec .start (fun _ measured => measured.close _) tokens

end Lettering
