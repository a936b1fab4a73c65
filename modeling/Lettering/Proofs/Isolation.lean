import Mathlib
import Lettering.Font.BoxFonts
import Lettering.Proofs.Bounds
import Lettering.Proofs.Counts
import Lettering.Proofs.Plumb

/-!
# Paragraphs are isolated

After a paragraph break nothing of what came before is left but the styles, so the lines of later
paragraphs are the same after any two streams that leave the same styles, except for where on the
plane the text has got to.  In any arithmetic they agree in all but their ordinates
(`Line.Alike`), and in exact arithmetic they are the same lines moved up or down by one distance
(`Line.raise`).  `Job.paragraphs_isolated` says both, and that the same incidents are counted.
-/

namespace Lettering

/-! ## Lines moved up -/

section Raised

variable {α : Type} [ExactScalar α]

/-- The line moved up. -/
def Line.raise (dy : α) (l : Line α) : Line α :=
  { l with
    baseline := l.baseline + dy
    runs := l.runs.map fun r => r.shift 0 dy
    bounds := l.bounds.shift 0 dy }

/-- The line with another advance. -/
def Line.advancing (advance : α) (l : Line α) : Line α := { l with advance := advance }

theorem Line.refreshBounds_advancing (advance : α) (l : Line α) :
    (l.advancing advance).refreshBounds = l.refreshBounds.advancing advance := rfl

theorem Line.refreshBounds_raise (l : Line α) (dy : α) :
    (l.raise dy).refreshBounds = l.refreshBounds.raise dy := by
  have boxes : ((l.runs.map fun r => r.shift 0 dy).map Run.bounds) =
      (l.runs.map Run.bounds).map fun b => b.shift 0 dy := by
    rw [List.map_map, List.map_map]
    exact List.map_congr_left fun r _ => r.bounds_shift 0 dy
  rw [Line.refreshBounds, Line.raise]
  dsimp only
  rw [boxes, Box.unions_shift]
  rfl

theorem Run.raise_comm (r : Run α) (dx dy : α) :
    (r.shift 0 dy).shift dx 0 = (r.shift dx 0).shift 0 dy := by
  rw [Run.shift_shift, Run.shift_shift]
  exact congrArg₂ r.shift (add_comm 0 dx) (add_comm dy 0)

theorem Run.endX_raise (r : Run α) (dy : α) : (r.shift 0 dy).endX = r.endX :=
  congrArg (· + r.width) (add_zero r.startX)

theorem spreadFrom_raise (gap pen dy : α) (runs : List (Run α)) :
    spreadFrom gap pen (runs.map fun r => r.shift 0 dy) =
      (spreadFrom gap pen runs).map fun r => r.shift 0 dy := by
  induction runs generalizing pen with
  | nil => rfl
  | cons r rest ih =>
    have startX : (r.shift 0 dy).startX = r.startX := add_zero r.startX
    rw [List.map_cons, spreadFrom, spreadFrom, List.map_cons, startX, Run.raise_comm,
      show (r.shift 0 dy).width = r.width from rfl, ih]

theorem Line.spreadRuns_raise (l : Line α) (dy : α) (alignment : HorizontalAlignment)
    (frame : Frame α) : (l.raise dy).spreadRuns alignment frame =
      (l.spreadRuns alignment frame).map fun r => r.shift 0 dy := by
  have widths : (l.raise dy).runs.map (·.width) = l.runs.map (·.width) := by
    rw [Line.raise, List.map_map]
    rfl
  have length : (l.raise dy).runs.length = l.runs.length := List.length_map _
  unfold Line.spreadRuns spread
  split
  · dsimp only
    rw [widths, length]
    split
    · rfl
    · exact spreadFrom_raise _ _ _ _
  · rfl

theorem Line.align_raise (l : Line α) (dy : α) (alignment : HorizontalAlignment) (frame : Frame α) :
    (l.raise dy).align alignment frame = (l.align alignment frame).raise dy := by
  have ends : (l.raise dy).runs.map Run.endX = l.runs.map Run.endX := by
    rw [Line.raise, List.map_map]
    exact List.map_congr_left fun r _ => r.endX_raise dy
  unfold Line.align
  rw [Line.contentEnd_congr ends]
  split
  · rfl
  · next stop _ =>
    rw [← Line.refreshBounds_raise, Line.spreadRuns_raise]
    refine congrArg Line.refreshBounds ?_
    have sideways (runs : List (Run α)) (dx : α) :
        (runs.map fun r => r.shift 0 dy).map (fun r => r.shift dx 0) =
          (runs.map fun r => r.shift dx 0).map fun r => r.shift 0 dy := by
      rw [List.map_map, List.map_map]
      exact List.map_congr_left fun r _ => r.raise_comm dx dy
    simp only [Line.raise]
    split
    · rw [sideways]
    · rfl

/-- Twins close the same line, but for its advance, where their baselines come to stand. -/
theorem Pass.Twin.line_raise {p q : Pass α} {dy : α} {leading leading' : Leading α}
    (twin : p.Twin q) (higher : q.cursor.lineBaseline leading' q.style.effectiveSize =
      p.cursor.lineBaseline leading p.style.effectiveSize + dy) :
    q.cursor.line leading' q.style.effectiveSize =
      ((p.cursor.line leading p.style.effectiveSize).raise dy).advancing
        (q.cursor.lineAdvance leading' q.style.effectiveSize) := by
  have raised (r : Run α) (y rise : α) :
      r.shift 0 (y + dy + rise) = (r.shift 0 (y + rise)).shift 0 dy := by
    rw [Run.shift_shift, add_right_comm]
    exact congrArg (r.shift · _) (add_zero 0).symm
  rw [Cursor.line, Cursor.line, ← Line.refreshBounds_raise, ← Line.refreshBounds_advancing, higher]
  refine congrArg Line.refreshBounds ?_
  obtain ⟨column, incidents, rfl⟩ := twin.exists_behind
  simp only [Line.raise, Line.advancing, List.map_map, Box.shift_empty, Line.mk.injEq]
  refine ⟨trivial, trivial, rfl, rfl, ?_, trivial⟩
  exact List.map_congr_left fun r _ => raised r _ _

/-- Twins past their first line, one `dy` above the other, have open lines `dy` apart. -/
theorem Pass.Twin.line_eq_raise {p q : Pass α} {dy : α} (twin : p.Twin q) (job : Job α)
    (begun : p.cursor.lineCount ≠ 0) (begun' : q.cursor.lineCount ≠ 0)
    (baseline : q.cursor.baseline = p.cursor.baseline + dy) :
    q.cursor.line job.leading q.style.effectiveSize =
      (p.cursor.line job.leading p.style.effectiveSize).raise dy := by
  have advance := twin.lineAdvance job begun begun'
  have higher : q.cursor.lineBaseline job.leading q.style.effectiveSize =
      p.cursor.lineBaseline job.leading p.style.effectiveSize + dy := by
    rw [Cursor.lineBaseline, if_neg begun', Cursor.lineBaseline, if_neg begun, baseline, advance]
    exact add_right_comm _ _ _
  rw [twin.line_raise higher, advance]
  rfl

theorem Job.closes_raised (job : Job α) (dy : α) :
    job.ClosesAlike (fun y y' => y' = y + dy) (fun l m => m = l.raise dy) where
  related {p q} twin begun begun' baseline := by
    have line := twin.line_eq_raise job begun begun' baseline
    have paragraph : q.paragraph = p.paragraph := by
      rw [twin]
      rfl
    have frame : q.frame job = p.frame job := by
      rw [twin]
      rfl
    rw [Pass.closedLine, Pass.closedLine, line, paragraph, frame, Line.align_raise]
  baseline raised := by
    rw [raised]
    rfl

end Raised

/-! ## Isolation -/

/-- The lines that a stream adds to those of the stream before it. -/
def Job.linesAfter {α : Type} [Scalar α] (job : Job α) (before after : List (Token α)) :
    List (Line α) :=
  (job.layout (before ++ after)).lines.drop (job.layout before).lines.length

/-- A stream is laid out alike after either of two others. -/
structure Job.SameAfter {α : Type} [Scalar α] (job : Job α)
    (before before' after : List (Token α)) : Prop where
  kept : (job.layout (before ++ after)).lines =
    (job.layout before).lines ++ job.linesAfter before after
  kept' : (job.layout (before' ++ after)).lines =
    (job.layout before').lines ++ job.linesAfter before' after
  lines : List.Forall₂ Line.Alike (job.linesAfter before after) (job.linesAfter before' after)
  counts : ∃ added : Diagnostics,
    (job.layout (before ++ after)).diagnostics.IsSum (job.layout before).diagnostics added ∧
      (job.layout (before' ++ after)).diagnostics.IsSum (job.layout before').diagnostics added

section Lawless

variable {α : Type} [Scalar α] {job : Job α} {before before' : List (Token α)}

/-- What a stream adds to the diagnostics depends on the styles at its start alone. -/
theorem Job.isSum_diagnostics (job : Job α) {f : Formatting α}
    (styles : (job.passAfter before).formatting.styles = f.styles) (after : List (Token α)) :
    (job.layout (before ++ after)).diagnostics.IsSum (job.layout before).diagnostics
      (.ofIncidents ((job.styledFrom f after).flatMap fun e => job.incidentsAt e.1 e.2)) := by
  rw [Job.diagnostics_layout, Job.diagnostics_layout, Job.passAfter_append, Pass.incidents_run,
    job.styledFrom_congr styles]
  exact Diagnostics.isSum_append _ _

/-- `Job.layouts_abreast` for the lines after the streams. -/
theorem Job.Interchangeable.lines {B : α → α → Prop} {R : Line α → Line α → Prop}
    (together : job.Interchangeable before before') (closes : job.ClosesAlike B R)
    (baseline : B (job.passAfter before).cursor.baseline (job.passAfter before').cursor.baseline)
    (after : List (Token α)) :
    (job.layout (before ++ after)).lines =
        (job.layout before).lines ++ job.linesAfter before after ∧
      (job.layout (before' ++ after)).lines =
        (job.layout before').lines ++ job.linesAfter before' after ∧
      List.Forall₂ R (job.linesAfter before after) (job.linesAfter before' after) := by
  obtain ⟨new, new', lines, lines', related⟩ := Job.layouts_abreast together closes baseline after
  have added : job.linesAfter before after = new := by
    rw [Job.linesAfter, lines, List.drop_left]
  have added' : job.linesAfter before' after = new' := by
    rw [Job.linesAfter, lines', List.drop_left]
  rw [added, added']
  exact ⟨lines, lines', related⟩

end Lawless

/-- **Paragraphs are isolated.**  After two streams that end with a paragraph break and leave the
same styles, any stream gets lines that are alike in all but their ordinates and adds the same to
the diagnostics, in any arithmetic; in exact arithmetic the lines are one distance apart. -/
theorem Job.paragraphs_isolated :
    (∀ {α : Type} [Scalar α] (job : Job α) (before before' after : List (Token α)),
      job.Interchangeable before before' → job.SameAfter before before' after) ∧
    ∀ {α : Type} [ExactScalar α] (job : Job α) (before before' after : List (Token α)),
      job.Interchangeable before before' →
        ∃ dy, job.linesAfter before' after = (job.linesAfter before after).map (Line.raise dy) := by
  constructor
  · intro α _ job before before' after together
    obtain ⟨kept, kept', lines⟩ := together.lines job.closes_alike trivial after
    exact ⟨kept, kept', lines, _, job.isSum_diagnostics rfl after,
      job.isSum_diagnostics together.styles after⟩
  · intro α _ job before before' after together
    let dy := (job.passAfter before').cursor.baseline - (job.passAfter before).cursor.baseline
    have baseline : (job.passAfter before').cursor.baseline =
        (job.passAfter before).cursor.baseline + dy := (add_sub_cancel _ _).symm
    obtain ⟨-, -, raised⟩ := together.lines (job.closes_raised dy) baseline after
    have moved := List.forall₂_map_left_iff.mpr (raised.imp fun _ _ => Eq.symm)
    rw [List.forall₂_eq_eq_eq] at moved
    exact ⟨dy, moved.symm⟩

/-- Box fonts after one short paragraph, and after two of which a group sets one higher. -/
theorem Job.paragraphs_isolated_grouped :
    let job : Job ℝ :=
      { fonts := BoxFonts.standard.source
        palette := fun _ => none
        colors := {}
        settings := Settings.standard
        entity := Entity.standard }
    let before : List (Token ℝ) := [.word (.text "one"), .paragraphBreak]
    let before' : List (Token ℝ) :=
      [.format .groupOpen, .format (.height (.absolute 3)), .word (.text "two"), .paragraphBreak,
        .format .groupClose, .stack ⟨"1", "2", .line⟩, .paragraphBreak]
    let after : List (Token ℝ) := [.word (.text "three"), .space, .format (.underline true),
      .word (.text "four")]
    job.Interchangeable before before' ∧ job.SameAfter before before' after ∧
      ∃ dy, job.linesAfter before' after = (job.linesAfter before after).map (Line.raise dy) := by
  intro job before before' after
  have together : job.Interchangeable before before' := by
    refine ⟨rfl, rfl, ?_⟩
    rw [Job.styles_passAfter, Job.styles_passAfter]
    rfl
  exact ⟨together, Job.paragraphs_isolated.1 job before before' after together,
    Job.paragraphs_isolated.2 job before before' after together⟩

end Lettering
