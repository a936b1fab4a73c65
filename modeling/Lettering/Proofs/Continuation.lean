import Mathlib
import Lettering.Proofs.Isolation

/-!
# Streams that go on

A pass only appends to its closed lines, so what a stream has finished is the same however the
stream goes on: the lines of a layout are the first lines of the layout of any longer stream, except
that its last line may still be growing there (`Job.layout_continued`).  The count of lines never
falls, since an open line with a run closes with it sooner or later, and incidents are only ever
added to the diagnostics.
-/

namespace Lettering

/-! ## Counters -/

theorem Tally.total_cons {κ : Type} (key : κ) (n : Nat) (t : Tally κ) :
    Tally.total ((key, n) :: t) = n + Tally.total t := by
  have from_any (start : Nat) (t : Tally κ) :
      t.foldl (fun sum entry => sum + entry.2) start = start + Tally.total t := by
    induction t generalizing start with
    | nil => rfl
    | cons entry rest ih =>
      rw [Tally.total, List.foldl_cons, List.foldl_cons, ih, ih (0 + _), Nat.zero_add,
        Nat.add_assoc]
  rw [Tally.total, List.foldl_cons, from_any, Nat.zero_add]

theorem Tally.total_bump {κ : Type} [DecidableEq κ] (before : κ → κ → Bool) (key : κ)
    (t : Tally κ) : Tally.total (Tally.bump before key t) = Tally.total t + 1 := by
  induction t with
  | nil => rfl
  | cons entry rest ih =>
    obtain ⟨k, n⟩ := entry
    rw [Tally.bump]
    split
    · rw [Tally.total_cons, Tally.total_cons, Nat.add_right_comm]
    · split
      · rw [Tally.total_cons, Nat.add_comm]
      · rw [Tally.total_cons, Tally.total_cons, ih, Nat.add_assoc]

/-- No counter of one record is above that of another. -/
structure Diagnostics.AtMost (d e : Diagnostics) : Prop where
  missingGlyphs : ∀ font c,
    Tally.count d.missingGlyphs (font, c) ≤ Tally.count e.missingGlyphs (font, c)
  missingFonts : ∀ name, Tally.count d.missingFonts name ≤ Tally.count e.missingFonts name
  imitatedStyles : d.imitatedStyles ≤ e.imitatedStyles
  placeholderCount : d.placeholderCount ≤ e.placeholderCount

theorem Diagnostics.placeholderCount_record (d : Diagnostics) (incident : Incident) :
    d.placeholderCount ≤ (d.record incident).placeholderCount := by
  cases incident with
  | missingGlyph font c =>
    show _ ≤ Tally.total (Tally.bump _ _ _)
    rw [Tally.total_bump]
    exact Nat.le_succ _
  | _ => exact Nat.le_refl _

theorem Diagnostics.placeholderCount_foldl (d : Diagnostics) (incidents : List Incident) :
    d.placeholderCount ≤ (incidents.foldl record d).placeholderCount := by
  induction incidents generalizing d with
  | nil => exact Nat.le_refl _
  | cons incident rest ih => exact (d.placeholderCount_record incident).trans (ih _)

/-- Further incidents leave no counter lower. -/
theorem Diagnostics.atMost_append (earlier later : List Incident) :
    (ofIncidents earlier).AtMost (ofIncidents (earlier ++ later)) := by
  have sum := isSum_append earlier later
  refine ⟨fun font c => ?_, fun name => ?_, ?_, ?_⟩
  · rw [sum.missingGlyphs]
    exact Nat.le_add_right _ _
  · rw [sum.missingFonts]
    exact Nat.le_add_right _ _
  · rw [sum.imitatedStyles]
    exact Nat.le_add_right _ _
  · rw [ofIncidents, ofIncidents, List.foldl_append]
    exact placeholderCount_foldl _ later

/-! ## Lines -/

variable {α : Type} [Scalar α]

theorem Pass.lines_prefix_run (job : Job α) (p : Pass α) (tokens : List (Token α)) :
    p.lines <+: (p.run job tokens).lines := by
  induction tokens generalizing p with
  | nil => exact List.prefix_rfl
  | cons t rest ih =>
    have grown : p.lines <+: (p.step job t).lines := by
      rcases p.lines_step job t with same | closed
      · rw [same]
      · exact closed ▸ List.prefix_append _ _
    exact grown.trans (ih _)

theorem Pass.lines_prefix_flush (job : Job α) (p : Pass α) : p.lines <+: (p.flush job).lines := by
  unfold Pass.flush
  split
  · exact List.prefix_rfl
  · exact List.prefix_append _ _

/-- How many lines there are once the open line is closed. -/
theorem Pass.length_lines_flush (job : Job α) (p : Pass α) :
    (p.flush job).lines.length = p.lines.length + if p.cursor.isLineEmpty then 0 else 1 := by
  unfold Pass.flush
  split
  · rfl
  · exact List.length_append

theorem Pass.length_lines_flush_le_step (job : Job α) (p : Pass α) (t : Token α) :
    (p.flush job).lines.length ≤ ((p.step job t).flush job).lines.length := by
  have atMost : (p.flush job).lines.length ≤ p.lines.length + 1 := by
    rw [Pass.length_lines_flush]
    split <;> omega
  rcases t.kinds with ⟨c, found⟩ | rfl | quiet
  · -- The run of the content keeps the line that is open now from being dropped.
    have kept : p.lines.length ≤ (p.step job t).lines.length :=
      (p.lines_prefix_run job [t]).length_le
    rw [Pass.length_lines_flush job (p.step job t), Pass.step_content found,
      Pass.isLineEmpty_place, if_neg Bool.false_ne_true, ← Pass.step_content found]
    omega
  · have closed : (p.step job .paragraphBreak).lines.length = p.lines.length + 1 :=
      List.length_append
    have later := ((p.step job .paragraphBreak).lines_prefix_flush job).length_le
    omega
  · have same : p.SameLines (p.step job t) := .step_quiet quiet
    rw [Pass.length_lines_flush, Pass.length_lines_flush, Cursor.isLineEmpty, Cursor.isLineEmpty,
      same.lines, same.runs]

theorem Pass.length_lines_flush_le_run (job : Job α) (p : Pass α) (tokens : List (Token α)) :
    (p.flush job).lines.length ≤ ((p.run job tokens).flush job).lines.length := by
  induction tokens generalizing p with
  | nil => exact Nat.le_refl _
  | cons t rest ih => exact (p.length_lines_flush_le_step job t).trans (ih _)

/-- What stays of a layout when its stream goes on. -/
structure Job.Continued (job : Job α) (before after : List (Token α)) : Prop where
  /-- Every line but the last is the line of the same index, field by field. -/
  finished : (job.layout before).lines.dropLast <+: (job.layout (before ++ after)).lines
  /-- So is the last one where no run is pending. -/
  settled : (job.passAfter before).cursor.runs = [] →
    (job.layout before).lines <+: (job.layout (before ++ after)).lines
  /-- No run is pending after a paragraph break. -/
  ended : before.getLast? = some .paragraphBreak → (job.passAfter before).cursor.runs = []
  length : (job.layout before).lines.length ≤ (job.layout (before ++ after)).lines.length
  diagnostics :
    (job.layout before).diagnostics.AtMost (job.layout (before ++ after)).diagnostics

/-- **Finished lines are never revised**, whatever comes later in the stream. -/
theorem Job.layout_continued (job : Job α) (before after : List (Token α)) :
    job.Continued before after := by
  have closed : (job.passAfter before).lines <+: (job.layout (before ++ after)).lines := by
    rw [job.layout_lines_flush, job.passAfter_append]
    exact (Pass.lines_prefix_run job _ after).trans (Pass.lines_prefix_flush job _)
  have lines := job.layout_lines_closed before
  constructor
  · rw [lines]
    split
    · rw [List.append_nil]
      exact (List.dropLast_prefix _).trans closed
    · rw [List.dropLast_concat]
      exact closed
  · intro bare
    rw [lines, Cursor.isLineEmpty, bare, List.isEmpty_nil, if_pos rfl, List.append_nil]
    exact closed
  · intro ends
    rw [job.twin_opening ends]
    rfl
  · rw [job.layout_lines_flush, job.layout_lines_flush, job.passAfter_append]
    exact Pass.length_lines_flush_le_run job _ after
  · rw [job.diagnostics_layout, job.diagnostics_layout, job.passAfter_append, Pass.incidents_run]
    exact Diagnostics.atMost_append _ _

end Lettering
