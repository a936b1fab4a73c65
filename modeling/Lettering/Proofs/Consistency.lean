import Mathlib
import Lettering.Font.BoxFonts
import Lettering.Proofs.Bands

/-!
# Consistent passes

What a pass keeps of the open line, of the closed lines and of where it stands hangs together
between any two tokens (`Pass.Consistent`).  Within a token it need not: content that has to go to a
new line leaves that line without a run until its own is emitted.  So the invariant is kept by whole
tokens (`Pass.Consistent.step`), in scalars of any kind.

In exact arithmetic the size of the open line is that of its largest run, zero if it has none
(`Cursor.SizedByRuns`).  This rests on the sizes of runs being positive, since a line starts with
the size zero and forgets every size that is not above.
-/

namespace Lettering

/-! ## Whole tokens -/

section Steps

variable {α : Type} [Scalar α] {p : Pass α} {t : Token α}

/-- What holds of a pass between two tokens. -/
structure Pass.Consistent (p : Pass α) : Prop where
  /-- The height, the number of lines and the last baseline are those of the closed lines. -/
  measured : p.column.Measured
  /-- Behind a paragraph break the open line is as it was opened. -/
  fresh : p.phase = .atParagraphBreak →
    p.cursor.runs = [] ∧ p.cursor.pen = 0 ∧ p.cursor.startsParagraph = true
  /-- A line that opens no paragraph was opened for content. -/
  continued : p.cursor.startsParagraph = false → p.cursor.runs ≠ []

theorem Pass.consistent_start (job : Job α) : (Pass.start job).Consistent := by
  refine ⟨.start, fun _ => ⟨rfl, rfl, rfl⟩, fun continues => ?_⟩
  cases continues

/-- A quiet token that leaves a pass at the start of a paragraph found it there and moved no pen. -/
theorem Pass.cursor_step_quiet {job : Job α} (quiet : t.Quiet)
    (outside : (p.step job t).phase = .atParagraphBreak) :
    p.phase = .atParagraphBreak ∧ (p.step job t).cursor = p.cursor := by
  cases t with
  | word text =>
    rw [Pass.step_emptyWord quiet.content] at outside ⊢
    exact ⟨outside, rfl⟩
  | space | nonBreakingSpace | tab => exact Phase.noConfusion outside
  | paragraphBreak => cases quiet.noBreak
  | stack e => cases quiet.content
  | format command => exact ⟨outside, rfl⟩

namespace Pass.Consistent

/-- Content ends up on a line with its run, whether it has closed the line before or not. -/
theorem place (now : p.Consistent) (job : Job α) (c : Content) : (p.place job c).Consistent := by
  refine ⟨?_, fun outside => ?_, fun _ => ?_⟩
  · rw [Pass.column_place]
    split
    · exact now.measured.close _
    · exact now.measured
  · exact (p.phase_place_ne job c outside).elim
  · exact List.isEmpty_eq_false_iff.mp (Pass.isLineEmpty_place job c p)

theorem breakParagraph (now : p.Consistent) (job : Job α) : (p.breakParagraph job).Consistent := by
  refine ⟨?_, fun _ => ⟨rfl, rfl, rfl⟩, fun continues => ?_⟩
  · rw [Pass.column_breakParagraph]
    exact now.measured.close _
  · cases continues

theorem step_quiet (now : p.Consistent) {job : Job α} (quiet : t.Quiet) :
    (p.step job t).Consistent := by
  have same : p.SameLines (p.step job t) := Pass.SameLines.step_quiet quiet
  refine ⟨?_, fun outside => ?_, fun continues => ?_⟩
  · rw [same.column]
    exact now.measured
  · obtain ⟨before, cursor⟩ := Pass.cursor_step_quiet quiet outside
    rw [cursor]
    exact now.fresh before
  · rw [same.startsParagraph] at continues
    rw [same.runs]
    exact now.continued continues

theorem step (now : p.Consistent) (job : Job α) (t : Token α) : (p.step job t).Consistent := by
  rcases t.kinds with ⟨c, found⟩ | rfl | quiet
  · rw [Pass.step_content found]
    exact now.place job c
  · exact now.breakParagraph job
  · exact now.step_quiet quiet

theorem run (now : p.Consistent) (job : Job α) (tokens : List (Token α)) :
    (p.run job tokens).Consistent := by
  induction tokens generalizing p with
  | nil => exact now
  | cons t rest ih => exact ih (now.step job t)

end Pass.Consistent

end Steps

/-! ## The size of the open line -/

variable {α : Type} [ExactScalar α]

/-- The size of the open line is the greatest of its runs, zero if there is none. -/
structure Cursor.SizedByRuns (c : Cursor α) : Prop where
  bare : c.runs = [] → c.maxSize = 0
  greatest : c.runs ≠ [] → IsGreatest {size | size ∈ c.runs.map Run.size} c.maxSize

theorem Cursor.Sets.sizedByRuns {job : Job α} {p : Pass α} {contents : List (Style α × Content)}
    (script : 0 < job.settings.scriptScale) (now : p.cursor.Sets job contents) :
    p.cursor.SizedByRuns := by
  refine ⟨fun bare => ?_, now.greatest script⟩
  rcases now.attained with zero | ⟨r, member, -⟩
  · exact zero
  · rw [bare] at member
    cases member

theorem Job.passAfter_sizedByRuns (job : Job α) (script : 0 < job.settings.scriptScale)
    (tokens : List (Token α)) : (job.passAfter tokens).cursor.SizedByRuns := by
  obtain ⟨closed, contents, now⟩ := job.gathers_styledContents.passAfter tokens
  exact now.pending.sizedByRuns script

/-- **A pass is consistent between any two tokens**, and in exact arithmetic the size of its open
line is that of the largest run. -/
theorem Job.passes_consistent :
    (∀ (β : Type) [Scalar β] (job : Job β) (tokens : List (Token β)),
      (job.passAfter tokens).Consistent) ∧
    ∀ (β : Type) [ExactScalar β] (job : Job β), 0 < job.settings.scriptScale →
      ∀ tokens : List (Token β), (job.passAfter tokens).cursor.SizedByRuns := by
  constructor
  · intro β _ job tokens
    exact (Pass.consistent_start job).run job tokens
  · intro β _ job script tokens
    exact job.passAfter_sizedByRuns script tokens

/-- A small word and a high stack that wait on a line behind a paragraph break. -/
theorem Job.passes_consistent_pending :
    let job : Job ℝ :=
      { fonts := BoxFonts.standard.source
        palette := fun _ => none
        colors := {}
        settings := Settings.standard
        entity := { Entity.standard with width := 10 } }
    let tokens : List (Token ℝ) :=
      [.word (.text "closed"), .paragraphBreak, .word (.text "low"), .space,
        .format (.height (.absolute 3)), .stack ⟨"1", "2", .line⟩]
    0 < job.settings.scriptScale ∧ (job.passAfter tokens).cursor.runs ≠ [] ∧
      (job.passAfter tokens).Consistent ∧ (job.passAfter tokens).cursor.SizedByRuns := by
  intro job tokens
  have script : 0 < job.settings.scriptScale := by norm_num [job, Settings.standard]
  have pending : (job.passAfter tokens).cursor.isLineEmpty = false :=
    Pass.isLineEmpty_place job (.stack ⟨"1", "2", .line⟩) _
  obtain ⟨consistent, sized⟩ := Job.passes_consistent
  exact ⟨script, List.isEmpty_eq_false_iff.mp pending, consistent ℝ job tokens,
    sized ℝ job script tokens⟩

end Lettering
