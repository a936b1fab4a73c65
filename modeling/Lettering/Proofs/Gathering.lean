import Lettering.Proofs.Closing
import Lettering.Proofs.Commands
import Mathlib.Data.List.Forall2

/-!
# Contents gather on lines

Every content leaves a run on the open line, and the runs stay together when the line closes.  What
is to be known of the runs of a line beside a mark of each of their contents, such as the style or
the margin in force there, is kept by every token that leaves the line open (`Job.Gathers`).  Then
it holds of every line as it closes, and the marks of the lines are those of the stream, in order
(`Job.Gathers.layout`).  What is kept when a run is moved holds of the runs of a layout beside the
contents of the stream (`Job.runs_forall₂`).
-/

namespace Lettering

variable {α β : Type} [Scalar α]

/-- What holds of an open line beside the marks of its contents, for marks that a stream leaves in
order. -/
structure Job.Gathers (job : Job α) (marksOf : List (Token α) → List β)
    (Holds : Pass α → List β → Prop) : Prop where
  start : marksOf [] = []
  silent : ∀ tokens t, t.content? = none → marksOf (tokens ++ [t]) = marksOf tokens
  /-- A line that has just been opened has no marks. -/
  bare : ∀ p : Pass α, p.cursor.runs = [] → p.cursor.maxSize = 0 → Holds p []
  eq_nil : ∀ p marks, Holds p marks → p.cursor.runs = [] → marks = []
  quiet : ∀ tokens t marks, t.Quiet → Holds (job.passAfter tokens) marks →
    Holds ((job.passAfter tokens).step job t) marks
  ready : ∀ tokens c marks,
    (job.passAfter tokens).needsBreak job
        (job.contentWidth (job.passAfter tokens).style c) = false →
      Holds (job.passAfter tokens) marks → Holds ((job.passAfter tokens).ready job c) marks
  /-- Content leaves one mark, on the line that it is placed on. -/
  content : ∀ tokens t c, t.content? = some c → ∃ mark,
    marksOf (tokens ++ [t]) = marksOf tokens ++ [mark] ∧
      ∀ marks, Holds ((job.passAfter tokens).ready job c) marks →
        Holds ((job.passAfter tokens).place job c) (marks ++ [mark])

/-- A pass whose open line closes, with the marks of the line. -/
structure Closing (α β : Type) where
  pass : Pass α
  marks : List β

def Closing.line (job : Job α) (e : Closing α β) : Line α := e.pass.closedLine job

/-- The closings behind a pass and the marks of its open line. -/
structure Pass.Gathered (job : Job α) (marksOf : List (Token α) → List β)
    (Holds : Pass α → List β → Prop) (tokens : List (Token α)) (closed : List (Closing α β))
    (marks : List β) : Prop where
  lines : (job.passAfter tokens).lines = closed.map (Closing.line job)
  marked : marksOf tokens = closed.flatMap Closing.marks ++ marks
  held : ∀ e ∈ closed, Holds e.pass e.marks
  pending : Holds (job.passAfter tokens) marks

variable {job : Job α} {marksOf : List (Token α) → List β} {Holds : Pass α → List β → Prop}
  {tokens : List (Token α)} {t : Token α} {c : Content} {closed : List (Closing α β)}
  {marks : List β}

/-- The closings once the open line is closed. -/
theorem Pass.Gathered.close (now : Pass.Gathered job marksOf Holds tokens closed marks) :
    let all := closed ++ [⟨job.passAfter tokens, marks⟩]
    (job.passAfter tokens).lines ++ [(job.passAfter tokens).closedLine job] =
        all.map (Closing.line job) ∧
      marksOf tokens = all.flatMap Closing.marks ∧ ∀ e ∈ all, Holds e.pass e.marks := by
  refine ⟨?_, ?_, List.forall_mem_append.mpr
    ⟨now.held, List.forall_mem_singleton.mpr now.pending⟩⟩
  · rw [now.lines, List.map_append]
    rfl
  · rw [now.marked, List.flatMap_append, List.flatMap_singleton]

namespace Job.Gathers

variable (gathers : job.Gathers marksOf Holds)

include gathers

theorem place (now : Pass.Gathered job marksOf Holds tokens closed marks)
    (found : t.content? = some c) :
    ∃ closed' marks', Pass.Gathered job marksOf Holds (tokens ++ [t]) closed' marks' := by
  obtain ⟨mark, grown, emitted⟩ := gathers.content tokens t c found
  have step : job.passAfter (tokens ++ [t]) = (job.passAfter tokens).place job c := by
    rw [job.passAfter_concat, Pass.step_content found]
  cases breaks : (job.passAfter tokens).needsBreak job
      (job.contentWidth (job.passAfter tokens).style c) with
  | true =>
    obtain ⟨lines, marked, held⟩ := now.close
    have opened : Holds ((job.passAfter tokens).ready job c) [] := by
      rw [Pass.ready_of_needsBreak breaks]
      exact gathers.bare _ rfl rfl
    refine ⟨_, _, ?_, ?_, held, step ▸ emitted [] opened⟩
    · rw [step, Pass.lines_place_of_needsBreak breaks, lines]
    · rw [grown, marked]
      rfl
  | false =>
    refine ⟨closed, marks ++ [mark], ?_, ?_, now.held,
      step ▸ emitted marks (gathers.ready tokens c marks breaks now.pending)⟩
    · rw [step, Pass.lines_place_of_fits breaks, now.lines]
    · rw [grown, now.marked, List.append_assoc]

theorem passAfter (tokens : List (Token α)) :
    ∃ closed marks, Pass.Gathered job marksOf Holds tokens closed marks := by
  induction tokens using List.reverseRecOn with
  | nil => exact ⟨[], [], rfl, gathers.start, List.forall_mem_nil _, gathers.bare _ rfl rfl⟩
  | append_singleton tokens t ih =>
    obtain ⟨closed, marks, now⟩ := ih
    rcases t.kinds with ⟨c, found⟩ | rfl | quiet
    · exact gathers.place now found
    · obtain ⟨lines, marked, held⟩ := now.close
      refine ⟨_, [], ?_, ?_, held, ?_⟩
      · rw [job.passAfter_concat, ← lines]
        rfl
      · rw [gathers.silent tokens _ rfl, marked, List.append_nil]
      · rw [job.passAfter_concat]
        exact gathers.bare _ rfl rfl
    · refine ⟨closed, marks, ?_, ?_, now.held, ?_⟩
      · rw [job.passAfter_concat, (Pass.SameLines.step_quiet quiet).lines, now.lines]
      · rw [gathers.silent tokens t quiet.content, now.marked]
      · rw [job.passAfter_concat]
        exact gathers.quiet tokens t marks quiet now.pending

/-- The lines of a layout are those of its closings, and its marks are theirs in order. -/
theorem layout (tokens : List (Token α)) :
    ∃ closed : List (Closing α β), (job.layout tokens).lines = closed.map (Closing.line job) ∧
      marksOf tokens = closed.flatMap Closing.marks ∧ ∀ e ∈ closed, Holds e.pass e.marks := by
  obtain ⟨closed, marks, now⟩ := gathers.passAfter tokens
  have flushed := job.layout_lines_closed tokens
  split at flushed
  · next bare =>
    have none : marks = [] := gathers.eq_nil _ _ now.pending (List.isEmpty_iff.mp bare)
    rw [List.append_nil] at flushed
    refine ⟨closed, flushed.trans now.lines, ?_, now.held⟩
    rw [now.marked, none, List.append_nil]
  · obtain ⟨lines, marked, held⟩ := now.close
    exact ⟨_, flushed.trans lines, marked, held⟩

end Job.Gathers

/-! ## Marked runs of a line that closes -/

section Marked

variable {R : β → Run α → Prop}

omit [Scalar α] in
theorem exists_mark {runs : List (Run α)} (all : List.Forall₂ R marks runs) :
    ∀ r ∈ runs, ∃ e, R e r := by
  induction all with
  | nil => exact List.forall_mem_nil _
  | cons first _ ih => exact List.forall_mem_cons.mpr ⟨⟨_, first⟩, ih⟩

theorem spreadFrom_forall₂ (slid : ∀ e r dx, R e r → R e (r.shift dx 0)) (gap pen : α)
    {runs : List (Run α)} (all : List.Forall₂ R marks runs) :
    List.Forall₂ R marks (spreadFrom gap pen runs) := by
  induction all generalizing pen with
  | nil => exact .nil
  | cons first _ ih => exact .cons (slid _ _ _ first) (ih _)

/-- Alignment moves runs sideways alone, and keeps their order. -/
theorem Line.align_forall₂ (slid : ∀ e r dx, R e r → R e (r.shift dx 0)) {l : Line α}
    (all : List.Forall₂ R marks l.runs) (alignment : HorizontalAlignment) (frame : Frame α) :
    List.Forall₂ R marks (l.align alignment frame).runs := by
  have spread : List.Forall₂ R marks (l.spreadRuns alignment frame) := by
    unfold Line.spreadRuns Lettering.spread
    dsimp only
    split
    · split
      · exact all
      · exact spreadFrom_forall₂ slid _ _ all
    · exact all
  unfold Line.align
  split
  · exact all
  · dsimp only [Line.refreshBounds]
    split
    · exact List.forall₂_map_right_iff.mpr (spread.imp fun e r => slid e r _)
    · exact spread

/-- What moving sideways keeps of the runs of an open line, once they are raised, holds of the line
that closes. -/
theorem Pass.closedLine_forall₂ (slid : ∀ e r dx, R e r → R e (r.shift dx 0)) {p : Pass α}
    (job : Job α)
    (raised : List.Forall₂ (fun e r => R e (r.shift 0 ((p.closedLine job).baseline +
      r.charAlignment.rise (p.closedLine job).maxSize r.size))) marks p.cursor.runs) :
    List.Forall₂ R marks (p.closedLine job).runs := by
  rw [p.baseline_closedLine, p.maxSize_closedLine] at raised
  exact Line.align_forall₂ slid (List.forall₂_map_right_iff.mpr raised) _ _

end Marked

/-! ## Runs beside their contents -/

section Contents

variable {R : Style α × Content → Run α → Prop}
  (kept : ∀ e r dx dy, R e r → R e (r.shift dx dy))
  (content : ∀ (t : Token α) c, t.content? = some c → ∀ style pen,
    R (style, c) (job.contentRun style c pen))

include content

/-- The runs of an open line gather beside their contents. -/
theorem Job.gathers_runs : job.Gathers (fun tokens => styledContents (job.styled tokens))
    fun p contents => List.Forall₂ R contents p.cursor.runs where
  start := rfl
  silent tokens t none := job.styledContents_silent none
  bare p noRun noSize := by
    rw [noRun]
    exact .nil
  eq_nil p contents now noRun := by
    rw [noRun] at now
    cases now
    rfl
  quiet tokens t contents quiet now := by
    rw [(Pass.SameLines.step_quiet quiet).runs]
    exact now
  ready tokens c contents fits now := by
    rw [Pass.ready_of_fits fits]
    show List.Forall₂ R contents (job.passAfter tokens).beginContent.cursor.runs
    rw [(Pass.SameLines.beginContent _).runs]
    exact now
  content tokens t c found := by
    refine ⟨((job.passAfter tokens).style, c), job.styledContents_content found,
      fun contents now => ?_⟩
    rw [Pass.runs_place]
    exact List.rel_append now (.cons (content t c found _ _) .nil)

include kept

/-- What holds of the run of every content in every style, and is kept when a run is moved, holds
of the runs of a layout beside the contents of the stream, each in the style in force. -/
theorem Job.runs_forall₂ (tokens : List (Token α)) :
    List.Forall₂ R (styledContents (job.styled tokens)) (job.layout tokens).runs := by
  obtain ⟨closed, lines, contents, held⟩ := (Job.gathers_runs content).layout tokens
  rw [contents, Block.runs, lines]
  clear lines contents
  induction closed with
  | nil => exact .nil
  | cons e rest ih =>
    obtain ⟨first, others⟩ := List.forall_mem_cons.mp held
    rw [List.flatMap_cons, List.map_cons, List.map_cons, List.flatten_cons]
    refine List.rel_append ?_ (ih others)
    exact Pass.closedLine_forall₂ (fun e r dx => kept e r dx 0) job
      (first.imp fun e r => kept e r 0 _)

end Contents

end Lettering
