import Mathlib
import Lettering.Proofs.Isolation

/-!
# Line spacing and flow

The leading of a job, which is its two factors on the line spacing and its flow, says how far apart
the lines stand and on which side of each other.  It reaches nothing else: the same stream under two
leadings makes two passes that differ in their closed lines alone (`Pass.Respaced`), since no token
asks where a line stands.  So the two layouts have the same lines but for their ordinates and
advances in any arithmetic, and in exact arithmetic each line is the other one moved by the
difference of their baselines (`Job.layout_respaced`).
-/

namespace Lettering

section Leadings

variable {α : Type}

/-- The same job with another leading. -/
def Job.withLeading (job : Job α) (leading : Leading α) : Job α :=
  { job with
    entity :=
      { job.entity with lineSpaceFactor := leading.factor, flow := leading.flow }
    settings := { job.settings with spacingConstant := leading.constant } }

/-- Two passes that differ in their closed lines alone, and in those as `R` says. -/
structure Pass.Respaced (R : Line α → Line α → Prop) (p q : Pass α) : Prop where
  twin : p.Twin q
  incidents : q.formatting.incidents = p.formatting.incidents
  lines : List.Forall₂ R p.lines q.lines

end Leadings

section Lawless

variable {α : Type} [Scalar α] {job : Job α} {leading : Leading α} {p q : Pass α} {c : Content}
  {R : Line α → Line α → Prop}

/-! ## One pass, two leadings -/

/-- A pass under another leading closes other lines and does nothing else otherwise. -/
theorem Pass.twin_place_withLeading (p : Pass α) (c : Content) :
    (p.place job c).Twin (p.place (job.withLeading leading) c) := by
  have ready : (p.ready job c).Twin (p.ready (job.withLeading leading) c) := by
    cases breaks : p.needsBreak job (job.contentWidth p.style c) with
    | true =>
      have breaks' : p.needsBreak (job.withLeading leading)
          ((job.withLeading leading).contentWidth p.style c) = true := breaks
      rw [Pass.ready_of_needsBreak breaks, Pass.ready_of_needsBreak breaks']
      rfl
    | false =>
      have fits : p.needsBreak (job.withLeading leading)
          ((job.withLeading leading).contentWidth p.style c) = false := breaks
      rw [Pass.ready_of_fits breaks, Pass.ready_of_fits fits]
      rfl
  have penX : (p.ready (job.withLeading leading) c).penX = (p.ready job c).penX := by
    rw [ready]
    rfl
  rw [Pass.place, Pass.place, penX]
  exact ready.emit _ _ _

theorem Job.apply_withLeading (f : Formatting α) (command : Command α) :
    (job.withLeading leading).apply f command = job.apply f command := by
  cases command <;> rfl

theorem Pass.twin_step_withLeading (p : Pass α) (t : Token α) :
    (p.step job t).Twin (p.step (job.withLeading leading) t) := by
  rcases t.kinds with ⟨c, found⟩ | rfl | quiet
  · rw [Pass.step_content found, Pass.step_content found]
    exact p.twin_place_withLeading c
  · rfl
  · cases t with
    | word text =>
      rw [Pass.step_emptyWord quiet.content, Pass.step_emptyWord quiet.content]
      rfl
    | paragraphBreak => cases quiet.noBreak
    | stack e => cases quiet.content
    | format command =>
      rw [Pass.step, Pass.step, Job.apply_withLeading]
      rfl
    | space | nonBreakingSpace | tab => rfl

theorem Job.incidentsAt_withLeading (style : Style α) (t : Token α) :
    (job.withLeading leading).incidentsAt style t = job.incidentsAt style t := by
  cases t with
  | format command => cases command <;> rfl
  | _ => rfl

/-! ## Two passes -/

/-- What twins make of a line that they close under two leadings. -/
def Job.RespacesAs (job : Job α) (leading : Leading α) (R : Line α → Line α → Prop) : Prop :=
  ∀ p q : Pass α, p.Twin q → R (p.closedLine job) (q.closedLine (job.withLeading leading))

namespace Pass.Respaced

theorem close (now : p.Respaced R q) (respaces : job.RespacesAs leading R) :
    List.Forall₂ R (p.lines ++ [p.closedLine job])
      (q.lines ++ [q.closedLine (job.withLeading leading)]) :=
  List.rel_append now.lines (.cons (respaces p q now.twin) .nil)

theorem step (now : p.Respaced R q) (respaces : job.RespacesAs leading R) (t : Token α) :
    (p.step job t).Respaced R (q.step (job.withLeading leading) t) := by
  refine ⟨(now.twin.step t).trans (q.twin_step_withLeading t), ?_, ?_⟩
  · rw [Pass.incidents_step, Pass.incidents_step, Job.incidentsAt_withLeading, now.twin.style,
      now.incidents]
  · rcases t.kinds with ⟨c, found⟩ | rfl | quiet
    · rw [Pass.step_content found, Pass.step_content found]
      have both : q.needsBreak (job.withLeading leading)
          ((job.withLeading leading).contentWidth q.style c) =
            p.needsBreak job (job.contentWidth p.style c) :=
        (now.twin.needsBreak _).trans (congrArg (fun s => p.needsBreak job (job.contentWidth s c))
          now.twin.style)
      cases breaks : p.needsBreak job (job.contentWidth p.style c) with
      | true =>
        rw [Pass.lines_place_of_needsBreak breaks, Pass.lines_place_of_needsBreak (both.trans breaks)]
        exact now.close respaces
      | false =>
        rw [Pass.lines_place_of_fits breaks, Pass.lines_place_of_fits (both.trans breaks)]
        exact now.lines
    · exact now.close respaces
    · rw [(Pass.SameLines.step_quiet quiet).lines, (Pass.SameLines.step_quiet quiet).lines]
      exact now.lines

theorem run (now : p.Respaced R q) (respaces : job.RespacesAs leading R)
    (tokens : List (Token α)) :
    (p.run job tokens).Respaced R (q.run (job.withLeading leading) tokens) := by
  induction tokens generalizing p q with
  | nil => exact now
  | cons t rest ih => exact ih (now.step respaces t)

theorem flush (now : p.Respaced R q) (respaces : job.RespacesAs leading R) :
    List.Forall₂ R (p.flush job).lines (q.flush (job.withLeading leading)).lines := by
  have empty : q.cursor.isLineEmpty = p.cursor.isLineEmpty := by
    rw [now.twin]
    rfl
  rw [Pass.flush, Pass.flush, empty]
  split
  · exact now.lines
  · exact now.close respaces

end Pass.Respaced

/-- What twins make of one line under two leadings, two layouts make of all their lines. -/
theorem Job.layouts_respaced (respaces : job.RespacesAs leading R) (tokens : List (Token α)) :
    List.Forall₂ R (job.layout tokens).lines ((job.withLeading leading).layout tokens).lines ∧
      ((job.withLeading leading).layout tokens).diagnostics = (job.layout tokens).diagnostics := by
  have start : (Pass.start job).Twin (Pass.start (job.withLeading leading)) := rfl
  have now : (job.passAfter tokens).Respaced R ((job.withLeading leading).passAfter tokens) :=
    Pass.Respaced.run ⟨start, rfl, .nil⟩ respaces tokens
  rw [job.layout_lines_flush, (job.withLeading leading).layout_lines_flush, job.diagnostics_layout,
    (job.withLeading leading).diagnostics_layout, now.incidents]
  exact ⟨now.flush respaces, rfl⟩

/-! ## One line, two leadings -/

/-- Alignment does not look at the advance of a line. -/
theorem Line.align_advancing (advance : α) (l : Line α) (alignment : HorizontalAlignment)
    (frame : Frame α) :
    (l.advancing advance).align alignment frame = (l.align alignment frame).advancing advance := by
  unfold Line.align
  rw [show (l.advancing advance).contentEnd = l.contentEnd from rfl]
  split <;> rfl

theorem Job.respacesAs_alike (job : Job α) (leading : Leading α) :
    job.RespacesAs leading fun l m => l.Alike (m.advancing l.advance) := by
  intro p q twin
  obtain ⟨column, incidents, rfl⟩ := twin.exists_behind
  have line : (p.cursor.line job.leading p.style.effectiveSize).Alike
      (((p.behind column incidents).cursor.line leading p.style.effectiveSize).advancing
        (p.closedLine job).advance) := by
    refine ⟨rfl, p.advance_closedLine job, rfl, ?_⟩
    exact List.rel_map (fun _ _ alike => alike.shift 0 _ _)
      (List.forall₂_same.mpr fun r _ => Run.Alike.refl r)
  have aligned := line.align p.paragraph.alignment (p.frame job)
  rw [Line.align_advancing] at aligned
  exact aligned

end Lawless

/-! ## Exact arithmetic -/

section Exact

variable {α : Type} [ExactScalar α]

/-- Boxes between the same abscissas, both empty or neither. -/
structure Box.Upright (b c : Box α) : Prop where
  isEmpty : c.isEmpty = b.isEmpty
  left : c.lo.x = b.lo.x
  right : c.hi.x = b.hi.x

theorem Box.upright_shift (b : Box α) (dy : α) : b.Upright (b.shift 0 dy) := by
  refine ⟨b.isEmpty_shift 0 dy, ?_, ?_⟩
  all_goals
    unfold Box.shift
    split
    · rfl
    · exact add_zero _

theorem Box.Upright.union {b b' c c' : Box α} (first : b.Upright b') (second : c.Upright c') :
    (b.union c).Upright (b'.union c') := by
  refine ⟨by rw [Box.isEmpty_union, Box.isEmpty_union, first.isEmpty, second.isEmpty], ?_, ?_⟩
  · rw [Box.union, Box.union, first.isEmpty, second.isEmpty]
    split
    · exact first.left
    · split
      · exact second.left
      · simp only [Box.extend, first.left, second.left, second.right]
  · rw [Box.union, Box.union, first.isEmpty, second.isEmpty]
    split
    · exact first.right
    · split
      · exact second.right
      · simp only [Box.extend, first.right, second.left, second.right]

theorem Box.Upright.unions {boxes boxes' : List (Box α)}
    (upright : List.Forall₂ Box.Upright boxes boxes') :
    (Box.unions boxes).Upright (Box.unions boxes') := by
  have from_any {b b' : Box α} (start : b.Upright b') :
      (boxes.foldl Box.union b).Upright (boxes'.foldl Box.union b') := by
    induction upright generalizing b b' with
    | nil => exact start
    | cons first _ ih => exact ih (start.union first)
  exact from_any ⟨rfl, rfl, rfl⟩

/-- The line `m` is the line `l` moved to a baseline of its own, with an advance of its own. -/
def Line.Moves (l m : Line α) : Prop :=
  m = (l.raise (m.baseline - l.baseline)).advancing m.advance

theorem Job.respacesAs_moves (job : Job α) (leading : Leading α) :
    job.RespacesAs leading Line.Moves := by
  intro p q twin
  let dy := q.cursor.lineBaseline leading q.style.effectiveSize -
    p.cursor.lineBaseline job.leading p.style.effectiveSize
  have higher : q.cursor.lineBaseline leading q.style.effectiveSize =
      p.cursor.lineBaseline job.leading p.style.effectiveSize + dy := (add_sub_cancel _ _).symm
  have paragraph : q.paragraph = p.paragraph := by
    rw [twin]
    rfl
  have frame : q.frame (job.withLeading leading) = p.frame job := by
    rw [twin]
    rfl
  have moved : q.closedLine (job.withLeading leading) =
      ((p.closedLine job).raise dy).advancing
        (q.cursor.lineAdvance leading q.style.effectiveSize) := by
    show (q.cursor.line leading q.style.effectiveSize).align q.paragraph.alignment _ = _
    rw [twin.line_raise higher, paragraph, frame, Line.align_advancing, Line.align_raise]
    rfl
  have distance : (q.closedLine (job.withLeading leading)).baseline -
      (p.closedLine job).baseline = dy := by
    rw [Pass.baseline_closedLine, Pass.baseline_closedLine]
    rfl
  rw [Line.Moves, distance, moved]
  rfl

/-- Lines that only moved up or down leave the sides of the block where they are. -/
theorem Block.upright_unions {lines lines' : List (Line α)}
    (moves : List.Forall₂ Line.Moves lines lines') :
    (Box.unions (lines.map (·.bounds))).Upright (Box.unions (lines'.map (·.bounds))) := by
  refine Box.Upright.unions (List.rel_map (fun l m moved => ?_) moves)
  rw [moved]
  exact l.bounds.upright_shift _

end Exact

/-! ## Whole layouts -/

/-- Two blocks with the same lines but for their ordinates and advances, and the same counts. -/
structure Block.Respaced {α : Type} [Scalar α] (b c : Block α) : Prop where
  lines : List.Forall₂ (fun l m => l.Alike (m.advancing l.advance)) b.lines c.lines
  diagnostics : c.diagnostics = b.diagnostics

/-- Two blocks each line of which is the other one moved by the difference of their baselines, with
an advance of its own, between the same sides. -/
structure Block.MovedLines {α : Type} [ExactScalar α] (b c : Block α) : Prop where
  lines : List.Forall₂ Line.Moves b.lines c.lines
  left : c.bounds.lo.x = b.bounds.lo.x
  right : c.bounds.hi.x = b.bounds.hi.x

/-- **Line spacing and flow move lines only vertically.**  Under any two leadings a stream gets the
same lines but for their ordinates and advances, and the same counts, in any arithmetic; in exact
arithmetic all that a line holds is moved by the difference of the two baselines. -/
theorem Job.layout_respaced :
    (∀ {α : Type} [Scalar α] (job : Job α) (leading : Leading α) (tokens : List (Token α)),
      (job.layout tokens).Respaced ((job.withLeading leading).layout tokens)) ∧
    ∀ {α : Type} [ExactScalar α] (job : Job α) (leading : Leading α) (tokens : List (Token α)),
      (job.layout tokens).MovedLines ((job.withLeading leading).layout tokens) := by
  constructor
  · intro α _ job leading tokens
    obtain ⟨lines, diagnostics⟩ := Job.layouts_respaced (job.respacesAs_alike leading) tokens
    exact ⟨lines, diagnostics⟩
  · intro α _ job leading tokens
    obtain ⟨lines, -⟩ := Job.layouts_respaced (job.respacesAs_moves leading) tokens
    have sides := Block.upright_unions lines
    exact ⟨lines, sides.left, sides.right⟩

end Lettering
