import Mathlib
import Lettering.Proofs.Plumb
import Lettering.Proofs.ScaledTexts

/-!
# Layouts at another scale

A layout scales with its drawing (`Job.layout_scales`): a pass that runs over a scaled text does at
every token what the pass over the text did, with all its lengths scaled (`Pass.step_scale`).  Every
decision is taken by comparing two lengths, or a length with zero, and every length that a pass adds
is a multiple of a length that it was given.
-/

namespace Lettering

variable {α : Type} [ExactScalar α]

def Cursor.scale (k : α) (cursor : Cursor α) : Cursor α :=
  { cursor with
    pen := k * cursor.pen
    baseline := k * cursor.baseline
    maxSize := k * cursor.maxSize
    runs := cursor.runs.map (Run.scale k) }

def Frame.scale (k : α) (frame : Frame α) : Frame α where
  leftMargin := k * frame.leftMargin
  indent := k * frame.indent
  usable := frame.usable.map (k * ·)

def Pass.scale (k : α) (p : Pass α) : Pass α where
  formatting := p.formatting.scale k
  cursor := p.cursor.scale k
  phase := p.phase
  lines := p.lines.map (Line.scale k)
  height := k * p.height

/-! ## The open line -/

theorem VerticalAlignment.rise_scale (k : α) (a : VerticalAlignment) (maxSize size : α) :
    a.rise (k * maxSize) (k * size) = k * a.rise maxSize size := by
  cases a <;> simp only [VerticalAlignment.rise, mul_zero, ← mul_sub, Scalar.half_scale]

theorem Leading.advance_scale (k : α) (l : Leading α) (index : Nat) (maxSize current : α) :
    l.advance index (k * maxSize) (k * current) = k * l.advance index maxSize current := by
  unfold Leading.advance
  split
  · rfl
  · ring

section Positive

variable {k : α} (pos : 0 < k)

include pos

namespace Cursor

variable (cursor : Cursor α)

omit pos in
theorem move_scale (k dx : α) : (cursor.scale k).move (k * dx) = (cursor.move dx).scale k := by
  simp only [move, Cursor.scale, mul_add]

omit pos in
theorem push_scale (k : α) (run : Run α) :
    (cursor.scale k).push (run.scale k) = (cursor.push run).scale k := by
  simp only [push, Cursor.scale, List.map_append, List.map_cons, List.map_nil]

theorem recordSize_scale (size : α) :
    (cursor.scale k).recordSize (k * size) = (cursor.recordSize size).scale k := by
  simp only [recordSize, show (cursor.scale k).maxSize = k * cursor.maxSize from rfl,
    mul_lt_mul_iff_of_pos_left pos]
  split <;> rfl

theorem lineSize_scale (current : α) :
    (cursor.scale k).lineSize (k * current) = k * cursor.lineSize current := by
  simp only [lineSize, show (cursor.scale k).maxSize = k * cursor.maxSize from rfl,
    mul_pos_iff_of_pos_left pos]
  split <;> rfl

theorem lineAdvance_scale (leading : Leading α) (current : α) :
    (cursor.scale k).lineAdvance leading (k * current) =
      k * cursor.lineAdvance leading current := by
  rw [lineAdvance, cursor.lineSize_scale pos, Leading.advance_scale]
  rfl

theorem lineBaseline_scale (leading : Leading α) (current : α) :
    (cursor.scale k).lineBaseline leading (k * current) =
      k * cursor.lineBaseline leading current := by
  simp only [lineBaseline, cursor.lineSize_scale pos, cursor.lineAdvance_scale pos,
    show (cursor.scale k).lineCount = cursor.lineCount from rfl,
    show (cursor.scale k).baseline = k * cursor.baseline from rfl]
  split
  · split
    · exact (mul_zero k).symm
    · exact (mul_neg k _).symm
  · rw [mul_left_comm, mul_add]

theorem line_scale (leading : Leading α) (current : α) :
    (cursor.scale k).line leading (k * current) = (cursor.line leading current).scale k := by
  have raised (r : Run α) (baseline maxSize : α) :
      (r.scale k).shift 0 (k * baseline + r.charAlignment.rise (k * maxSize) (k * r.size)) =
        (r.shift 0 (baseline + r.charAlignment.rise maxSize r.size)).scale k := by
    rw [Run.scale_shift pos, VerticalAlignment.rise_scale, mul_zero, mul_add]
  have runs (baseline maxSize : α) :
      ((cursor.scale k).runs.map fun r => r.shift 0 (k * baseline +
          r.charAlignment.rise (k * maxSize) r.size)) =
        (cursor.runs.map fun r => r.shift 0 (baseline +
          r.charAlignment.rise maxSize r.size)).map (Run.scale k) := by
    simp only [List.map_map, Function.comp_def, ← raised]
    exact List.map_map
  simp only [line, cursor.lineSize_scale pos, cursor.lineAdvance_scale pos,
    cursor.lineBaseline_scale pos, runs, Line.scale_refreshBounds pos]
  simp only [Line.scale, Box.scale_empty]
  rfl

theorem next_scale (leading : Leading α) (current : α) (startsParagraph : Bool) :
    (cursor.scale k).next leading (k * current) startsParagraph =
      (cursor.next leading current startsParagraph).scale k := by
  rw [next, cursor.lineBaseline_scale pos, next]
  simp only [Cursor.scale, mul_zero, List.map_nil]

end Cursor

/-! ## Alignment -/

theorem Line.contentEnd_scale (l : Line α) :
    (l.scale k).contentEnd = l.contentEnd.map (k * ·) := by
  have ends : (l.scale k).runs.map Run.endX = (l.runs.map Run.endX).map (k * ·) := by
    simp only [Line.scale, List.map_map, Function.comp_def, Run.endX_scale]
  rw [Line.contentEnd_eq, Line.contentEnd_eq, ends]
  cases l.runs.map Run.endX with
  | nil => rfl
  | cons stop rest =>
    exact congrArg some
      (Scalar.foldl_greater_map (strictMono_mul_left_of_pos pos).monotone stop rest)

omit pos in
theorem Frame.offset_scale (frame : Frame α) (alignment : HorizontalAlignment) (stop : α) :
    (frame.scale k).offset alignment (k * stop) = k * frame.offset alignment stop := by
  obtain ⟨leftMargin, indent, usable⟩ := frame
  cases alignment <;> cases usable <;>
    simp only [Frame.offset, Frame.scale, Frame.start, Option.map_some, Option.map_none,
      Scalar.half_eq_div_two, mul_zero] <;>
    ring

theorem spreadFrom_scale (gap pen : α) (runs : List (Run α)) :
    spreadFrom (k * gap) (k * pen) (runs.map (Run.scale k)) =
      (spreadFrom gap pen runs).map (Run.scale k) := by
  induction runs generalizing pen with
  | nil => rfl
  | cons r rest ih =>
    have start : k * pen - (r.scale k).startX = k * (pen - r.startX) := (mul_sub _ _ _).symm
    have next : k * pen + ((r.scale k).width + k * gap) = k * (pen + (r.width + gap)) := by
      rw [mul_add, mul_add]
      rfl
    rw [List.map_cons, spreadFrom, start, next, ih, spreadFrom, List.map_cons,
      Run.scale_shift pos, mul_zero]

theorem spread_scale (start width : α) (runs : List (Run α)) :
    spread (k * start) (k * width) (runs.map (Run.scale k)) =
      (spread start width runs).map (Run.scale k) := by
  have content : Scalar.sum ((runs.map (Run.scale k)).map (·.width)) =
      k * Scalar.sum (runs.map (·.width)) := by
    rw [← Scalar.sum_scale, List.map_map, List.map_map]
    rfl
  simp only [spread, content, List.length_map, mul_le_mul_iff_of_pos_left pos]
  split
  · rfl
  · rw [← mul_sub, mul_div_assoc, spreadFrom_scale pos]

theorem Line.spreadRuns_scale (l : Line α) (alignment : HorizontalAlignment) (frame : Frame α) :
    (l.scale k).spreadRuns alignment (frame.scale k) =
      (l.spreadRuns alignment frame).map (Run.scale k) := by
  obtain ⟨leftMargin, indent, usable⟩ := frame
  cases alignment with
  | distributed =>
    cases usable with
    | none => rfl
    | some usable =>
      show spread (k * leftMargin + k * indent) (k * usable - k * indent) _ = _
      rw [← mul_add, ← mul_sub]
      exact spread_scale pos _ _ l.runs
  | _ => rfl

theorem Line.align_scale (l : Line α) (alignment : HorizontalAlignment) (frame : Frame α) :
    (l.scale k).align alignment (frame.scale k) = (l.align alignment frame).scale k := by
  unfold Line.align
  rw [l.contentEnd_scale pos]
  cases l.contentEnd with
  | none => rfl
  | some stop =>
    have still (dx : α) : (k * dx != 0) = (dx != 0) := by
      show (!decide (k * dx = 0)) = !decide (dx = 0)
      simp only [mul_eq_zero, pos.ne', false_or]
    have moved (dx : α) : ((l.spreadRuns alignment frame).map (Run.scale k)).map
          (fun r => r.shift (k * dx) 0) =
        ((l.spreadRuns alignment frame).map fun r => r.shift dx 0).map (Run.scale k) := by
      simp only [List.map_map, Function.comp_def, Run.scale_shift pos, mul_zero]
    dsimp only [Option.map_some]
    rw [frame.offset_scale, l.spreadRuns_scale pos, Line.scale_refreshBounds pos, still, moved,
      ← apply_ite (List.map (Run.scale k))]
    rfl

end Positive

/-! ## Steps -/

section Steps

variable {k : α} (pos : 0 < k) {job : Job α} (p : Pass α)

theorem Pass.report_scale (incidents : List Incident) :
    (p.scale k).report incidents = (p.report incidents).scale k := rfl

theorem Pass.isLineEmpty_scale : (p.scale k).cursor.isLineEmpty = p.cursor.isLineEmpty :=
  List.isEmpty_map

theorem Pass.beginContent_scale : (p.scale k).beginContent = p.beginContent.scale k := by
  unfold Pass.beginContent
  rw [p.isLineEmpty_scale]
  by_cases begins : p.phase = .atParagraphBreak ∧ p.cursor.isLineEmpty = true
  · exact (if_pos begins).trans (by rw [if_pos begins]; rfl)
  · exact (if_neg begins).trans (by rw [if_neg begins])

theorem Pass.penX_scale : (p.scale k).penX = k * p.penX := (mul_add _ _ _).symm

include pos

theorem Pass.usable_scale :
    (p.scale k).paragraph.usableWidth (job.scale k).entity.width =
      (p.paragraph.usableWidth job.entity.width).map (k * ·) :=
  p.paragraph.usableWidth_scale pos job.entity.width

theorem Pass.frame_scale : (p.scale k).frame (job.scale k) = (p.frame job).scale k := by
  have indent : (if p.cursor.startsParagraph then k * p.paragraph.indent else 0) =
      k * if p.cursor.startsParagraph then p.paragraph.indent else 0 := by
    rw [mul_ite, mul_zero]
  exact congr (congrArg (Frame.mk _) indent) (p.usable_scale pos)

theorem Pass.closedLine_scale :
    (p.scale k).closedLine (job.scale k) = (p.closedLine job).scale k := by
  have size : (p.scale k).style.effectiveSize = k * p.style.effectiveSize :=
    p.style.effectiveSize_scale k
  rw [Pass.closedLine, size, p.frame_scale pos]
  show Line.align ((p.cursor.scale k).line job.leading _) _ _ = _
  rw [p.cursor.line_scale pos]
  exact Line.align_scale pos _ _ _

theorem Pass.breakLine_scale (startsParagraph : Bool) :
    (p.scale k).breakLine (job.scale k) startsParagraph =
      (p.breakLine job startsParagraph).scale k := by
  have size : (p.scale k).style.effectiveSize = k * p.style.effectiveSize :=
    p.style.effectiveSize_scale k
  have cursor : (p.scale k).cursor.next job.leading (k * p.style.effectiveSize) startsParagraph =
      (p.cursor.next job.leading p.style.effectiveSize startsParagraph).scale k :=
    p.cursor.next_scale pos _ _ _
  have lines : (p.scale k).lines ++ [(p.closedLine job).scale k] =
      (p.lines ++ [p.closedLine job]).map (Line.scale k) := by
    rw [List.map_append]
    rfl
  have height : (p.scale k).height + ((p.closedLine job).scale k).advance =
      k * (p.height + (p.closedLine job).advance) := (mul_add _ _ _).symm
  unfold Pass.breakLine
  rw [p.closedLine_scale pos, size]
  dsimp only
  rw [lines, height]
  exact congrArg (Pass.mk (p.formatting.scale k) · p.phase _ _) cursor

theorem Pass.breakParagraph_scale :
    (p.scale k).breakParagraph (job.scale k) = (p.breakParagraph job).scale k := by
  have plain := Paragraph.scale_plain k job.entity.attachment.alignment
  unfold Pass.breakParagraph
  rw [p.breakLine_scale pos]
  exact congrArg (fun paragraph => Pass.mk ⟨_, paragraph, _⟩ _ .atParagraphBreak _ _) plain.symm

theorem Pass.needsBreak_scale (width : α) :
    (p.scale k).needsBreak (job.scale k) (k * width) = p.needsBreak job width := by
  unfold Pass.needsBreak
  rw [p.isLineEmpty_scale, p.usable_scale pos]
  refine congrArg
    ((decide (p.phase = .atWordBoundary) && !p.cursor.isLineEmpty) && ·) ?_
  cases p.paragraph.usableWidth job.entity.width with
  | none => rfl
  | some usable =>
    refine decide_eq_decide.mpr ?_
    show k * usable < k * p.cursor.pen + k * width ↔ _
    rw [← mul_add, mul_lt_mul_iff_of_pos_left pos]

theorem Pass.emit_scale (run : Run α) (dx : α) (phase : Phase) :
    (p.scale k).emit (run.scale k) (k * dx) phase = (p.emit run dx phase).scale k := by
  have recorded : (p.scale k).cursor.recordSize (run.scale k).size =
      (p.cursor.recordSize run.size).scale k := p.cursor.recordSize_scale pos run.size
  rw [Pass.emit, recorded, Cursor.push_scale, Cursor.move_scale]
  rfl

omit pos in
theorem Pass.addBlank_scale (phase : Phase) :
    (p.scale k).addBlank phase = (p.addBlank phase).scale k := by
  have blank : (p.scale k).style.blankWidth * (p.scale k).style.wordSpace =
      k * (p.style.blankWidth * p.style.wordSpace) := mul_assoc _ _ _
  have moved := p.beginContent.cursor.move_scale k (p.style.blankWidth * p.style.wordSpace)
  rw [Pass.addBlank, p.beginContent_scale, blank]
  exact congrArg (Pass.mk _ · phase _ _) moved

/-- A pen is as many default tab stops from the margin as it was. -/
theorem Pass.tabTarget_scale (pen : α) :
    (p.scale k).tabTarget (job.scale k) (k * pen) = k * p.tabTarget job pen := by
  have step : (job.scale k).settings.tabSize * (p.scale k).style.blankWidth =
      k * (job.settings.tabSize * p.style.blankWidth) := mul_left_comm _ _ _
  have stop : (p.scale k).paragraph.nextTab (k * pen) = (p.paragraph.nextTab pen).map (k * ·) :=
    p.paragraph.nextTab_scale pos pen
  rw [Pass.tabTarget, Pass.tabTarget, step, stop]
  cases p.paragraph.nextTab pen with
  | some stop => rfl
  | none =>
    simp only [Option.map_none, mul_pos_iff_of_pos_left pos, mul_div_mul_left _ _ pos.ne',
      mul_left_comm _ k, mul_ite]

theorem Pass.addTab_scale : (p.scale k).addTab (job.scale k) = (p.addTab job).scale k := by
  have target : (p.beginContent.scale k).tabTarget (job.scale k) (k * p.beginContent.cursor.pen) =
      k * p.beginContent.tabTarget job p.beginContent.cursor.pen :=
    p.beginContent.tabTarget_scale pos _
  rw [Pass.addTab, p.beginContent_scale]
  exact congrArg (fun pen => Pass.mk _ { p.beginContent.cursor.scale k with pen := pen }
    .atWordBoundary _ _) target

variable (same : job.fonts.Homogeneous k)

include same

theorem Pass.ready_scale (c : Content) :
    (p.scale k).ready (job.scale k) c = (p.ready job c).scale k := by
  have incidents : (job.scale k).contentIncidents (p.scale k).style c =
      job.contentIncidents p.style c := Resources.contentIncidents_scale same p.style c
  have width : (job.scale k).contentWidth (p.scale k).style c = k * job.contentWidth p.style c :=
    Resources.contentWidth_scale same pos p.style c
  rw [Pass.ready, Pass.wrap, p.beginContent_scale, incidents, width, Pass.report_scale,
    Pass.needsBreak_scale pos, Pass.breakLine_scale pos, Pass.ready, Pass.wrap]
  exact (apply_ite (Pass.scale k) _ _ _).symm

theorem Pass.place_scale (c : Content) :
    (p.scale k).place (job.scale k) c = (p.place job c).scale k := by
  have run : (job.scale k).contentRun (p.scale k).style c (k * (p.ready job c).penX) =
      (job.contentRun p.style c (p.ready job c).penX).scale k :=
    Resources.contentRun_scale same pos p.style c _
  have advance : (job.scale k).contentAdvance (p.scale k).style c =
      k * job.contentAdvance p.style c := Resources.contentAdvance_scale same pos p.style c
  rw [Pass.place, p.ready_scale pos same, Pass.penX_scale, run, advance, Pass.emit_scale pos]
  rfl

variable (relative : job.settings.legacyWidthFactor = false)

include relative

/-- A token with its lengths scaled does to the scaled pass what it did. -/
theorem Pass.step_scale (t : Token α) :
    (p.scale k).step (job.scale k) (t.scale k) = (p.step job t).scale k := by
  rcases t.kinds with ⟨c, found⟩ | rfl | quiet
  · have scaled : (t.scale k).content? = some c := (t.content?_scale k).trans found
    rw [Pass.step_content found, Pass.step_content scaled, p.place_scale pos same]
  · exact p.breakParagraph_scale pos
  · cases t with
    | word text =>
      rw [Pass.step_emptyWord quiet.content]
      exact Pass.step_emptyWord quiet.content
    | space | nonBreakingSpace => exact p.addBlank_scale _
    | tab => exact p.addTab_scale pos
    | paragraphBreak => cases quiet.noBreak
    | stack e => cases quiet.content
    | format command =>
      have applied := Job.apply_scale pos relative p.formatting command
      exact congrArg (Pass.mk · _ _ _ _) applied

theorem Pass.run_scale (tokens : List (Token α)) :
    (p.scale k).run (job.scale k) (tokens.map (Token.scale k)) = (p.run job tokens).scale k := by
  induction tokens generalizing p with
  | nil => rfl
  | cons t rest ih =>
    show ((p.scale k).step (job.scale k) (t.scale k)).run (job.scale k) _ = _
    rw [p.step_scale pos same relative, ih]
    rfl

end Steps

/-! ## Layouts -/

theorem Pass.start_scale {k : α} (pos : 0 < k) {job : Job α} (height : 0 < job.entity.height) :
    Pass.start (job.scale k) = (Pass.start job).scale k := by
  have cursor : (Cursor.start : Cursor α).scale k = .start := by
    simp only [Cursor.start, Cursor.scale, mul_zero, List.map_nil]
  rw [Pass.start, Job.baseFormatting_scale pos height, Pass.start, Pass.scale, cursor, mul_zero]
  rfl

theorem Pass.flush_scale {k : α} (pos : 0 < k) (job : Job α) (p : Pass α) :
    (p.scale k).flush (job.scale k) = (p.flush job).scale k := by
  unfold Pass.flush
  rw [p.isLineEmpty_scale, p.breakLine_scale pos]
  exact (apply_ite (Pass.scale k) _ _ _).symm

theorem Pass.block_scale {k : α} (pos : 0 < k) (p : Pass α) :
    (p.scale k).block = p.block.scale k := by
  rw [Pass.block, Pass.block, Block.scale_refreshBounds pos, Block.scale,
    Box.scale_empty]
  rfl

/-- **A layout scales with its drawing**, and so does the text at its place. -/
theorem Job.layout_scales (job : Job α) {k : α} (pos : 0 < k) (same : job.fonts.Homogeneous k)
    (relative : job.settings.legacyWidthFactor = false) (height : 0 < job.entity.height)
    (tokens : List (Token α)) :
    (job.scale k).layout (tokens.map (Token.scale k)) = (job.layout tokens).scale k ∧
      (job.scale k).render (tokens.map (Token.scale k)) = (job.render tokens).scale k := by
  have layout : (job.scale k).layout (tokens.map (Token.scale k)) =
      (job.layout tokens).scale k := by
    rw [Job.layout, Pass.start_scale pos height, Pass.run_scale pos _ same relative,
      Pass.flush_scale pos, Pass.block_scale pos]
    rfl
  refine ⟨layout, ?_⟩
  rw [Job.render, layout, Job.render, Block.scale_place pos]
  rfl

/-- Three times as large: a text that wraps, with an indent, tab stops, two heights and a stack. -/
theorem Job.layout_scales_threefold :
    let job : Job ℝ :=
      { fonts := BoxFonts.standard.source
        palette := fun _ => none
        colors := {}
        settings := { Settings.standard with legacyWidthFactor := false }
        entity := { Entity.standard with insertion := ⟨4, 1⟩, height := 2, width := 20 } }
    let tokens : List (Token ℝ) :=
      [.format (.paragraph { indent := some 1, tabs := some [5, 3] }), .word (.text "low"), .tab,
        .format (.widthFactor (.relative 2)), .word (.text "wide"), .space,
        .format (.height (.absolute 3)), .word (.text "high"), .stack ⟨"1", "2", .slash⟩]
    (0 < (3 : ℝ) ∧ job.fonts.Homogeneous 3 ∧ job.settings.legacyWidthFactor = false ∧
        0 < job.entity.height) ∧
      (job.scale 3).layout (tokens.map (Token.scale 3)) = (job.layout tokens).scale 3 ∧
        (job.scale 3).render (tokens.map (Token.scale 3)) = (job.render tokens).scale 3 := by
  intro job tokens
  have pos : (0 : ℝ) < 3 := three_pos
  have same : job.fonts.Homogeneous 3 := BoxFonts.standard.homogeneous 3
  have height : 0 < job.entity.height := two_pos
  exact ⟨⟨pos, same, rfl, height⟩, job.layout_scales pos same rfl height tokens⟩

end Lettering
