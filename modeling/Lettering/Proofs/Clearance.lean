import Mathlib
import Lettering.Font.BoxFonts
import Lettering.Proofs.Advances
import Lettering.Proofs.Gathering
import Lettering.Proofs.Spans
import Lettering.Proofs.Stacking

/-!
# Clearance

Within a line the pen never moves back, but where it stands counts from the left margin, which is
read again for each run.  So a run starts at the end of the run before it at least, less what the
left margin has fallen in between (`Job.layout_clears`), and where the margin stays or grows runs
never overlap.  Where it does fall they do (`Job.layout_glued`).

The invariant of the open line is `Pass.Clears`: from its own margin each run ends where the next
one starts at most, and the last one at the pen at most.
-/

namespace Lettering

section Lawless

variable {α : Type} [Scalar α]

/-! ## The left margins in force -/

/-- The left margins in force at the contents of a stream, from a paragraph on. -/
def Job.marginsFrom (job : Job α) : Paragraph α → List (Token α) → List α
  | _, [] => []
  | paragraph, t :: rest =>
    (t.content?.map fun _ => paragraph.leftMargin).toList ++
      job.marginsFrom (job.paragraphAfter paragraph t) rest

/-- The left margins in force at the contents of a text, one for each of them. -/
def Job.margins (job : Job α) (tokens : List (Token α)) : List α :=
  job.marginsFrom (.plain job.entity.attachment.alignment) tokens

theorem Job.marginsFrom_concat (job : Job α) (paragraph : Paragraph α)
    (tokens : List (Token α)) (t : Token α) : job.marginsFrom paragraph (tokens ++ [t]) =
      job.marginsFrom paragraph tokens ++
        (t.content?.map fun _ =>
          (tokens.foldl job.paragraphAfter paragraph).leftMargin).toList := by
  induction tokens generalizing paragraph with
  | nil => exact List.append_nil _
  | cons u rest ih =>
    rw [List.cons_append, Job.marginsFrom, ih, Job.marginsFrom, List.append_assoc]
    rfl

theorem Job.margins_concat (job : Job α) (tokens : List (Token α)) (t : Token α) :
    job.margins (tokens ++ [t]) = job.margins tokens ++
      (t.content?.map fun _ => (job.passAfter tokens).paragraph.leftMargin).toList := by
  rw [Job.margins, job.marginsFrom_concat, job.paragraph_passAfter]
  rfl

end Lawless

variable {α : Type} [ExactScalar α]

/-! ## The pen within a line -/

section Pen

variable (job : Job α) (tokens : List (Token α)) {t : Token α} {c : Content}

/-- Content moves the pen to its end at least. -/
theorem Job.contentWidth_le_contentAdvance (c : Content) :
    job.contentWidth (job.passAfter tokens).style c ≤
      job.contentAdvance (job.passAfter tokens).style c := by
  cases c with
  | word text => exact le_refl _
  | stack e => exact le_add_of_nonneg_right (job.blankWidth_pos tokens).le

/-- On a line with a run no quiet token moves the pen back. -/
theorem Job.pen_le_step (filled : (job.passAfter tokens).cursor.runs ≠ []) (quiet : t.Quiet) :
    (job.passAfter tokens).cursor.pen ≤ ((job.passAfter tokens).step job t).cursor.pen := by
  have begun := Pass.beginContent_of_runs filled
  have blank (phase : Phase) : (job.passAfter tokens).cursor.pen ≤
      ((job.passAfter tokens).addBlank phase).cursor.pen := by
    rw [Pass.addBlank, begun]
    refine le_add_of_nonneg_right ?_
    rw [job.wordSpace_passAfter tokens, mul_one]
    exact (job.blankWidth_pos tokens).le
  cases t with
  | word text => rw [Pass.step_emptyWord quiet.content]
  | space => exact blank .atWordBoundary
  | nonBreakingSpace => exact blank .inLine
  | tab =>
    show _ ≤ ((job.passAfter tokens).addTab job).cursor.pen
    rw [Pass.addTab, begun]
    exact Pass.le_tabTarget job _ _
  | paragraphBreak => cases quiet.noBreak
  | stack e => cases quiet.content
  | format command => exact le_refl _

end Pen

/-! ## The open line -/

/-- The runs of the open line of a pass, beside the left margins in force at their contents, are in
order from these margins, and not beyond the pen. -/
structure Pass.Clears (p : Pass α) (margins : List α) : Prop where
  count : margins.length = p.cursor.runs.length
  apart : (margins.zip p.cursor.runs).IsChain fun a b => a.2.endX - a.1 ≤ b.2.startX - b.1
  behind : ∀ a ∈ (margins.zip p.cursor.runs).getLast?, a.2.endX - a.1 ≤ p.cursor.pen

namespace Pass.Clears

variable {job : Job α} {p : Pass α} {tokens : List (Token α)} {t : Token α} {c : Content}
  {margins : List α}

theorem of_bare (bare : p.cursor.runs = []) : p.Clears [] := by
  refine ⟨by rw [bare]; rfl, .nil, fun a member => nomatch member⟩

theorem step_quiet (now : (job.passAfter tokens).Clears margins) (quiet : t.Quiet) :
    ((job.passAfter tokens).step job t).Clears margins := by
  have same : (job.passAfter tokens).SameLines ((job.passAfter tokens).step job t) :=
    .step_quiet quiet
  have runs := same.runs
  refine ⟨by rw [runs, now.count], by rw [runs]; exact now.apart, fun a member => ?_⟩
  rw [runs] at member
  have filled : (job.passAfter tokens).cursor.runs ≠ [] := fun bare => by
    rw [bare, List.zip_nil_right] at member
    cases member
  exact (now.behind a member).trans (job.pen_le_step tokens filled quiet)

/-- Content finds the runs of the open line in order, or a new line. -/
theorem ready_of_fits (now : p.Clears margins)
    (fits : p.needsBreak job (job.contentWidth p.style c) = false) :
    (p.ready job c).Clears margins := by
  have runs : (p.ready job c).cursor.runs = p.cursor.runs := by
    rw [Pass.ready_of_fits fits]
    exact (Pass.SameLines.beginContent p).runs
  refine ⟨by rw [runs, now.count], by rw [runs]; exact now.apart, fun a member => ?_⟩
  rw [runs] at member
  have filled : p.cursor.runs ≠ [] := fun bare => by
    rw [bare, List.zip_nil_right] at member
    cases member
  rw [Pass.ready_of_fits fits, Pass.beginContent_of_runs filled]
  exact now.behind a member

/-- Content is emitted at the pen, and takes the pen to its end at least. -/
theorem emit (ready : ((job.passAfter tokens).ready job c).Clears margins) :
    ((job.passAfter tokens).place job c).Clears
      (margins ++ [(job.passAfter tokens).paragraph.leftMargin]) := by
  have width := job.contentWidth_le_contentAdvance tokens c
  have zipped : (margins ++ [(job.passAfter tokens).paragraph.leftMargin]).zip
      ((job.passAfter tokens).place job c).cursor.runs =
        margins.zip ((job.passAfter tokens).ready job c).cursor.runs ++
          [((job.passAfter tokens).paragraph.leftMargin,
            job.contentRun (job.passAfter tokens).style c
              ((job.passAfter tokens).ready job c).penX)] := by
    rw [Pass.runs_place, List.zip_append ready.count]
    rfl
  refine ⟨?_, ?_, ?_⟩
  · rw [Pass.runs_place, List.length_append, List.length_append, ready.count]
    rfl
  · rw [zipped]
    refine ready.apart.append (.singleton _) fun a last b first => ?_
    cases first
    rw [Resources.startX_contentRun, Pass.penX_ready, add_sub_cancel_left]
    exact ready.behind a last
  · rw [zipped, List.getLast?_concat]
    rintro a ⟨⟩
    rw [Run.endX, Resources.startX_contentRun, Resources.width_contentRun, Pass.penX_ready,
      Pass.pen_place, add_assoc, add_sub_cancel_left]
    exact add_le_add_right width _

end Pass.Clears

/-! ## Closed lines -/

/-- A line beside the left margins in force at the contents of its runs. -/
structure MarkedLine (α : Type) where
  margins : List α
  line : Line α

/-- The runs of a line are in order, but for what the left margin falls between them. -/
structure MarkedLine.Clears (e : MarkedLine α) : Prop where
  /-- There is one margin for each run. -/
  count : e.margins.length = e.line.runs.length
  /-- A run starts at the end of the run before it, less what the margin has fallen, at least. -/
  apart : (e.margins.zip e.line.runs).IsChain fun a b =>
    a.2.endX ≤ b.2.startX + max (a.1 - b.1) 0
  /-- Where the margin does not fall no run starts before the end of the run before it. -/
  steady : e.margins.IsChain (· ≤ ·) → Apart e.line.runs

theorem MarkedLine.Clears.of_apart {margins : List α} {l : Line α}
    (count : margins.length = l.runs.length)
    (apart : (margins.zip l.runs).IsChain fun a b => a.2.endX ≤ b.2.startX + max (a.1 - b.1) 0) :
    (⟨margins, l⟩ : MarkedLine α).Clears := by
  refine ⟨count, apart, fun steady => ?_⟩
  have margins_eq := List.map_fst_zip count.le
  have runs_eq := List.map_snd_zip count.ge
  rw [← margins_eq, List.isChain_map] at steady
  rw [Apart, ← runs_eq, List.isChain_map]
  rw [List.isChain_iff_forall_rel_of_append_cons_cons] at apart steady ⊢
  intro a b before after whole
  have clear := apart whole
  rwa [max_eq_right (sub_nonpos.mpr (steady whole)), add_zero] at clear

theorem Pass.Clears.closedLine {p : Pass α} {margins : List α} (now : p.Clears margins)
    (job : Job α) : (⟨margins, p.closedLine job⟩ : MarkedLine α).Clears := by
  have makeups : (p.closedLine job).runs.map Run.makeup = p.cursor.runs.map Run.makeup :=
    congrArg Sketch.runs (p.sketch_closedLine job)
  have count : margins.length = (p.closedLine job).runs.length := by
    rw [now.count, ← List.length_map (f := Run.makeup), ← makeups, List.length_map]
  refine .of_apart count ?_
  by_cases spreads : (p.frame job).Spreads p.paragraph.alignment p.cursor.runs
  · have apart := Pass.apart_closedLine spreads
    rw [Apart, ← List.map_snd_zip count.ge, List.isChain_map] at apart
    exact apart.imp fun a b le => le.trans (le_add_of_nonneg_right (le_max_right _ _))
  · obtain ⟨dx, -, spans⟩ := Pass.spans_closedLine spreads
    -- All runs move by one distance, so they are in order from their margins as before.
    have moved : (margins.zip ((p.closedLine job).runs.map Run.span)).IsChain
        fun a b => a.2.2 - a.1 ≤ b.2.1 - b.1 := by
      rw [spans, spansAt, List.zip_map_right, List.isChain_map]
      refine now.apart.imp fun a b le => ?_
      show a.2.endX + dx - a.1 ≤ b.2.startX + dx - b.1
      linarith
    rw [List.zip_map_right, List.isChain_map] at moved
    refine moved.imp fun a b le => ?_
    have margin := le_max_left (a.1 - b.1) 0
    have order : a.2.endX - a.1 ≤ b.2.startX - b.1 := le
    linarith

/-! ## Whole layouts -/

/-- Each content marks the open line with the left margin in force at it. -/
theorem Job.gathers_margins (job : Job α) :
    job.Gathers job.margins fun p margins => p.Clears margins where
  start := rfl
  silent tokens t none := by
    rw [job.margins_concat, none]
    exact List.append_nil _
  bare p noRun _ := .of_bare noRun
  eq_nil p margins now noRun := by
    rw [← List.length_eq_zero_iff, now.count, noRun, List.length_nil]
  quiet tokens t margins quiet now := now.step_quiet quiet
  ready tokens c margins fits now := now.ready_of_fits fits
  content tokens t c found := by
    refine ⟨(job.passAfter tokens).paragraph.leftMargin, ?_, fun margins ready => ready.emit⟩
    rw [job.margins_concat, found]
    rfl

/-- **A run starts at the end of the run before it, less what the left margin has fallen in
between, at least**, under every alignment and whatever the fonts are.  So no runs of a line overlap
where the margin does not fall. -/
theorem Job.layout_clears (job : Job α) (tokens : List (Token α)) :
    ∃ marked : List (MarkedLine α), (job.layout tokens).lines = marked.map MarkedLine.line ∧
      job.margins tokens = marked.flatMap MarkedLine.margins ∧ ∀ e ∈ marked, e.Clears := by
  obtain ⟨closed, lines, margins, held⟩ := job.gathers_margins.layout tokens
  refine ⟨closed.map fun e => ⟨e.marks, e.line job⟩, ?_, ?_, ?_⟩
  · rw [lines, List.map_map]
    rfl
  · rw [margins, List.flatMap_map]
  · exact List.forall_mem_map.mpr fun e member => (held e member).closedLine job

/-- Two words with nothing but a change of the left margin between them make one line.  The second
starts as far from its own margin as the first is wide. -/
theorem Job.layout_glued (job : Job α) (aligned : job.entity.attachment.alignment = .left)
    (first second : WordText) (inked : first.isEmpty = false) (inked' : second.isEmpty = false)
    (left left' : α) :
    ∃ l r s, (job.layout [.format (.paragraph { left := some left }), .word first,
        .format (.paragraph { left := some left' }), .word second]).lines = [l] ∧
      l.runs = [r, s] ∧ r.startX = left ∧ s.startX = left' + r.width := by
  let opened := (Pass.start job).step job (.format (.paragraph { left := some left }))
  let joined := (opened.place job (.word first)).step job
    (.format (.paragraph { left := some left' }))
  have after : job.passAfter [.format (.paragraph { left := some left }), .word first,
      .format (.paragraph { left := some left' }), .word second] =
        joined.place job (.word second) := by
    rw [Job.passAfter, Pass.run]
    simp only [List.foldl_cons, List.foldl_nil]
    rw [Pass.step_content (Token.content?_word inked'),
      Pass.step_content (Token.content?_word inked)]
  -- Neither word stands at a word boundary, so neither goes to a new line.
  have openedFits : opened.needsBreak job (job.contentWidth opened.style (.word first)) = false :=
    rfl
  have joinedFits : joined.needsBreak job (job.contentWidth joined.style (.word second)) = false :=
    rfl
  have start : opened.paragraph.leftMargin + opened.beginContent.cursor.pen = left := add_zero left
  have runs : joined.cursor.runs = [job.contentRun opened.style (.word first) left] := by
    show (opened.place job (.word first)).cursor.runs = _
    rw [Pass.runs_place_of_fits openedFits, start]
    rfl
  have pen : joined.cursor.pen = job.contentWidth opened.style (.word first) := by
    show (opened.place job (.word first)).cursor.pen = _
    rw [Pass.pen_place_of_fits openedFits]
    exact zero_add _
  have filled : joined.cursor.runs ≠ [] := by
    rw [runs]
    exact List.cons_ne_nil _ _
  let closing := joined.place job (.word second)
  have bothRuns : closing.cursor.runs = [job.contentRun opened.style (.word first) left,
      job.contentRun joined.style (.word second)
        (left' + job.contentWidth opened.style (.word first))] := by
    rw [Pass.runs_place_of_fits joinedFits, Pass.beginContent_of_runs filled, pen, runs]
    rfl
  have still : closing.paragraph.alignment = .left := by
    rw [Pass.paragraph_place]
    show (opened.place job (.word first)).paragraph.alignment = .left
    rw [Pass.paragraph_place]
    exact aligned
  have unspread :
      ¬ (closing.frame job).Spreads closing.paragraph.alignment closing.cursor.runs := by
    rw [still]
    intro spreads
    cases spreads.distributed
  obtain ⟨dx, zero, spans⟩ := Pass.spans_closedLine unspread
  rw [zero (.inl still), spansAt_zero, bothRuns] at spans
  obtain ⟨r, rest, lineRuns, spanR, spanRest⟩ := List.map_eq_cons_iff.mp spans
  obtain ⟨s, none, rfl, spanS, bare⟩ := List.map_eq_cons_iff.mp spanRest
  obtain rfl := List.map_eq_nil_iff.mp bare
  have startR : r.startX = left :=
    (congrArg Prod.fst spanR).trans (job.startX_contentRun _ _ _)
  have width : r.width = job.contentWidth opened.style (.word first) := by
    have stop : r.startX + r.width = left + job.contentWidth opened.style (.word first) := by
      simpa [Run.span, Run.endX] using congrArg Prod.snd spanR
    rw [startR] at stop
    exact add_left_cancel stop
  refine ⟨closing.closedLine job, r, s, ?_, lineRuns, startR, ?_⟩
  · rw [job.layout_lines_closed, after, if_neg (by rw [Pass.isLineEmpty_place]; simp),
      Pass.lines_place_of_fits joinedFits]
    show (opened.place job (.word first)).lines ++ _ = _
    rw [Pass.lines_place_of_fits openedFits]
    rfl
  · rw [width]
    simpa [Run.span] using congrArg Prod.fst spanS

/-- A left margin of 1 that a command takes away within a line: the word after it starts 1 before
the end of the word in front of it. -/
theorem Job.runs_overlap :
    let job : Job ℝ :=
      { fonts := BoxFonts.standard.source
        palette := fun _ => none
        colors := {}
        settings := Settings.standard
        entity := Entity.standard }
    let tokens : List (Token ℝ) :=
      [.format (.paragraph { left := some 1 }), .word (.text "ab"),
        .format (.paragraph { left := some 0 }), .word (.text "cd")]
    (job.Forward ∧ 0 < job.settings.tabSize) ∧
      ∃ l r s, (job.layout tokens).lines = [l] ∧ l.runs = [r, s] ∧ s.startX < r.endX := by
  intro job tokens
  have forward : job.Forward := by
    refine ⟨BoxFonts.forward_standard, ?_, ?_⟩
    · norm_num [job, Settings.standard]
    · norm_num [job, Settings.standard]
  have tabSize : 0 < job.settings.tabSize := by
    show (0 : ℝ) < ((4 : ℤ) : ℝ)
    norm_num
  obtain ⟨l, r, s, lines, runs, startR, startS⟩ :=
    job.layout_glued rfl (.text "ab") (.text "cd") rfl rfl 1 0
  refine ⟨⟨forward, tabSize⟩, l, r, s, lines, runs, ?_⟩
  rw [Run.endX, startR, startS]
  linarith

end Lettering
