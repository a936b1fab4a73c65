import Mathlib
import Lettering.Font.BoxFonts
import Lettering.Proofs.Closing
import Lettering.Proofs.Rows
import Lettering.Proofs.Spans

/-!
# The pen

Without tabs every run starts where the tokens before it on its line have taken the pen.  The
tokens of a line are a *row*: the rows of the lines of a paragraph are its segment, cut before the
content that opens each line but the first.  So blanks at a wrap end the row before it, and those
at the start of a paragraph count.

* `Pass.HoldsRow` ties the open line of a pass to the row that it holds so far.
* `Pass.Sheet` is the invariant of a whole pass: its closed lines are `Job.Ruled` by their rows,
  paragraph by paragraph.

The paragraph commands have to come before all words, blanks and stacks of their paragraph
(`Prepared`), since a run starts at the margin in force when it is emitted.
-/

namespace Lettering

/-- A stream without tabs in which no word, blank or stack comes before a paragraph command of its
paragraph. -/
structure Prepared {α : Type} (tokens : List (Token α)) : Prop where
  noTab : Token.tab ∉ tokens
  early : ∀ before change after, tokens = before ++ .format (.paragraph change) :: after →
    ∀ t ∈ lastSegment before, t.movesPen = false

theorem Prepared.of_concat {α : Type} {tokens : List (Token α)} {t : Token α}
    (prepared : Prepared (tokens ++ [t])) : Prepared tokens := by
  refine ⟨fun member => prepared.noTab (List.mem_append_left _ member), ?_⟩
  rintro before change after rfl
  refine prepared.early before change (after ++ [t]) ?_
  rw [List.append_assoc, List.cons_append]

/-- A row that begins with content. -/
def OpenedByContent {α : Type} (row : List (Style α × Token α)) : Prop :=
  ∃ e rest, row = e :: rest ∧ e.2.content?.isSome = true

theorem OpenedByContent.concat {α : Type} {row : List (Style α × Token α)}
    (opened : OpenedByContent row) (e : Style α × Token α) : OpenedByContent (row ++ [e]) := by
  obtain ⟨first, rest, rfl, content⟩ := opened
  exact ⟨first, rest ++ [e], rfl, content⟩

variable {α : Type} [ExactScalar α]

/-! ## The open line -/

/-- The open line of a pass holds the tokens of a row, and nothing else. -/
structure Pass.HoldsRow (job : Job α) (row : List (Style α × Token α)) (p : Pass α) : Prop where
  makeups : p.cursor.runs.map Run.makeup = job.contentMakeups row
  starts : p.cursor.runs.map Run.startX = job.starts (p.frame job).start row
  /-- The pen is where the row takes it, once the line is begun. -/
  pen : p.beginContent.cursor.pen = (p.frame job).indent + job.rowAdvance row
  /-- A line that opens no paragraph was opened by content. -/
  opened : p.cursor.startsParagraph = false → OpenedByContent row
  /-- Until the first word, blank or stack of a paragraph nothing is on its first line. -/
  fresh : p.phase = .atParagraphBreak →
    p.cursor.startsParagraph = true ∧ ∀ e ∈ row, e.2.movesPen = false

namespace Pass.HoldsRow

variable {job : Job α} {p q : Pass α} {row : List (Style α × Token α)} {t : Token α} {c : Content}

/-- At the start of a paragraph the open line is bare, whatever the paragraph is. -/
theorem of_fresh (outside : p.phase = .atParagraphBreak) (opens : p.cursor.startsParagraph = true)
    (bare : p.cursor.runs = []) (still : ∀ e ∈ row, e.2.movesPen = false) : p.HoldsRow job row := by
  have begun : p.beginContent.cursor.pen = p.paragraph.indent := by
    unfold Pass.beginContent
    rw [if_pos ⟨outside, List.isEmpty_iff.mpr bare⟩]
  have indent : (p.frame job).indent = p.paragraph.indent := if_pos opens
  refine ⟨?_, ?_, ?_, fun continues => ?_, fun _ => ⟨opens, still⟩⟩
  · rw [bare, Job.contentMakeups, styledContents_still still]
    rfl
  · rw [bare, job.starts_still _ still]
    rfl
  · rw [begun, indent, job.rowAdvance_still still, add_zero]
  · rw [opens] at continues
    cases continues

theorem runs_of_fresh (now : p.HoldsRow job row) (outside : p.phase = .atParagraphBreak) :
    p.cursor.runs = [] := by
  have makeups := now.makeups
  rw [Job.contentMakeups, styledContents_still (now.fresh outside).2] at makeups
  exact List.map_eq_nil_iff.mp makeups

/-- A token that does not move the pen may be added to the row of a line that stays as it is. -/
theorem concat_still (now : p.HoldsRow job row) (still : t.movesPen = false) (style : Style α)
    (cursor : q.cursor = p.cursor) (phase : q.phase = p.phase)
    (paragraph : q.paragraph = p.paragraph) : q.HoldsRow job (row ++ [(style, t)]) := by
  have frame : q.frame job = p.frame job := by
    rw [Pass.frame_eq, Pass.frame_eq, cursor, paragraph]
  have pen : q.beginContent.cursor.pen = p.beginContent.cursor.pen := by
    unfold Pass.beginContent
    rw [cursor, phase, paragraph]
    split
    · rfl
    · exact congrArg Cursor.pen cursor
  refine ⟨?_, ?_, ?_, fun continues => ?_, fun outside => ?_⟩
  · rw [cursor, now.makeups, job.contentMakeups_still still]
  · rw [cursor, frame, now.starts, job.starts_concat, Token.content?_of_still still]
    exact (List.append_nil _).symm
  · rw [pen, frame, now.pen, job.rowAdvance_concat, job.tokenAdvance_still still, add_zero]
  · rw [cursor] at continues
    exact (now.opened continues).concat _
  · rw [phase] at outside
    rw [cursor]
    obtain ⟨opens, stillRow⟩ := now.fresh outside
    exact ⟨opens, List.forall_mem_append.mpr ⟨stillRow, List.forall_mem_singleton.mpr still⟩⟩

/-- A blank moves the pen by its width. -/
theorem concat_blank (now : p.HoldsRow job row) {phase : Phase} (inside : phase ≠ .atParagraphBreak)
    (blank : t = .space ∨ t = .nonBreakingSpace) :
    (p.addBlank phase).HoldsRow job (row ++ [(p.style, t)]) := by
  have same : p.SameLines (p.addBlank phase) := .move _ _
  have paragraph : (p.addBlank phase).paragraph = p.paragraph :=
    congrArg Formatting.paragraph p.formatting_beginContent
  have frame : (p.addBlank phase).frame job = p.frame job := by
    rw [Pass.frame_eq, Pass.frame_eq, same.startsParagraph, paragraph]
  have noContent : t.content? = none := by
    rcases blank with rfl | rfl <;> rfl
  have advance : job.tokenAdvance p.style t = p.style.blankWidth * p.style.wordSpace := by
    rcases blank with rfl | rfl <;> rfl
  refine ⟨?_, ?_, ?_, fun continues => ?_, fun outside => (inside outside).elim⟩
  · rw [same.runs, now.makeups, job.contentMakeups_concat, noContent]
    exact (List.append_nil _).symm
  · rw [same.runs, frame, now.starts, job.starts_concat, noContent]
    exact (List.append_nil _).symm
  · rw [Pass.beginContent_of_phase inside, frame, job.rowAdvance_concat, advance, ← add_assoc,
      ← now.pen]
    rfl
  · rw [same.startsParagraph] at continues
    exact (now.opened continues).concat _

/-- A quiet token is added to the row; a paragraph command comes at the start of a paragraph. -/
theorem step_quiet (now : p.HoldsRow job row) (quiet : t.Quiet) (noTab : t ≠ .tab)
    (early : ∀ change, t = .format (.paragraph change) → p.phase = .atParagraphBreak) :
    (p.step job t).HoldsRow job (row ++ [(p.style, t)]) := by
  cases t with
  | word text =>
    have still : (Token.word text : Token α).movesPen = false := by
      simpa [Token.movesPen, Token.content?] using quiet.content
    rw [Pass.step_emptyWord quiet.content]
    exact now.concat_still still _ rfl rfl rfl
  | space => exact now.concat_blank (by simp) (.inl rfl)
  | nonBreakingSpace => exact now.concat_blank (by simp) (.inr rfl)
  | tab => exact (noTab rfl).elim
  | paragraphBreak => cases quiet.noBreak
  | stack e => cases quiet.content
  | format command =>
    cases command with
    | paragraph change =>
      have outside := early change rfl
      obtain ⟨opens, still⟩ := now.fresh outside
      exact of_fresh outside opens (now.runs_of_fresh outside)
        (List.forall_mem_append.mpr ⟨still, List.forall_mem_singleton.mpr rfl⟩)
    | _ => exact now.concat_still rfl _ rfl rfl rfl

/-- Content that fits goes behind the row. -/
theorem place_of_fits (now : p.HoldsRow job row) (found : t.content? = some c)
    (fits : p.needsBreak job (job.contentWidth p.style c) = false) :
    (p.place job c).HoldsRow job (row ++ [(p.style, t)]) := by
  have phase := p.phase_place_ne job c
  have opens : (p.place job c).cursor.startsParagraph = p.cursor.startsParagraph :=
    congrArg Sketch.startsParagraph (Pass.place_of_fits fits).2
  have frame : (p.place job c).frame job = p.frame job := by
    rw [Pass.frame_eq, Pass.frame_eq, opens, Pass.paragraph_place]
  have startX : p.paragraph.leftMargin + p.beginContent.cursor.pen =
      (p.frame job).start + job.rowAdvance row := by
    rw [now.pen, ← add_assoc]
    rfl
  refine ⟨?_, ?_, ?_, fun continues => ?_, fun outside => (phase outside).elim⟩
  · rw [Pass.runs_place_of_fits fits, List.map_append, now.makeups, job.contentMakeups_concat,
      found, List.map_singleton, Resources.makeup_contentRun]
    rfl
  · rw [Pass.runs_place_of_fits fits, List.map_append, frame, now.starts, job.starts_concat, found,
      List.map_singleton, Resources.startX_contentRun, startX]
    rfl
  · rw [Pass.beginContent_of_phase phase, Pass.pen_place_of_fits fits, frame,
      job.rowAdvance_concat, job.tokenAdvance_content found, ← add_assoc, now.pen]
  · rw [opens] at continues
    exact (now.opened continues).concat _

/-- Content that has to go to a new line opens a row. -/
theorem place_of_needsBreak (found : t.content? = some c)
    (breaks : p.needsBreak job (job.contentWidth p.style c) = true) :
    (p.place job c).HoldsRow job [(p.style, t)] := by
  have phase := p.phase_place_ne job c
  have continues : (p.place job c).cursor.startsParagraph = false :=
    congrArg Sketch.startsParagraph (Pass.place_of_needsBreak breaks).2
  have indent : ((p.place job c).frame job).indent = 0 := by
    rw [Pass.frame_eq, continues]
    rfl
  have startX : ((p.place job c).frame job).start = p.paragraph.leftMargin + 0 := by
    rw [Frame.start, indent, Pass.frame_eq, Pass.paragraph_place]
    rfl
  have advance : job.rowAdvance [(p.style, t)] = job.contentAdvance p.style c := by
    rw [← job.tokenAdvance_content found]
    exact List.sum_singleton
  refine ⟨?_, ?_, ?_, fun _ => ⟨_, [], rfl, by rw [found]; rfl⟩,
    fun outside => (phase outside).elim⟩
  · rw [Pass.runs_place_of_needsBreak breaks, Job.contentMakeups, styledContents]
    simp [found, Resources.makeup_contentRun]
  · rw [Pass.runs_place_of_needsBreak breaks, startX]
    simp [Job.starts, found]
  · rw [Pass.beginContent_of_phase phase, Pass.pen_place_of_needsBreak breaks, indent, advance]

end Pass.HoldsRow

/-! ## Closed lines -/

/-- A line of a paragraph whose runs stand where the row of its tokens takes the pen. -/
structure Job.Ruled (job : Job α) (paragraph : Paragraph α) (row : List (Style α × Token α))
    (l : Line α) : Prop where
  makeups : l.runs.map Run.makeup = job.contentMakeups row
  opened : l.startsParagraph = false → OpenedByContent row
  starts :
    ¬ (paragraph.frame job.entity.width l.startsParagraph).Spreads paragraph.alignment l.runs →
    ∃ shift, (paragraph.alignment = .left → shift = 0) ∧
      ∀ before style t after, row = before ++ (style, t) :: after → t.content?.isSome = true →
        ∃ r, l.runs[(styledContents before).length]? = some r ∧
          r.startX = shift + paragraph.leftMargin +
            (if l.startsParagraph then paragraph.indent else 0) + job.rowAdvance before

theorem Pass.HoldsRow.closedLine {job : Job α} {p : Pass α} {row : List (Style α × Token α)}
    (now : p.HoldsRow job row) : job.Ruled p.paragraph row (p.closedLine job) := by
  have flag : (p.closedLine job).startsParagraph = p.cursor.startsParagraph :=
    congrArg Sketch.startsParagraph (p.sketch_closedLine job)
  have makeups : (p.closedLine job).runs.map Run.makeup = p.cursor.runs.map Run.makeup :=
    congrArg Sketch.runs (p.sketch_closedLine job)
  refine ⟨makeups.trans now.makeups, fun continues => now.opened (flag ▸ continues), ?_⟩
  rw [flag, ← Pass.frame_eq]
  intro unspread
  obtain ⟨dx, still, spans⟩ :=
    Pass.spans_closedLine fun spreads => unspread (spreads.congr makeups)
  refine ⟨dx, fun left => still (.inl left), ?_⟩
  rintro before style t after rfl content
  obtain ⟨c, found⟩ := Option.isSome_iff_exists.mp content
  have pen : (job.starts (p.frame job).start (before ++ (style, t) :: after))[_]? = _ :=
    job.getElem?_starts (p.frame job).start before after found
  rw [← now.starts, List.getElem?_map] at pen
  obtain ⟨r, here, start⟩ := Option.map_eq_some_iff.mp pen
  obtain ⟨s, inLine, moved, -⟩ := exists_of_spansAt spans here
  refine ⟨s, inLine, ?_⟩
  rw [moved, start, add_comm _ dx, ← add_assoc, Frame.start, ← add_assoc]
  rfl

/-- On a line whose runs are not spread, content joins the word before it if nothing between them
moves the pen. -/
theorem Job.Ruled.abuts {job : Job α} {paragraph : Paragraph α} {row : List (Style α × Token α)}
    {l : Line α} (ruled : job.Ruled paragraph row l)
    (unspread : ¬ (paragraph.frame job.entity.width l.startsParagraph).Spreads paragraph.alignment
      l.runs)
    {before glue after : List (Style α × Token α)} {style style' : Style α} {text : WordText}
    {t : Token α} (tokens : row = before ++ (style, .word text) :: (glue ++ (style', t) :: after))
    (nonempty : text.isEmpty = false) (still : ∀ e ∈ glue, e.2.movesPen = false)
    (content : t.content?.isSome = true) :
    ∃ r s, l.runs[(styledContents before).length]? = some r ∧
      l.runs[(styledContents before).length + 1]? = some s ∧ s.startX = r.endX := by
  have word := Token.content?_word (α := α) nonempty
  obtain ⟨shift, -, starts⟩ := ruled.starts unspread
  obtain ⟨r, first, startR⟩ := starts before style _ _ tokens (by rw [word]; rfl)
  obtain ⟨s, second, startS⟩ := starts (before ++ (style, .word text) :: glue) style' t after
    (by rw [tokens, List.append_assoc, List.cons_append]) content
  have index : (styledContents (before ++ (style, .word text) :: glue)).length =
      (styledContents before).length + 1 := by
    have none := styledContents_still still
    rw [styledContents] at none
    simp [styledContents, word, none]
  have advance : job.rowAdvance (before ++ (style, .word text) :: glue) =
      job.rowAdvance before + totalAdvance (job.shapeText style text.chars) := by
    rw [job.rowAdvance_append, ← List.singleton_append, job.rowAdvance_append,
      job.rowAdvance_still still, add_zero]
    exact congrArg _ List.sum_singleton
  have width : r.width = totalAdvance (job.shapeText style text.chars) := by
    have contents : styledContents row = styledContents before ++
        (style, .word text) :: styledContents (glue ++ (style', t) :: after) := by
      rw [tokens, styledContents, List.filterMap_append, List.filterMap_cons_some]
      · rfl
      · rw [word]
        rfl
    have makeup := congrArg (·[(styledContents before).length]?) ruled.makeups
    simp only [Job.contentMakeups, contents, List.getElem?_map, first,
      List.getElem?_append_right (le_refl _), Nat.sub_self, List.getElem?_cons_zero,
      Option.map_some] at makeup
    exact congrArg Makeup.width (Option.some.inj makeup)
  rw [index] at second
  refine ⟨r, s, first, second, ?_⟩
  rw [startS, advance, Run.endX, startR, width, ← add_assoc]

/-! ## Sheets -/

/-- A line beside the tokens that it holds, each with the style in force. -/
structure RowedLine (α : Type) where
  row : List (Style α × Token α)
  line : Line α

/-- The tokens of a part of a text. -/
def tokensOf {α : Type} (part : List (RowedLine α)) : List (Style α × Token α) :=
  part.flatMap RowedLine.row

theorem tokensOf_concat {α : Type} (part : List (RowedLine α)) (e : RowedLine α) :
    tokensOf (part ++ [e]) = tokensOf part ++ e.row := by
  rw [tokensOf, List.flatMap_append, List.flatMap_singleton, tokensOf]

/-- Flags of which the first alone is set. -/
def OpensOnce (flags : List Bool) : Prop := ∃ n, flags = true :: List.replicate n false

theorem OpensOnce.concat {flags : List Bool} (once : OpensOnce flags) :
    OpensOnce (flags ++ [false]) := by
  obtain ⟨n, rfl⟩ := once
  exact ⟨n + 1, by rw [List.cons_append, List.replicate_succ']⟩

/-- If the last flag is set it is the only one. -/
theorem OpensOnce.eq_nil {flags : List Bool} (once : OpensOnce (flags ++ [true])) : flags = [] := by
  obtain ⟨n, all⟩ := once
  cases flags with
  | nil => rfl
  | cons flag rest =>
    have last : true ∈ List.replicate n false := (List.cons.inj all).2 ▸ List.mem_concat_self
    cases List.eq_of_mem_replicate last

/-- A paragraph of a layout: its first line alone opens it, and each line is ruled by its row in the
paragraph that the commands of all rows leave. -/
structure Job.RuledPart (job : Job α) (part : List (RowedLine α)) : Prop where
  once : OpensOnce (part.map (·.line.startsParagraph))
  ruled : ∀ e ∈ part, job.Ruled (job.paragraphAt ((tokensOf part).map Prod.snd)) e.row e.line

/-- The closed lines of a pass with their rows: complete paragraphs, the lines of the paragraph that
is not complete, and the row of the open line. -/
structure Pass.Sheet (job : Job α) (tokens : List (Token α)) (p : Pass α)
    (parts : List (List (RowedLine α))) (current : List (RowedLine α))
    (row : List (Style α × Token α)) : Prop where
  lines : p.lines = (parts.flatten ++ current).map RowedLine.line
  segments : job.segments tokens = parts.map tokensOf ++ [tokensOf current ++ row]
  complete : ∀ part ∈ parts, job.RuledPart part
  ruled : ∀ e ∈ current, job.Ruled p.paragraph e.row e.line
  once : OpensOnce (current.map (·.line.startsParagraph) ++ [p.cursor.startsParagraph])
  paragraph : p.paragraph = job.paragraphAt ((tokensOf current ++ row).map Prod.snd)
  holds : p.HoldsRow job row

section Sheets

variable {job : Job α} {tokens : List (Token α)} {t : Token α} {c : Content}
  {parts : List (List (RowedLine α))} {current : List (RowedLine α)}
  {row : List (Style α × Token α)}

theorem Prepared.phase {change : ParagraphChange α}
    (prepared : Prepared (tokens ++ [.format (.paragraph change)])) (job : Job α) :
    (job.passAfter tokens).phase = .atParagraphBreak := by
  have still := prepared.early tokens change [] rfl
  have noMove : (lastSegment tokens).filter Token.movesPen = [] :=
    List.filter_eq_nil_iff.mpr fun t member => by
      rw [still t member]
      exact Bool.false_ne_true
  rw [job.phase_passAfter, lastMove, noMove]
  rfl

namespace Pass.Sheet

/-- A token inside a paragraph is added to the last segment. -/
theorem segments_concat (now : (job.passAfter tokens).Sheet job tokens parts current row)
    (inside : t.isParagraphBreak = false) :
    job.segments (tokens ++ [t]) =
      parts.map tokensOf ++ [tokensOf current ++ (row ++ [((job.passAfter tokens).style, t)])] := by
  obtain ⟨earlier, last, cut, grown⟩ := job.segments_concat tokens inside
  rw [now.segments] at cut
  obtain ⟨rfl, same⟩ := List.append_inj' cut rfl
  rw [grown, ← (List.cons.inj same).1, List.append_assoc]

theorem paragraph_concat (now : (job.passAfter tokens).Sheet job tokens parts current row)
    (style : Style α) (t : Token α) :
    ((job.passAfter tokens).step job t).paragraph =
      job.paragraphAt ((tokensOf current ++ (row ++ [(style, t)])).map Prod.snd) := by
  have stream : (tokensOf current ++ (row ++ [(style, t)])).map Prod.snd =
      (tokensOf current ++ row).map Prod.snd ++ [t] := by simp
  rw [Pass.paragraph_step, now.paragraph, stream, job.paragraphAt_concat]

theorem step_quiet (now : (job.passAfter tokens).Sheet job tokens parts current row)
    (quiet : t.Quiet) (prepared : Prepared (tokens ++ [t])) :
    ((job.passAfter tokens).step job t).Sheet job (tokens ++ [t]) parts current
      (row ++ [((job.passAfter tokens).style, t)]) := by
  have same : (job.passAfter tokens).SameLines ((job.passAfter tokens).step job t) :=
    .step_quiet quiet
  have early (change : ParagraphChange α) (command : t = .format (.paragraph change)) :
      (job.passAfter tokens).phase = .atParagraphBreak := by
    subst command
    exact prepared.phase job
  refine ⟨?_, now.segments_concat quiet.noBreak, now.complete, fun e member => ?_, ?_,
    now.paragraph_concat _ t, now.holds.step_quiet quiet ?_ early⟩
  · rw [same.lines, now.lines]
  · have kept :
        ((job.passAfter tokens).step job t).paragraph = (job.passAfter tokens).paragraph := by
      rw [Pass.paragraph_step]
      refine job.paragraphAfter_of_inside _ quiet.noBreak fun change command => ?_
      -- A command comes before the first word, so no line of the paragraph is closed yet.
      have once := now.once
      rw [(now.holds.fresh (early change command)).1] at once
      rw [List.map_eq_nil_iff.mp once.eq_nil] at member
      cases member
    rw [kept]
    exact now.ruled e member
  · rw [same.startsParagraph]
    exact now.once
  · rintro rfl
    exact prepared.noTab (by simp)

/-- The paragraph that is not complete, with the open line closed. -/
theorem ruledPart (now : (job.passAfter tokens).Sheet job tokens parts current row) :
    job.RuledPart (current ++ [⟨row, (job.passAfter tokens).closedLine job⟩]) := by
  have flag : ((job.passAfter tokens).closedLine job).startsParagraph =
      (job.passAfter tokens).cursor.startsParagraph :=
    congrArg Sketch.startsParagraph ((job.passAfter tokens).sketch_closedLine job)
  refine ⟨?_, ?_⟩
  · rw [List.map_append, List.map_singleton, flag]
    exact now.once
  · rw [tokensOf_concat, ← now.paragraph]
    exact List.forall_mem_append.mpr
      ⟨now.ruled, List.forall_mem_singleton.mpr now.holds.closedLine⟩

theorem place (now : (job.passAfter tokens).Sheet job tokens parts current row)
    (found : t.content? = some c) :
    ∃ current' row', ((job.passAfter tokens).place job c).Sheet job (tokens ++ [t]) parts
      current' row' := by
  have inside := Token.noBreak_of_content found
  have kept := (job.passAfter tokens).paragraph_place job c
  have paragraph := now.paragraph_concat (job.passAfter tokens).style t
  rw [Pass.step_content found] at paragraph
  cases breaks : (job.passAfter tokens).needsBreak job
      (job.contentWidth (job.passAfter tokens).style c) with
  | true =>
    have continues : ((job.passAfter tokens).place job c).cursor.startsParagraph = false :=
      congrArg Sketch.startsParagraph (Pass.place_of_needsBreak breaks).2
    have part := now.ruledPart
    refine ⟨current ++ [⟨row, (job.passAfter tokens).closedLine job⟩],
      [((job.passAfter tokens).style, t)], ?_, ?_, now.complete, ?_, ?_, ?_,
      .place_of_needsBreak found breaks⟩
    · rw [Pass.lines_place_of_needsBreak breaks, now.lines]
      simp
    · rw [now.segments_concat inside, tokensOf_concat, List.append_assoc]
    · rw [kept]
      exact List.forall_mem_append.mpr
        ⟨now.ruled, List.forall_mem_singleton.mpr now.holds.closedLine⟩
    · rw [continues]
      exact part.once.concat
    · rw [paragraph, tokensOf_concat, List.append_assoc]
  | false =>
    have opens : ((job.passAfter tokens).place job c).cursor.startsParagraph =
        (job.passAfter tokens).cursor.startsParagraph :=
      congrArg Sketch.startsParagraph (Pass.place_of_fits breaks).2
    refine ⟨current, _, ?_, now.segments_concat inside, now.complete, ?_, ?_, paragraph,
      now.holds.place_of_fits found breaks⟩
    · rw [Pass.lines_place_of_fits breaks, now.lines]
    · rw [kept]
      exact now.ruled
    · rw [opens]
      exact now.once

theorem breakParagraph (now : (job.passAfter tokens).Sheet job tokens parts current row) :
    ((job.passAfter tokens).breakParagraph job).Sheet job (tokens ++ [.paragraphBreak])
      (parts ++ [current ++ [⟨row, (job.passAfter tokens).closedLine job⟩]]) [] [] := by
  refine ⟨?_, ?_, ?_, List.forall_mem_nil _, ⟨0, rfl⟩, rfl, ?_⟩
  · show (job.passAfter tokens).lines ++ [(job.passAfter tokens).closedLine job] = _
    rw [now.lines]
    simp
  · have segments := now.segments
    rw [Job.segments] at segments ⊢
    rw [job.styled_concat, splitOnP_separator rfl, segments]
    simp [tokensOf]
  · exact List.forall_mem_append.mpr
      ⟨now.complete, List.forall_mem_singleton.mpr now.ruledPart⟩
  · exact .of_fresh rfl rfl rfl (List.forall_mem_nil _)

end Pass.Sheet

theorem Job.passAfter_sheet (job : Job α) (tokens : List (Token α)) (prepared : Prepared tokens) :
    ∃ parts current row, (job.passAfter tokens).Sheet job tokens parts current row := by
  induction tokens using Job.passAfter_rec with
  | start =>
    exact ⟨[], [], [], rfl, rfl, List.forall_mem_nil _, List.forall_mem_nil _, ⟨0, rfl⟩, rfl,
      .of_fresh rfl rfl rfl (List.forall_mem_nil _)⟩
  | content tokens t c ih found =>
    obtain ⟨parts, current, row, now⟩ := ih prepared.of_concat
    exact ⟨parts, now.place found⟩
  | paragraphBreak tokens ih =>
    obtain ⟨parts, current, row, now⟩ := ih prepared.of_concat
    exact ⟨_, [], [], now.breakParagraph⟩
  | quiet tokens t ih quiet =>
    obtain ⟨parts, current, row, now⟩ := ih prepared.of_concat
    exact ⟨parts, current, _, now.step_quiet quiet prepared⟩

/-! ## Whole layouts -/

/-- The lines of a layout, paragraph by paragraph, with the tokens that each of them holds. -/
structure Job.PenLaw (job : Job α) (tokens : List (Token α)) (sheets : List (List (RowedLine α))) :
    Prop where
  lines : (job.layout tokens).lines = sheets.flatten.map RowedLine.line
  /-- The rows of a paragraph make up its segment: no token is lost, doubled or moved. -/
  segments : sheets.map tokensOf <+: job.segments tokens
  /-- In each paragraph the first line alone opens it, and every run starts where the margin, the
  indent on the first line, and the tokens before it on its line take it, shifted as the line is
  aligned. -/
  ruled : ∀ part ∈ sheets, job.RuledPart part
  /-- Content starts at the end of the word before it if nothing between them moves the pen. -/
  abuts : ∀ part ∈ sheets, ∀ e ∈ part,
    ¬ ((job.paragraphAt ((tokensOf part).map Prod.snd)).frame job.entity.width
      e.line.startsParagraph).Spreads
        (job.paragraphAt ((tokensOf part).map Prod.snd)).alignment e.line.runs →
    ∀ before style text glue style' t after,
      e.row = before ++ (style, .word text) :: (glue ++ (style', t) :: after) →
        text.isEmpty = false → (∀ g ∈ glue, g.2.movesPen = false) → t.content?.isSome = true →
          ∃ r s, e.line.runs[(styledContents before).length]? = some r ∧
            e.line.runs[(styledContents before).length + 1]? = some s ∧ s.startX = r.endX

/-- **The pen law.**  Where no tab and no late paragraph command disturbs it, every run starts at
the margin, plus the indent on the first line of a paragraph, plus what the tokens before it on its
line advance, plus one shift for the line, which is zero under left alignment; lines that
distributed alignment spreads excepted. -/
theorem Job.layout_pens (job : Job α) (tokens : List (Token α)) (prepared : Prepared tokens) :
    ∃ sheets, job.PenLaw tokens sheets := by
  obtain ⟨parts, current, row, now⟩ := job.passAfter_sheet tokens prepared
  have law (sheets : List (List (RowedLine α)))
      (lines : (job.layout tokens).lines = sheets.flatten.map RowedLine.line)
      (segments : sheets.map tokensOf <+: job.segments tokens)
      (ruled : ∀ part ∈ sheets, job.RuledPart part) : job.PenLaw tokens sheets := by
    refine ⟨lines, segments, ruled, ?_⟩
    intro part member e inPart unspread before style text glue style' t after tokens nonempty still
    exact ((ruled part member).ruled e inPart).abuts unspread tokens nonempty still
  have flushed := job.layout_lines_closed tokens
  split at flushed
  · next bare =>
    -- A line without runs opens its paragraph, so no line of the paragraph is closed.
    have opens : (job.passAfter tokens).cursor.startsParagraph = true := by
      by_contra continues
      obtain ⟨e, rest, rfl, content⟩ := now.holds.opened (Bool.eq_false_iff.mpr continues)
      have makeups := now.holds.makeups
      rw [List.isEmpty_iff.mp bare, Job.contentMakeups, styledContents] at makeups
      obtain ⟨c, found⟩ := Option.isSome_iff_exists.mp content
      simp [found] at makeups
    have once := now.once
    rw [opens] at once
    have alone : current = [] := List.map_eq_nil_iff.mp once.eq_nil
    refine ⟨parts, law parts ?_ ?_ now.complete⟩
    · rw [flushed, now.lines, alone, List.append_nil, List.append_nil]
    · rw [now.segments]
      exact List.prefix_append _ _
  · next filled =>
    refine ⟨parts ++ [current ++ [⟨row, (job.passAfter tokens).closedLine job⟩]],
      law _ ?_ ?_ ?_⟩
    · rw [flushed, now.lines]
      simp
    · rw [now.segments, List.map_append, List.map_singleton, tokensOf_concat]
    · exact List.forall_mem_append.mpr
        ⟨now.complete, List.forall_mem_singleton.mpr now.ruledPart⟩

/-- Box fonts in a narrow box: an indented paragraph that wraps, with blanks before its first word
and a change of height within it, and one without indent that is aligned to the right. -/
theorem Job.layout_pens_indented :
    let job : Job ℝ :=
      { fonts := BoxFonts.standard.source
        palette := fun _ => none
        colors := {}
        settings := Settings.standard
        entity := { Entity.standard with width := 5 } }
    let tokens : List (Token ℝ) :=
      [.format (.paragraph { indent := some 2, left := some 1 }), .space, .word (.text "glued"),
        .format (.height (.absolute 2)), .word (.text "words"), .space, .nonBreakingSpace,
        .word (.text "wrap"), .paragraphBreak,
        .format (.paragraph { alignment := some .right }), .stack ⟨"1", "2", .line⟩]
    Prepared tokens ∧ ∃ sheets, job.PenLaw tokens sheets := by
  intro job tokens
  have prepared : Prepared tokens := by
    refine ⟨by simp [tokens], fun before change after same => ?_⟩
    have places : before = [] ∨ before = tokens.take 8 ++ [.paragraphBreak] := by
      simp [tokens, List.cons_eq_append_iff] at same ⊢
      tauto
    rcases places with rfl | rfl
    · exact fun t member => nomatch member
    · rw [lastSegment_paragraphBreak]
      exact fun t member => nomatch member
  exact ⟨prepared, job.layout_pens tokens prepared⟩

end Sheets

end Lettering
