import Mathlib
import Lettering.Proofs.Advances
import Lettering.Proofs.Wrapping

/-!
# Wider boxes

In exact arithmetic a wider reference width puts no content on a later line.  Two passes over one
stream, at two widths, drift apart at the first line that only the narrow one breaks.  From then
on the pens cannot be compared alone: the wide pass is on the same line with its pen no further,
or on an earlier line while the narrow pen is not behind the margin (`Pass.Ahead`).  Each token
keeps this relation (`Pass.Ahead.step`).
-/

namespace Lettering

/-- The same job at another reference width. -/
def Job.atWidth {α : Type} (job : Job α) (width : α) : Job α :=
  { job with entity := { job.entity with width := width } }

/-- The wide pass has closed no more lines than the narrow one, and where its pen is further it
is on an earlier line. -/
structure Pass.Ahead {α : Type} [Scalar α] (wide narrow : Pass α) : Prop where
  formatting : wide.formatting = narrow.formatting
  phase : wide.phase = narrow.phase
  empty : wide.cursor.isLineEmpty = narrow.cursor.isLineEmpty
  lines : wide.lines.length ≤ narrow.lines.length
  /-- After a first line with a negative indent the narrow pen may be behind the margin, but then
  so is the wide one. -/
  pen : wide.cursor.pen ≤ narrow.cursor.pen ∨
    wide.lines.length < narrow.lines.length ∧ 0 ≤ narrow.cursor.pen

variable {α : Type} [ExactScalar α]

/-- A width is wider than another if it is greater or does not wrap at all. -/
def Wider (wide narrow : α) : Prop := 0 < narrow ∧ narrow ≤ wide ∨ wide ≤ 0

theorem Wider.usableWidth {wide narrow : α} (wider : Wider wide narrow) {paragraph : Paragraph α}
    {room : α} (found : paragraph.usableWidth wide = some room) :
    ∃ usable, paragraph.usableWidth narrow = some usable ∧ usable ≤ room := by
  have wraps := Paragraph.usableWidth_of_wraps found
  rcases wider with ⟨positive, le⟩ | unbounded
  · rw [Paragraph.usableWidth, if_pos wraps, Scalar.greater_eq_max] at found
    rw [Paragraph.usableWidth, if_pos positive, Scalar.greater_eq_max]
    refine ⟨_, rfl, ?_⟩
    rw [← Option.some.inj found]
    exact max_le_max_right 0 (sub_le_sub_right (sub_le_sub_right le _) _)
  · exact (not_lt.mpr unbounded wraps).elim

/-! ## Jobs at another width -/

section AtWidth

variable {job : Job α} {width : α}

/-- Commands do not look at the reference width. -/
theorem Job.apply_atWidth (absolute : job.settings.legacyWidthFactor = false) (f : Formatting α)
    (command : Command α) : (job.atWidth width).apply f command = job.apply f command := by
  cases command with
  | widthFactor scale =>
    show f.restyle (Style.setWidthFactor (job.atWidth width) scale) =
      f.restyle (Style.setWidthFactor job scale)
    congr 1
    funext s
    cases scale with
    | absolute factor => rfl
    | relative factor =>
      simp only [Style.setWidthFactor, Job.atWidth, absolute, Bool.false_and, Bool.false_eq_true,
        if_false]
  | _ => rfl

end AtWidth

namespace Pass.Ahead

variable {job : Job α} {width : α} {wide narrow : Pass α}

theorem style (ahead : wide.Ahead narrow) : wide.style = narrow.style :=
  congrArg Formatting.style ahead.formatting

theorem paragraph (ahead : wide.Ahead narrow) : wide.paragraph = narrow.paragraph :=
  congrArg Formatting.paragraph ahead.formatting

/-- Advancing both pens alike keeps the order. -/
theorem pen_add (ahead : wide.Ahead narrow) {advance : α} (forward : 0 ≤ advance) :
    wide.cursor.pen + advance ≤ narrow.cursor.pen + advance ∨
      wide.lines.length < narrow.lines.length ∧ 0 ≤ narrow.cursor.pen + advance := by
  rcases ahead.pen with le | ⟨earlier, inside⟩
  · exact .inl (add_le_add_left le advance)
  · exact .inr ⟨earlier, add_nonneg inside forward⟩

theorem beginContent (ahead : wide.Ahead narrow) : wide.beginContent.Ahead narrow.beginContent := by
  unfold Pass.beginContent
  rw [ahead.phase, ahead.empty, ahead.paragraph]
  split
  · exact ⟨ahead.formatting, rfl, ahead.empty, ahead.lines, .inl (le_refl _)⟩
  · exact ahead

/-- Where both passes are on the same line, the wide one breaks it only if the narrow one does. -/
theorem needsBreak (ahead : wide.Ahead narrow) (wider : Wider width job.entity.width)
    (le : wide.cursor.pen ≤ narrow.cursor.pen) {advance : α}
    (breaks : wide.needsBreak (job.atWidth width) advance = true) :
    narrow.needsBreak job advance = true := by
  obtain ⟨boundary, filled, room, found, overflows⟩ := Pass.needsBreak_iff.mp breaks
  rw [ahead.paragraph] at found
  obtain ⟨usable, narrowFound, less⟩ := wider.usableWidth found
  refine Pass.needsBreak_iff.mpr ⟨ahead.phase.symm.trans boundary, ?_, usable, narrowFound, ?_⟩
  · rw [ne_eq, ← List.isEmpty_iff, ← Cursor.isLineEmpty, ← ahead.empty, Cursor.isLineEmpty,
      List.isEmpty_iff]
    exact filled
  · exact less.trans_lt (overflows.trans_le (add_le_add_left le advance))

/-- Content acts alike on all but the lines and the pens. -/
theorem of_place (ahead : wide.Ahead narrow) {c : Content}
    (lines : (wide.place (job.atWidth width) c).lines.length ≤ (narrow.place job c).lines.length)
    (pen : (wide.place (job.atWidth width) c).cursor.pen ≤ (narrow.place job c).cursor.pen ∨
      (wide.place (job.atWidth width) c).lines.length < (narrow.place job c).lines.length ∧
        0 ≤ (narrow.place job c).cursor.pen) :
    (wide.place (job.atWidth width) c).Ahead (narrow.place job c) := by
  refine ⟨?_, rfl, by rw [Pass.isLineEmpty_place, Pass.isLineEmpty_place], lines, pen⟩
  rw [Pass.formatting_place, Pass.formatting_place, ahead.formatting, ahead.style]
  rfl

theorem contentAdvance (ahead : wide.Ahead narrow) (c : Content) :
    (job.atWidth width).contentAdvance wide.style c = job.contentAdvance narrow.style c := by
  rw [ahead.style]
  rfl

/-- The wide pass breaks a line alone only where it was on an earlier one before. -/
theorem place_of_needsBreak (ahead : wide.Ahead narrow) (wider : Wider width job.entity.width)
    {c : Content} (breaks : wide.needsBreak (job.atWidth width)
      ((job.atWidth width).contentWidth wide.style c) = true) :
    (wide.place (job.atWidth width) c).Ahead (narrow.place job c) := by
  have wideLines := Pass.length_lines_place_of_needsBreak breaks
  have widePen := Pass.pen_place_of_needsBreak breaks
  rw [ahead.contentAdvance] at widePen
  cases narrowBreaks : narrow.needsBreak job (job.contentWidth narrow.style c) with
  | true =>
    have narrowLines := Pass.length_lines_place_of_needsBreak narrowBreaks
    have narrowPen := Pass.pen_place_of_needsBreak narrowBreaks
    refine ahead.of_place ?_ (.inl ?_)
    · rw [wideLines, narrowLines]
      exact Nat.succ_le_succ ahead.lines
    · rw [widePen, narrowPen]
  | false =>
    have narrowLines := Pass.lines_place_of_fits narrowBreaks
    have narrowPen := Pass.pen_place_of_fits narrowBreaks
    rw [Pass.beginContent_of_phase (by
      rw [← ahead.phase, Pass.phase_of_needsBreak breaks]
      exact Phase.noConfusion)] at narrowPen
    rcases ahead.pen with le | ⟨earlier, inside⟩
    · -- With its pen no further the wide pass has more room left, so the narrow one breaks, too.
      rw [ahead.style] at breaks
      have both : narrow.needsBreak job (job.contentWidth narrow.style c) = true :=
        ahead.needsBreak wider le breaks
      rw [both] at narrowBreaks
      cases narrowBreaks
    · refine ahead.of_place ?_ (.inl ?_)
      · rw [wideLines, narrowLines]
        exact earlier
      · rw [widePen, narrowPen]
        exact add_le_add_left inside _

/-- Content that only the narrow pass puts on a new line leaves the wide pass a line earlier. -/
theorem place_of_fits (ahead : wide.Ahead narrow) {c : Content}
    (forward : 0 ≤ job.contentAdvance narrow.style c)
    (fits : wide.needsBreak (job.atWidth width)
      ((job.atWidth width).contentWidth wide.style c) = false) :
    (wide.place (job.atWidth width) c).Ahead (narrow.place job c) := by
  have wideLines := Pass.lines_place_of_fits fits
  have widePen := Pass.pen_place_of_fits fits
  rw [ahead.contentAdvance] at widePen
  cases narrowBreaks : narrow.needsBreak job (job.contentWidth narrow.style c) with
  | true =>
    have narrowPen := Pass.pen_place_of_needsBreak narrowBreaks
    have earlier : (wide.place (job.atWidth width) c).lines.length <
        (narrow.place job c).lines.length := by
      rw [wideLines, Pass.length_lines_place_of_needsBreak narrowBreaks]
      exact Nat.lt_succ_of_le ahead.lines
    refine ahead.of_place earlier.le (.inr ⟨earlier, ?_⟩)
    rw [narrowPen, zero_add]
    exact forward
  | false =>
    have narrowLines := Pass.lines_place_of_fits narrowBreaks
    have narrowPen := Pass.pen_place_of_fits narrowBreaks
    have pens := ahead.beginContent.pen_add forward
    rw [(Pass.SameLines.beginContent wide).lines, (Pass.SameLines.beginContent narrow).lines] at pens
    refine ahead.of_place ?_ ?_
    · rw [wideLines, narrowLines]
      exact ahead.lines
    · rw [wideLines, narrowLines, widePen, narrowPen]
      exact pens

theorem place (ahead : wide.Ahead narrow) (wider : Wider width job.entity.width) {c : Content}
    (forward : 0 ≤ job.contentAdvance narrow.style c) :
    (wide.place (job.atWidth width) c).Ahead (narrow.place job c) := by
  cases breaks : wide.needsBreak (job.atWidth width)
      ((job.atWidth width).contentWidth wide.style c) with
  | true => exact ahead.place_of_needsBreak wider breaks
  | false => exact ahead.place_of_fits forward breaks

theorem addBlank (ahead : wide.Ahead narrow) (positive : narrow.style.Positive) (phase : Phase) :
    (wide.addBlank phase).Ahead (narrow.addBlank phase) := by
  have begun := ahead.beginContent
  have pens := begun.pen_add (mul_nonneg positive.blankWidth.le positive.wordSpace)
  refine ⟨begun.formatting, rfl, begun.empty, begun.lines, ?_⟩
  show _ + wide.style.blankWidth * wide.style.wordSpace ≤ _ ∨ _
  rw [ahead.style]
  exact pens

theorem addTab (ahead : wide.Ahead narrow) :
    (wide.addTab (job.atWidth width)).Ahead (narrow.addTab job) := by
  have begun := ahead.beginContent
  have target (pen : α) : wide.beginContent.tabTarget (job.atWidth width) pen =
      narrow.beginContent.tabTarget job pen := by
    unfold Pass.tabTarget
    rw [begun.style, begun.paragraph]
    rfl
  refine ⟨begun.formatting, rfl, begun.empty, begun.lines, ?_⟩
  show wide.beginContent.tabTarget (job.atWidth width) _ ≤ _ ∨ _
  rw [target]
  rcases begun.pen with le | ⟨earlier, inside⟩
  · exact .inl (Pass.tabTarget_mono job _ le)
  · exact .inr ⟨earlier, inside.trans (Pass.le_tabTarget job _ _)⟩

theorem breakParagraph (ahead : wide.Ahead narrow) :
    (wide.breakParagraph (job.atWidth width)).Ahead (narrow.breakParagraph job) := by
  refine ⟨?_, rfl, rfl, ?_, .inl (le_refl 0)⟩
  · show ({ wide.formatting with paragraph := _ } : Formatting α) = _
    rw [ahead.formatting]
    rfl
  · show (wide.lines ++ [_]).length ≤ (narrow.lines ++ [_]).length
    rw [List.length_append, List.length_append]
    exact Nat.succ_le_succ ahead.lines

/-- Each token keeps the wide pass ahead. -/
theorem step (ahead : wide.Ahead narrow) (wider : Wider width job.entity.width)
    (absolute : job.settings.legacyWidthFactor = false) (forward : job.Forward)
    (positive : narrow.style.Positive) (t : Token α) :
    (wide.step (job.atWidth width) t).Ahead (narrow.step job t) := by
  cases found : t.content? with
  | some c =>
    rw [Pass.step_content found, Pass.step_content found]
    exact ahead.place wider (forward.contentAdvance_nonneg positive c)
  | none =>
    cases t with
    | word text =>
      rw [Pass.step_emptyWord found, Pass.step_emptyWord found]
      exact ahead
    | space => exact ahead.addBlank positive _
    | nonBreakingSpace => exact ahead.addBlank positive _
    | tab => exact ahead.addTab
    | paragraphBreak => exact ahead.breakParagraph
    | stack e => cases found
    | format command =>
      refine ⟨?_, ahead.phase, ahead.empty, ahead.lines, ahead.pen⟩
      show (job.atWidth width).apply wide.formatting command = job.apply narrow.formatting command
      rw [Job.apply_atWidth absolute, ahead.formatting]

end Pass.Ahead

/-! ## Whole layouts -/

section Layout

variable {job : Job α} {width : α}

/-- At every point of a stream the pass at a wider width is ahead. -/
theorem Job.passAfter_ahead (forward : job.Forward)
    (absolute : job.settings.legacyWidthFactor = false) (wider : Wider width job.entity.width)
    (tokens : List (Token α)) :
    ((job.atWidth width).passAfter tokens).Ahead (job.passAfter tokens) := by
  induction tokens using List.reverseRecOn with
  | nil => exact ⟨rfl, rfl, rfl, Nat.le_refl 0, .inl (le_refl 0)⟩
  | append_singleton tokens t ih =>
    rw [Job.passAfter_concat, Job.passAfter_concat]
    exact ih.step wider absolute forward (job.styles_positive forward tokens).active t

/-- Each content token is on no later line at a wider width. -/
theorem Job.lineNumbers_atWidth (forward : job.Forward)
    (absolute : job.settings.legacyWidthFactor = false) (wider : Wider width job.entity.width)
    (tokens : List (Token α)) :
    List.Forall₂ (· ≤ ·) ((job.atWidth width).passAfter tokens).lineNumbers
      (job.passAfter tokens).lineNumbers := by
  induction tokens using List.reverseRecOn with
  | nil => exact .nil
  | append_singleton tokens t ih =>
    have later := (Job.passAfter_ahead forward absolute wider (tokens ++ [t])).lines
    rw [Job.passAfter_concat, Job.passAfter_concat] at later ⊢
    rw [Pass.lineNumbers_step, Pass.lineNumbers_step]
    refine List.rel_append ih ?_
    cases t.content? with
    | none => exact .nil
    | some c => exact .cons later .nil

theorem Job.length_lines_layout (job : Job α) (tokens : List (Token α)) :
    (job.layout tokens).lines.length = (job.passAfter tokens).lines.length +
      if (job.passAfter tokens).cursor.isLineEmpty then 0 else 1 := by
  rw [← List.length_map (f := Line.sketch), job.layout_sketches]
  split
  · exact List.length_map _
  · rw [Pass.sketches, List.length_append, List.length_map]
    rfl

/-- **A wider reference width never produces more lines**, nor puts any content on a later line,
as long as nothing moves the pen back. -/
theorem Job.layout_atWidth (forward : job.Forward)
    (absolute : job.settings.legacyWidthFactor = false) (wider : Wider width job.entity.width)
    (tokens : List (Token α)) :
    ((job.atWidth width).layout tokens).lineNumbers.length = (contentsOf tokens).length ∧
      List.Forall₂ (· ≤ ·) ((job.atWidth width).layout tokens).lineNumbers
        (job.layout tokens).lineNumbers ∧
      ((job.atWidth width).layout tokens).lines.length ≤ (job.layout tokens).lines.length := by
  refine ⟨?_, ?_, ?_⟩
  · rw [Job.layout_lineNumbers, Job.length_lineNumbers]
  · rw [Job.layout_lineNumbers, Job.layout_lineNumbers]
    exact Job.lineNumbers_atWidth forward absolute wider tokens
  · have ahead := Job.passAfter_ahead forward absolute wider tokens
    rw [Job.length_lines_layout, Job.length_lines_layout, ahead.empty]
    exact Nat.add_le_add_right ahead.lines _

/-- Box fonts at the standard settings, but for the width factor, in boxes of widths 5 and 10. -/
theorem Job.layout_atWidth_ten :
    let job : Job ℝ :=
      { fonts := BoxFonts.standard.source
        palette := fun _ => none
        colors := {}
        settings := { Settings.standard with legacyWidthFactor := false }
        entity := { Entity.standard with width := 5 } }
    let tokens : List (Token ℝ) :=
      [.word (.text "wide"), .space, .word (.text "boxes"), .tab, .stack ⟨"1", "2", .line⟩,
        .format (.height (.absolute 2)), .word (.text "hold"), .paragraphBreak, .tab,
        .word (.text "more")]
    (job.Forward ∧ job.settings.legacyWidthFactor = false ∧ Wider 10 job.entity.width) ∧
      ((job.atWidth 10).layout tokens).lineNumbers.length = (contentsOf tokens).length ∧
      List.Forall₂ (· ≤ ·) ((job.atWidth 10).layout tokens).lineNumbers
        (job.layout tokens).lineNumbers ∧
      ((job.atWidth 10).layout tokens).lines.length ≤ (job.layout tokens).lines.length := by
  intro job tokens
  have forward : job.Forward := by
    refine ⟨BoxFonts.forward_standard, ?_, ?_⟩
    · norm_num [job, Settings.standard]
    · norm_num [job, Settings.standard]
  have wider : Wider 10 job.entity.width := .inl (by norm_num [job])
  exact ⟨⟨forward, rfl, wider⟩, Job.layout_atWidth forward rfl wider tokens⟩

end Layout

end Lettering
