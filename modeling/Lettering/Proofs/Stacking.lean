import Mathlib
import Lettering.Font.BoxFonts
import Lettering.Proofs.Closing
import Lettering.Proofs.PositiveSizes

/-!
# Lines above each other

Where the lines of a block stand, in exact arithmetic.  A line takes up the band from its baseline
to its top, a size above.  `Job.layout_descends` says that lines that follow each other downwards
fill the space from zero down to the height of the block without overlapping.

Upwards this holds of lines of one size only.  A line always moves the baseline by its own advance,
which clears the line itself but not the line below (`Job.layout_ascends`): a low line on a high one
overlaps it, and the block ends above or below its height by what the sizes of its first and its
last line differ (`Job.ascending_lines_overlap`).
-/

namespace Lettering

variable {α : Type} [ExactScalar α] {job : Job α}

/-! ## One line behind others -/

/-- The top of the band of a line. -/
def Line.top (l : Line α) : α := l.baseline + l.maxSize

/-- A line as it closes behind other lines. -/
structure Line.Follows (leading : Leading α) (lines : List (Line α)) (l : Line α) : Prop where
  maxSize : 0 < l.maxSize
  advance : ∃ current, 0 < current ∧ l.advance = leading.advance lines.length l.maxSize current
  baseline : l.baseline =
    if lines = [] then if leading.flow.isUpward then 0 else -l.maxSize
    else lastBaseline lines + leading.flow.sign * l.advance

/-- Lines each of which closed behind those before. -/
inductive Stacked (leading : Leading α) : List (Line α) → Prop
  | nil : Stacked leading []
  | concat {lines : List (Line α)} {l : Line α} (below : Stacked leading lines)
      (follows : l.Follows leading lines) : Stacked leading (lines ++ [l])

theorem Pass.follows_closedLine (p : Pass α) (usable : p.style.Usable)
    (measured : p.column.Measured) : (p.closedLine job).Follows job.leading p.lines := by
  have lineCount : p.cursor.lineCount = p.lines.length := measured.lineCount
  have baseline : p.cursor.baseline = lastBaseline p.lines := measured.baseline
  constructor
  · rw [Pass.maxSize_closedLine, Cursor.lineSize]
    split
    · assumption
    · exact usable.effectiveSize
  · refine ⟨p.style.effectiveSize, usable.effectiveSize, ?_⟩
    rw [Pass.advance_closedLine, Pass.maxSize_closedLine, Cursor.lineAdvance, lineCount]
  · rw [Pass.baseline_closedLine, Pass.maxSize_closedLine, Pass.advance_closedLine,
      Cursor.lineBaseline, lineCount, baseline]
    simp only [List.length_eq_zero_iff]

/-- The lines of a layout stand on each other, and its height is the sum of their advances. -/
theorem Job.layout_stacked (job : Job α) (tokens : List (Token α)) :
    Stacked job.leading (job.layout tokens).lines ∧
      (job.layout tokens).height = ((job.layout tokens).lines.map (·.advance)).sum := by
  obtain ⟨column, ⟨stacked, measured⟩, lines, height⟩ :=
    job.layout_column
      (motive := fun column => Stacked job.leading column.lines ∧ column.Measured)
      ⟨.nil, .start⟩
      (fun before ih => ⟨ih.1.concat
        (Pass.follows_closedLine _ (job.style_usable before) (job.column_measured before)),
          ih.2.close _⟩) tokens
  rw [lines, height, measured.height, Scalar.sum_eq_sum]
  exact ⟨stacked, rfl⟩

variable {leading : Leading α} {lines : List (Line α)} {l : Line α}

theorem Stacked.of_concat (stacked : Stacked leading (lines ++ [l])) :
    Stacked leading lines ∧ l.Follows leading lines := by
  generalize all : lines ++ [l] = whole at stacked
  cases stacked with
  | nil => exact (List.append_ne_nil_of_right_ne_nil _ (List.cons_ne_nil _ _) all).elim
  | concat below follows =>
    obtain ⟨rfl, same⟩ := List.append_inj' all rfl
    cases same
    exact ⟨below, follows⟩

theorem Stacked.of_append {earlier later : List (Line α)}
    (stacked : Stacked leading (earlier ++ later)) : Stacked leading earlier := by
  induction later using List.reverseRecOn with
  | nil => rwa [List.append_nil] at stacked
  | append_singleton later l ih =>
    rw [← List.append_assoc] at stacked
    exact ih stacked.of_concat.1

theorem Stacked.follows {earlier later : List (Line α)}
    (stacked : Stacked leading (earlier ++ l :: later)) :
    Stacked leading (earlier ++ [l]) ∧ l.Follows leading earlier := by
  rw [← List.singleton_append, ← List.append_assoc] at stacked
  exact ⟨stacked.of_append, stacked.of_append.of_concat.2⟩

theorem Stacked.first {later : List (Line α)} (stacked : Stacked leading (l :: later)) :
    l.Follows leading [] := by
  rw [← List.nil_append (l :: later)] at stacked
  exact stacked.follows.2

theorem Stacked.maxSize_pos (stacked : Stacked leading lines) : ∀ l ∈ lines, 0 < l.maxSize := by
  intro l member
  obtain ⟨earlier, later, rfl⟩ := List.append_of_mem member
  exact stacked.follows.2.maxSize

theorem lastBaseline_of_getLast? (last : l ∈ lines.getLast?) : lastBaseline lines = l.baseline := by
  rw [lastBaseline, Option.mem_def.mp last, Option.map_some, Option.getD_some]

theorem Line.Follows.advance_of_first (first : l.Follows leading []) : l.advance = l.maxSize := by
  obtain ⟨current, -, advance⟩ := first.advance
  rw [advance, Leading.advance, List.length_nil, if_pos rfl]

/-- A leading that is not negative keeps an advance above the size of its line. -/
theorem Line.Follows.maxSize_le_advance (follows : l.Follows leading lines)
    (factor : 0 ≤ leading.factor) (constant : 0 ≤ leading.constant) : l.maxSize ≤ l.advance := by
  obtain ⟨current, positive, advance⟩ := follows.advance
  rw [advance, Leading.advance]
  split
  · exact le_refl _
  · exact le_add_of_nonneg_left (mul_nonneg (mul_nonneg factor positive.le) constant)

/-! ## Downwards -/

section Downwards

variable (down : leading.flow.isUpward = false)

include down

theorem Line.Follows.baseline_down (follows : l.Follows leading lines) :
    l.baseline = lastBaseline lines - l.advance := by
  rw [follows.baseline]
  split
  · next first =>
    subst first
    rw [if_neg (by rw [down]; exact Bool.false_ne_true), follows.advance_of_first]
    exact (zero_sub _).symm
  · rw [Flow.sign, if_neg (by rw [down]; exact Bool.false_ne_true), neg_one_mul, sub_eq_add_neg]

theorem Stacked.lastBaseline_down (stacked : Stacked leading lines) :
    lastBaseline lines = -(lines.map (·.advance)).sum := by
  induction stacked with
  | nil => exact neg_zero.symm
  | concat below follows ih =>
    rw [lastBaseline_concat, follows.baseline_down down, ih, List.map_append, List.sum_append,
      List.map_singleton, List.sum_singleton, neg_add, sub_eq_add_neg]

/-- The tops of lines are below all baselines before, and so is the last baseline. -/
theorem Stacked.bands_down (stacked : Stacked leading lines) (factor : 0 ≤ leading.factor)
    (constant : 0 ≤ leading.constant) :
    lastBaseline lines ≤ 0 ∧ (∀ l ∈ lines, lastBaseline lines ≤ l.baseline ∧ l.top ≤ 0) ∧
      lines.Pairwise fun l m => m.top ≤ l.baseline := by
  -- A new line is compared with the last baseline alone, which is below all others.
  induction stacked with
  | nil => exact ⟨le_refl _, fun _ member => (nomatch member), .nil⟩
  | @concat lines l below follows ih =>
    obtain ⟨negative, bands, apart⟩ := ih
    have baseline := follows.baseline_down down
    have clears := follows.maxSize_le_advance factor constant
    have top : l.top ≤ lastBaseline lines := by
      rw [Line.top, baseline]
      linarith
    have lower : l.baseline ≤ lastBaseline lines :=
      (le_add_of_nonneg_right follows.maxSize.le).trans top
    rw [lastBaseline_concat]
    refine ⟨lower.trans negative, ?_, ?_⟩
    · intro m member
      rcases List.mem_append.mp member with old | new
      · exact ⟨lower.trans (bands m old).1, (bands m old).2⟩
      · obtain rfl := List.mem_singleton.mp new
        exact ⟨le_refl _, top.trans negative⟩
    · refine List.pairwise_append.mpr ⟨apart, List.pairwise_singleton _ _, fun m old n new => ?_⟩
      obtain rfl := List.mem_singleton.mp new
      exact top.trans (bands m old).1

end Downwards

/-- A block whose lines follow each other downwards without overlapping. -/
structure Block.Descends (b : Block α) : Prop where
  /-- A baseline is the sum of the advances so far, below zero. -/
  baseline : ∀ earlier l later, b.lines = earlier ++ l :: later →
    l.baseline = -((earlier ++ [l]).map (·.advance)).sum
  height : b.height = (b.lines.map (·.advance)).sum
  maxSize : ∀ l ∈ b.lines, 0 < l.maxSize
  /-- The top of a line is at most the baseline of each line before it. -/
  apart : b.lines.Pairwise fun l m => m.top ≤ l.baseline
  within : ∀ l ∈ b.lines, -b.height ≤ l.baseline ∧ l.top ≤ 0
  /-- The block reaches up to zero and down to its height. -/
  first : ∀ l ∈ b.lines.head?, l.top = 0
  last : ∀ l ∈ b.lines.getLast?, l.baseline = -b.height

/-- **Lines that follow each other downwards fill the height of their block**, and no two of them
overlap. -/
theorem Job.layout_descends (job : Job α) (factor : 0 ≤ job.entity.lineSpaceFactor)
    (constant : 0 ≤ job.settings.spacingConstant) (flow : job.entity.flow ≠ .bottomToTop)
    (tokens : List (Token α)) : (job.layout tokens).Descends := by
  have down : job.leading.flow.isUpward = false := by
    show job.entity.flow.isUpward = false
    cases direction : job.entity.flow with
    | bottomToTop => exact (flow direction).elim
    | _ => rfl
  obtain ⟨stacked, height⟩ := job.layout_stacked tokens
  have bottom : lastBaseline (job.layout tokens).lines = -(job.layout tokens).height := by
    rw [height, stacked.lastBaseline_down down]
  obtain ⟨-, bands, apart⟩ := stacked.bands_down down factor constant
  refine ⟨?_, height, stacked.maxSize_pos, apart, ?_, ?_, ?_⟩
  · intro earlier l later lines
    rw [lines] at stacked
    rw [← stacked.follows.1.lastBaseline_down down, lastBaseline_concat]
  · rw [← bottom]
    exact bands
  · intro l head
    obtain ⟨rest, lines⟩ := List.head?_eq_some_iff.mp head
    rw [lines] at stacked
    have first : l.Follows job.leading [] := stacked.first
    rw [Line.top, first.baseline_down down, first.advance_of_first]
    exact (sub_add_cancel _ _)
  · intro l last
    rw [← bottom, lastBaseline_of_getLast? last]

/-- Box fonts at the standard settings, with lines of sizes 1, 3, 3 and 0.5, one of them bare. -/
theorem Job.layout_descends_mixed :
    let job : Job ℝ :=
      { fonts := BoxFonts.standard.source
        palette := fun _ => none
        colors := {}
        settings := Settings.standard
        entity := Entity.standard }
    let tokens : List (Token ℝ) :=
      [.word (.text "low"), .paragraphBreak, .format (.height (.absolute 3)),
        .word (.text "high"), .paragraphBreak, .paragraphBreak,
        .format (.height (.absolute 0.5)), .stack ⟨"1", "2", .line⟩]
    (0 ≤ job.entity.lineSpaceFactor ∧ 0 ≤ job.settings.spacingConstant ∧
      job.entity.flow ≠ .bottomToTop) ∧ (job.layout tokens).Descends := by
  intro job tokens
  have factor : 0 ≤ job.entity.lineSpaceFactor := zero_le_one
  have constant : 0 ≤ job.settings.spacingConstant :=
    div_nonneg (Int.cast_nonneg (by decide)) (Int.cast_nonneg (by decide))
  have flow : job.entity.flow ≠ .bottomToTop := by decide
  exact ⟨⟨factor, constant, flow⟩, job.layout_descends factor constant flow tokens⟩

/-! ## Upwards -/

section Upwards

variable (up : leading.flow.isUpward = true)

include up

theorem Line.Follows.baseline_up (follows : l.Follows leading lines) :
    l.baseline = if lines = [] then 0 else lastBaseline lines + l.advance := by
  rw [follows.baseline, Flow.sign, if_pos up, if_pos up, one_mul]

/-- The first line stands at zero, so only the advances of the others add up. -/
theorem Stacked.lastBaseline_up (stacked : Stacked leading lines) :
    ∀ first ∈ lines.head?, lastBaseline lines = (lines.map (·.advance)).sum - first.maxSize := by
  induction stacked with
  | nil => exact fun _ none => nomatch none
  | @concat lines l below follows ih =>
    intro first head
    rw [lastBaseline_concat, follows.baseline_up up, List.map_append, List.sum_append,
      List.map_singleton, List.sum_singleton]
    split
    · next alone =>
      subst alone
      obtain rfl := Option.some.inj head
      rw [follows.advance_of_first]
      simp
    · next others =>
      obtain ⟨low, rest, rfl⟩ := List.exists_cons_of_ne_nil others
      obtain rfl := Option.some.inj head
      rw [ih low rfl]
      exact (add_sub_right_comm _ _ _).symm

end Upwards

/-- A block whose lines follow each other upwards. -/
structure Block.Ascends (b : Block α) : Prop where
  first : ∀ l ∈ b.lines.head?, l.baseline = 0
  height : b.height = (b.lines.map (·.advance)).sum
  maxSize : ∀ l ∈ b.lines, 0 < l.maxSize
  /-- A line stands its own advance above the line below, and its advance clears its own size. -/
  next : ∀ earlier l m later, b.lines = earlier ++ l :: m :: later →
    m.baseline = l.baseline + m.advance ∧ m.maxSize ≤ m.advance
  /-- So it clears the line below exactly if that line is no higher than the advance. -/
  apart_iff : ∀ earlier l m later, b.lines = earlier ++ l :: m :: later →
    (l.top ≤ m.baseline ↔ l.maxSize ≤ m.advance)
  /-- The block reaches up to its height exactly if its first and its last line are equally high. -/
  top : ∀ l ∈ b.lines.head?, ∀ m ∈ b.lines.getLast?, m.top = b.height + (m.maxSize - l.maxSize)

/-- **Lines that follow each other upwards** each clear their own size above the baseline below. -/
theorem Job.layout_ascends (job : Job α) (factor : 0 ≤ job.entity.lineSpaceFactor)
    (constant : 0 ≤ job.settings.spacingConstant) (flow : job.entity.flow = .bottomToTop)
    (tokens : List (Token α)) : (job.layout tokens).Ascends := by
  have up : job.leading.flow.isUpward = true := by
    show job.entity.flow.isUpward = true
    rw [flow]
    rfl
  obtain ⟨stacked, height⟩ := job.layout_stacked tokens
  have next : ∀ earlier l m later, (job.layout tokens).lines = earlier ++ l :: m :: later →
      m.baseline = l.baseline + m.advance ∧ m.maxSize ≤ m.advance := by
    intro earlier l m later lines
    rw [lines, ← List.singleton_append, ← List.append_assoc] at stacked
    have follows := stacked.follows.2
    refine ⟨?_, follows.maxSize_le_advance factor constant⟩
    have others : earlier ++ [l] ≠ [] :=
      List.append_ne_nil_of_right_ne_nil _ (List.cons_ne_nil _ _)
    rw [follows.baseline_up up, if_neg others, lastBaseline_concat]
  refine ⟨?_, height, stacked.maxSize_pos, next, ?_, ?_⟩
  · intro l head
    obtain ⟨rest, lines⟩ := List.head?_eq_some_iff.mp head
    rw [lines] at stacked
    have first : l.Follows job.leading [] := stacked.first
    rw [first.baseline_up up, if_pos rfl]
  · intro earlier l m later lines
    rw [(next earlier l m later lines).1]
    exact add_le_add_iff_left _
  · intro l head m last
    rw [Line.top, ← lastBaseline_of_getLast? last, stacked.lastBaseline_up up l head, height]
    ring

/-- Box fonts with two lines of one size. -/
theorem Job.layout_ascends_even :
    let job : Job ℝ :=
      { fonts := BoxFonts.standard.source
        palette := fun _ => none
        colors := {}
        settings := { Settings.standard with spacingConstant := 1 / 2 }
        entity := { Entity.standard with flow := .bottomToTop } }
    let tokens : List (Token ℝ) := [.word (.text "low"), .paragraphBreak, .word (.text "high")]
    (0 ≤ job.entity.lineSpaceFactor ∧ 0 ≤ job.settings.spacingConstant ∧
      job.entity.flow = .bottomToTop) ∧ (job.layout tokens).Ascends := by
  intro job tokens
  have factor : 0 ≤ job.entity.lineSpaceFactor := zero_le_one
  have constant : 0 ≤ job.settings.spacingConstant := one_half_pos.le
  exact ⟨⟨factor, constant, rfl⟩, job.layout_ascends factor constant rfl tokens⟩

/-- A word that opens a paragraph alone makes its line as high as its own style. -/
theorem Pass.closedLine_opening {p : Pass α} (opens : p.phase = .atParagraphBreak)
    (unsized : p.cursor.maxSize = 0) (size : 0 < p.style.effectiveSize) (job : Job α)
    (text : WordText) :
    let l := (p.place job (.word text)).closedLine job
    (p.place job (.word text)).column = p.column ∧ l.maxSize = p.style.effectiveSize ∧
      l.advance =
        job.leading.advance p.cursor.lineCount p.style.effectiveSize p.style.effectiveSize := by
  have fits : p.needsBreak job (job.contentWidth p.style (.word text)) = false := by
    simp only [Pass.needsBreak, opens, reduceCtorEq, decide_false, Bool.false_and]
  have column := Pass.column_place job (.word text) p
  rw [if_neg (Bool.eq_false_iff.mp fits)] at column
  have lineCount : (p.place job (.word text)).cursor.lineCount = p.cursor.lineCount :=
    congrArg Column.lineCount column
  have style : (p.place job (.word text)).style = p.style := by
    rw [Pass.style, Pass.formatting_place]
    rfl
  have recorded : (p.place job (.word text)).cursor.maxSize = p.style.effectiveSize := by
    obtain ⟨pen, begun⟩ := (Pass.SameLines.beginContent p).cursor
    rw [Pass.place, Pass.ready_of_fits fits]
    show (Cursor.recordSize p.beginContent.cursor p.style.effectiveSize).maxSize = _
    rw [Cursor.recordSize, begun, if_pos (unsized ▸ size)]
  have lineSize : (p.place job (.word text)).cursor.lineSize p.style.effectiveSize =
      p.style.effectiveSize := by
    rw [Cursor.lineSize, recorded, if_pos size]
  intro l
  rw [Pass.maxSize_closedLine, Pass.advance_closedLine, Cursor.lineAdvance, style, lineSize,
    lineCount]
  exact ⟨column, rfl, rfl⟩

/-- Two paragraphs of one word each, the second word at a size of its own, make two lines. -/
theorem Job.layout_pair (job : Job α) (first second : WordText) (inked : first.isEmpty = false)
    (inked' : second.isEmpty = false) {size : α} (positive : 0 < size) :
    ∃ low high, (job.layout [.word first, .paragraphBreak, .format (.height (.absolute size)),
        .word second]).lines = [low, high] ∧
      low.maxSize = job.baseStyle.effectiveSize ∧ high.maxSize = size ∧
      high.advance = job.leading.factor * size * job.leading.constant + size := by
  let below := (Pass.start job).place job (.word first)
  let opened := (below.breakParagraph job).step job (.format (.height (.absolute size)))
  have after : job.passAfter [.word first, .paragraphBreak, .format (.height (.absolute size)),
      .word second] = opened.place job (.word second) := by
    rw [Job.passAfter, Pass.run]
    simp only [List.foldl_cons, List.foldl_nil]
    rw [Pass.step_content (Token.content?_word inked'),
      Pass.step_content (Token.content?_word inked)]
    rfl
  have openedStyle : opened.style = job.baseStyle.setHeight (.absolute size) := by
    show (below.formatting.style).setHeight (.absolute size) = _
    rw [Pass.formatting_place]
    rfl
  have openedSize : opened.style.effectiveSize = size := by
    rw [openedStyle, Style.setHeight, if_pos (Scalar.isPositive_iff.mpr positive)]
    exact mul_one size
  obtain ⟨belowColumn, lowSize, -⟩ := Pass.closedLine_opening (p := Pass.start job) rfl rfl
    (job.style_usable []).effectiveSize job first
  obtain ⟨aboveColumn, highSize, highAdvance⟩ := Pass.closedLine_opening (p := opened) rfl rfl
    (openedSize.symm ▸ positive) job second
  have openedColumn : opened.column =
      (Pass.start job).column.close (below.closedLine job) := by
    rw [← belowColumn]
    exact Pass.column_breakParagraph job below
  have lineCount : opened.cursor.lineCount = 1 := congrArg Column.lineCount openedColumn
  refine ⟨below.closedLine job, (opened.place job (.word second)).closedLine job, ?_, lowSize,
    ?_, ?_⟩
  · have flushed : ((opened.place job (.word second)).flush job).column =
        opened.column.close ((opened.place job (.word second)).closedLine job) := by
      rw [Pass.flush, if_neg (by rw [Pass.isLineEmpty_place]; simp), Pass.column_breakLine,
        aboveColumn]
    rw [Job.layout_lines_flush, after]
    exact (congrArg Column.lines flushed).trans (congrArg (Column.lines · ++ _) openedColumn)
  · rw [highSize, openedSize]
  · rw [highAdvance, openedSize, lineCount]
    rfl

/-- A line of size 1 on a line of size 4: it stands in the band of the line below, and the block
ends 3 below its height. -/
theorem Job.ascending_lines_overlap :
    let job : Job ℝ :=
      { fonts := BoxFonts.standard.source
        palette := fun _ => none
        colors := {}
        settings := { Settings.standard with spacingConstant := 1 / 2 }
        entity := { Entity.standard with height := 4, flow := .bottomToTop } }
    let tokens : List (Token ℝ) :=
      [.word (.text "a"), .paragraphBreak, .format (.height (.absolute 1)), .word (.text "b")]
    (0 ≤ job.entity.lineSpaceFactor ∧ 0 ≤ job.settings.spacingConstant ∧
      0 < job.settings.scriptScale ∧ job.entity.flow = .bottomToTop) ∧
      ∃ low high, (job.layout tokens).lines = [low, high] ∧ high.baseline < low.top ∧
        high.top ≠ (job.layout tokens).height := by
  intro job tokens
  refine ⟨⟨zero_le_one, one_half_pos.le, by norm_num [job, Settings.standard], rfl⟩, ?_⟩
  have baseSize : job.baseStyle.effectiveSize = 4 := by
    have height : Scalar.isPositive job.entity.height = true :=
      Scalar.isPositive_iff.mpr (by norm_num [job])
    show (if Scalar.isPositive job.entity.height then job.entity.height else 1) * 1 = 4
    rw [if_pos height, mul_one]
  obtain ⟨low, high, lines, lowSize, highSize, highAdvance⟩ :=
    job.layout_pair (.text "a") (.text "b") rfl rfl one_pos
  obtain ⟨stacked, height⟩ := job.layout_stacked tokens
  rw [lines] at stacked height
  have lowFollows : low.Follows job.leading [] := stacked.first
  have highFollows : high.Follows job.leading [low] :=
    (show Stacked job.leading ([low] ++ [high]) from stacked).of_concat.2
  have lowBaseline : low.baseline = 0 := lowFollows.baseline_up rfl
  have highBaseline : high.baseline = low.baseline + high.advance := highFollows.baseline_up rfl
  have leading : job.leading.factor * 1 * job.leading.constant = 1 / 2 := by
    show (1 : ℝ) * 1 * (1 / 2) = 1 / 2
    norm_num
  refine ⟨low, high, lines, ?_, ?_⟩
  · rw [Line.top, highBaseline, lowBaseline, highAdvance, leading, lowSize, baseSize]
    norm_num
  · rw [height, List.map_cons, List.map_singleton, List.sum_pair, lowFollows.advance_of_first,
      Line.top, highBaseline, lowBaseline, highAdvance, leading, highSize, lowSize, baseSize]
    norm_num

end Lettering
