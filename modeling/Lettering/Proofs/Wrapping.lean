import Lettering.Proofs.LineNumbers
import Lettering.Proofs.Paragraphs

/-!
# Greedy wrapping

Content opens a line that opens no paragraph exactly if it must (`Job.MustWrap`): it is not the
first of its paragraph, it comes right after a space, a tab or a stack, lines wrap, and its width
does not fit behind the pen.

The phase of a pass is read off the stream by `Job.phase_passAfter`, so that the test of a pass
is the condition (`Job.needsBreak_iff_mustWrap`).  A line number that a layout shows was decided
when the content was placed: later tokens add lines only behind it (`Job.continues_step`).
-/

namespace Lettering

variable {α : Type}

/-! ## Break opportunities -/

/-- Whether a token moves the pen within a paragraph. -/
def Token.movesPen : Token α → Bool
  | .word text => !text.isEmpty
  | .space | .nonBreakingSpace | .tab | .stack _ => true
  | .paragraphBreak | .format _ => false

/-- Whether content may go to a new line after a token. -/
def Token.allowsBreak : Token α → Bool
  | .space | .tab | .stack _ => true
  | _ => false

/-- Whether a token keeps the words on its two sides together. -/
def Token.isGlue : Token α → Bool
  | .word text => text.isEmpty
  | .nonBreakingSpace | .format _ => true
  | _ => false

/-- The last token of the last segment that moved the pen. -/
def lastMove (tokens : List (Token α)) : Option (Token α) :=
  ((lastSegment tokens).filter Token.movesPen).getLast?

/-- Where a pass stands, by the last token that moved the pen. -/
def phaseAfter : Option (Token α) → Phase
  | none => .atParagraphBreak
  | some t => if t.allowsBreak then .atWordBoundary else .inLine

theorem phaseAfter_eq_boundary {last : Option (Token α)} :
    phaseAfter last = .atWordBoundary ↔ ∃ t, last = some t ∧ t.allowsBreak = true := by
  cases last with
  | none => simp [phaseAfter]
  | some t =>
    rw [phaseAfter]
    split
    · next allows => simp [allows]
    · next forbids => simp [forbids]

theorem Token.noBreak_of_movesPen {t : Token α} (moves : t.movesPen = true) :
    t.isParagraphBreak = false := by
  cases t with
  | paragraphBreak => cases moves
  | _ => rfl

/-- What does not move the pen is no content. -/
theorem Token.content?_of_still {t : Token α} (still : t.movesPen = false) : t.content? = none := by
  cases t with
  | word text => simpa [Token.movesPen, Token.content?] using still
  | stack e => cases still
  | _ => rfl

theorem lastMove_concat {t : Token α} (moves : t.movesPen = true) (tokens : List (Token α)) :
    lastMove (tokens ++ [t]) = some t := by
  rw [lastMove, lastSegment_concat (Token.noBreak_of_movesPen moves), List.filter_append,
    List.filter_cons_of_pos moves, List.filter_nil, List.getLast?_concat]

theorem lastMove_concat_still {t : Token α} (inside : t.isParagraphBreak = false)
    (still : t.movesPen = false) (tokens : List (Token α)) :
    lastMove (tokens ++ [t]) = lastMove tokens := by
  rw [lastMove, lastSegment_concat inside, List.filter_append,
    List.filter_cons_of_neg (by rw [still]; exact Bool.false_ne_true), List.filter_nil,
    List.append_nil, lastMove]

theorem Token.quiet_of_isGlue {t : Token α} (glue : t.isGlue = true) : t.Quiet := by
  cases t with
  | word text => exact ⟨if_pos glue, rfl⟩
  | nonBreakingSpace | format => exact ⟨rfl, rfl⟩
  | space | tab | paragraphBreak | stack => cases glue

/-- Glue after a token that allows no break allows none either. -/
theorem lastMove_glue {tokens glue : List (Token α)} {t : Token α}
    (last : lastMove tokens = some t) (forbids : t.allowsBreak = false)
    (glued : ∀ g ∈ glue, g.isGlue = true) :
    ∃ u, lastMove (tokens ++ glue) = some u ∧ u.allowsBreak = false := by
  induction glue using List.reverseRecOn with
  | nil => exact ⟨t, by rw [List.append_nil, last], forbids⟩
  | append_singleton glue g ih =>
    have here := glued g (by simp)
    obtain ⟨u, found, joined⟩ := ih fun g member => glued g (by simp [member])
    rw [← List.append_assoc]
    cases moves : g.movesPen with
    | true =>
      refine ⟨g, lastMove_concat moves _, ?_⟩
      cases g with
      | word | nonBreakingSpace => rfl
      | format => cases moves
      | space | tab | paragraphBreak | stack => cases here
    | false =>
      exact ⟨u, by rw [lastMove_concat_still (Token.quiet_of_isGlue here).noBreak moves, found],
        joined⟩

/-! ## Lines that go on with a paragraph -/

/-- The run of an index is the first on a line that opens no paragraph. -/
def Continues (lines : List (Sketch α)) (k : Nat) : Prop :=
  ∃ earlier s later, lines = earlier ++ s :: later ∧ s.startsParagraph = false ∧ s.runs ≠ [] ∧
    (earlier.flatMap Sketch.runs).length = k

theorem Continues.lt {lines : List (Sketch α)} {k : Nat} (continues : Continues lines k) :
    k < (lines.flatMap Sketch.runs).length := by
  obtain ⟨earlier, s, later, rfl, -, filled, rfl⟩ := continues
  rw [List.flatMap_append, List.flatMap_cons, List.length_append, List.length_append]
  have := List.length_pos_iff.mpr filled
  omega

/-- An item of a list that was grown at its end is the new one, or it was there before. -/
theorem concat_eq_append_cons {β : Type} {items earlier later : List β} {last item : β}
    (split : items ++ [last] = earlier ++ item :: later) :
    (items = earlier ∧ last = item) ∨ ∃ later, items = earlier ++ item :: later := by
  rcases List.eq_nil_or_concat later with rfl | ⟨later, _, rfl⟩
  · obtain ⟨same, new⟩ := List.append_inj' split rfl
    exact .inl ⟨same, (List.cons.inj new).1⟩
  · rw [List.concat_eq_append, ← List.cons_append, ← List.append_assoc] at split
    exact .inr ⟨later, (List.append_inj' split rfl).1⟩

theorem continues_concat (lines : List (Sketch α)) (s : Sketch α) (k : Nat) :
    Continues (lines ++ [s]) k ↔ Continues lines k ∨
      s.startsParagraph = false ∧ s.runs ≠ [] ∧ (lines.flatMap Sketch.runs).length = k := by
  constructor
  · rintro ⟨earlier, u, later, split, facts⟩
    rcases concat_eq_append_cons split with ⟨rfl, rfl⟩ | ⟨later, rfl⟩
    · exact .inr facts
    · exact .inl ⟨earlier, u, later, rfl, facts⟩
  · rintro (⟨earlier, u, later, rfl, facts⟩ | facts)
    · exact ⟨earlier, u, later ++ [s], by rw [List.append_assoc, List.cons_append], facts⟩
    · exact ⟨lines, s, [], rfl, facts⟩

/-- A line of a block that opens no paragraph begins with the run of an index. -/
def Block.ContinuesAt (b : Block α) (k : Nat) : Prop :=
  ∃ earlier l later, b.lines = earlier ++ l :: later ∧ l.startsParagraph = false ∧ l.runs ≠ [] ∧
    (earlier.flatMap Line.runs).length = k

theorem Block.continuesAt_iff (b : Block α) (k : Nat) :
    b.ContinuesAt k ↔ Continues (b.lines.map Line.sketch) k := by
  have count (lines : List (Line α)) :
      ((lines.map Line.sketch).flatMap Sketch.runs).length = (lines.flatMap Line.runs).length := by
    rw [List.flatMap_map, ← List.length_map (f := Run.makeup), List.map_flatMap]
    rfl
  constructor
  · rintro ⟨earlier, l, later, lines, continues, filled, rfl⟩
    exact ⟨_, _, _, by rw [lines, List.map_append, List.map_cons], continues,
      fun bare => filled (List.map_eq_nil_iff.mp bare), count earlier⟩
  · rintro ⟨earlier, s, later, sketches, continues, filled, rfl⟩
    obtain ⟨before, rest, lines, rfl, mapped⟩ := List.map_eq_append_iff.mp sketches
    obtain ⟨l, after, rfl, rfl, rfl⟩ := List.map_eq_cons_iff.mp mapped
    exact ⟨before, l, after, lines, continues,
      fun bare => filled (List.map_eq_nil_iff.mpr bare), (count before).symm⟩

/-- The content token of an index. -/
theorem exists_content {tokens : List (Token α)} {k : Nat} (bound : k < (contentsOf tokens).length) :
    ∃ before t c after, tokens = before ++ t :: after ∧ t.content? = some c ∧
      (contentsOf before).length = k := by
  induction tokens using List.reverseRecOn with
  | nil => cases bound
  | append_singleton tokens t ih =>
    by_cases earlier : k < (contentsOf tokens).length
    · obtain ⟨before, u, c, after, rfl, found, index⟩ := ih earlier
      exact ⟨before, u, c, after ++ [t], by rw [List.append_assoc, List.cons_append], found, index⟩
    · rw [contentsOf_concat, List.length_append] at bound
      cases found : t.content? with
      | none =>
        rw [found, Option.toList_none, List.length_nil] at bound
        omega
      | some c =>
        rw [found, Option.toList_some, List.length_singleton] at bound
        exact ⟨tokens, t, c, [], rfl, found, by omega⟩

variable [Scalar α]

/-! ## The test of a pass -/

variable {job : Job α} {p : Pass α} {t : Token α} {c : Content}

/-- Where a pass stands is decided by the last token of the paragraph that moved the pen. -/
theorem Job.phase_passAfter (job : Job α) (tokens : List (Token α)) :
    (job.passAfter tokens).phase = phaseAfter (lastMove tokens) := by
  induction tokens using List.reverseRecOn with
  | nil => rfl
  | append_singleton tokens t ih =>
    rw [job.passAfter_concat]
    cases t with
    | word text =>
      by_cases empty : text.isEmpty = true
      · have still : (Token.word text : Token α).movesPen = false := by simp [Token.movesPen, empty]
        rw [Pass.step_emptyWord (if_pos empty), lastMove_concat_still rfl still, ih]
      · have content : (Token.word text : Token α).content? = some (.word text) := if_neg empty
        rw [Pass.step_content content, lastMove_concat (by simp [Token.movesPen, empty])]
        rfl
    | space | nonBreakingSpace | tab | stack =>
      rw [lastMove_concat rfl]
      rfl
    | paragraphBreak =>
      rw [lastMove, lastSegment_paragraphBreak]
      rfl
    | format command =>
      rw [lastMove_concat_still rfl rfl, ← ih]
      rfl

/-- The open line has no run exactly while the paragraph has no content. -/
theorem Job.runs_passAfter_eq_nil_iff (job : Job α) (tokens : List (Token α)) :
    (job.passAfter tokens).cursor.runs = [] ↔ contentsOf (lastSegment tokens) = [] := by
  obtain ⟨earlier, current, now⟩ := job.passAfter_paragraphed tokens
  exact now.runs_eq_nil_iff

/-- Why content after a stream has to go to a new line. -/
structure Job.MustWrap (job : Job α) (before : List (Token α)) (c : Content) : Prop where
  /-- It is not the first content of its paragraph. -/
  notFirst : contentsOf (lastSegment before) ≠ []
  /-- It comes after a space, a tab or a stack. -/
  boundary : ∃ t, lastMove before = some t ∧ t.allowsBreak = true
  wraps : 0 < job.entity.width
  /-- It does not fit behind the pen, by the margins and the style in force. -/
  overflows : ∃ usable, (job.passAfter before).paragraph.usableWidth job.entity.width = some usable ∧
    usable < (job.passAfter before).cursor.pen +
      job.contentWidth (job.passAfter before).style c

theorem Paragraph.usableWidth_of_wraps {paragraph : Paragraph α} {width usable : α}
    (found : paragraph.usableWidth width = some usable) : 0 < width := by
  unfold Paragraph.usableWidth at found
  split at found
  · assumption
  · cases found

theorem Pass.needsBreak_iff {width : α} : p.needsBreak job width = true ↔
    p.phase = .atWordBoundary ∧ p.cursor.runs ≠ [] ∧
      ∃ usable, p.paragraph.usableWidth job.entity.width = some usable ∧
        usable < p.cursor.pen + width := by
  rw [Pass.needsBreak, Bool.and_eq_true, Bool.and_eq_true, decide_eq_true_eq, Bool.not_eq_true',
    Cursor.isLineEmpty, List.isEmpty_eq_false_iff, and_assoc]
  cases p.paragraph.usableWidth job.entity.width <;> simp

theorem Job.needsBreak_iff_mustWrap (job : Job α) (before : List (Token α)) (c : Content) :
    (job.passAfter before).needsBreak job (job.contentWidth (job.passAfter before).style c) = true ↔
      job.MustWrap before c := by
  rw [Pass.needsBreak_iff, job.phase_passAfter, phaseAfter_eq_boundary, ne_eq,
    job.runs_passAfter_eq_nil_iff]
  constructor
  · rintro ⟨boundary, notFirst, usable, found, overflows⟩
    exact ⟨notFirst, boundary, Paragraph.usableWidth_of_wraps found, usable, found, overflows⟩
  · rintro ⟨notFirst, boundary, -, overflows⟩
    exact ⟨boundary, notFirst, overflows⟩

/-! ## Lines once opened -/

/-- The open line, too, has a run unless it opens a paragraph. -/
theorem Job.runs_of_continues (job : Job α) (tokens : List (Token α))
    (continues : (job.passAfter tokens).cursor.sketch.startsParagraph = false) :
    (job.passAfter tokens).cursor.sketch.runs ≠ [] := by
  obtain ⟨earlier, current, now⟩ := job.passAfter_paragraphed tokens
  exact now.last.runs_of_continues (List.mem_append_right _ List.mem_cons_self) continues

theorem Job.length_makeups (job : Job α) (tokens : List (Token α)) :
    (job.passAfter tokens).makeups.length = (contentsOf tokens).length := by
  have stream : (job.styled tokens).map Prod.snd = tokens := job.map_snd_styledFrom _ _
  rw [job.passAfter_makeups, List.length_map, ← List.length_map (f := Prod.snd),
    map_snd_styledContents, stream]

/-- Content opens a line that opens no paragraph exactly if it has to go to a new line. -/
theorem Job.continues_place (job : Job α) (before : List (Token α)) (c : Content) :
    Continues ((job.passAfter before).place job c).sketches (contentsOf before).length ↔
      (job.passAfter before).needsBreak job
        (job.contentWidth (job.passAfter before).style c) = true := by
  rw [← job.length_makeups before, Pass.makeups]
  cases breaks : (job.passAfter before).needsBreak job
      (job.contentWidth (job.passAfter before).style c) with
  | true =>
    obtain ⟨lines, cursor⟩ := Pass.place_of_needsBreak breaks
    rw [Pass.sketches, lines, cursor, continues_concat]
    exact iff_of_true (.inr ⟨rfl, List.cons_ne_nil _ _, rfl⟩) rfl
  | false =>
    obtain ⟨lines, cursor⟩ := Pass.place_of_fits breaks
    rw [Pass.sketches, Pass.sketches, lines, cursor, continues_concat, List.flatMap_append,
      List.flatMap_singleton, List.length_append]
    refine iff_of_false ?_ Bool.false_ne_true
    rintro (closed | ⟨continues, -, count⟩)
    · have := closed.lt
      omega
    · have filled := List.length_pos_iff.mpr (job.runs_of_continues before continues)
      omega

/-- Later tokens open lines only behind the runs that there are. -/
theorem Job.continues_step (job : Job α) (tokens : List (Token α)) (t : Token α) {k : Nat}
    (bound : k < (contentsOf tokens).length) :
    Continues (job.passAfter (tokens ++ [t])).sketches k ↔
      Continues (job.passAfter tokens).sketches k := by
  rw [← job.length_makeups, Pass.makeups] at bound
  rw [job.passAfter_concat]
  rcases t.kinds with ⟨c, found⟩ | rfl | quiet
  · rw [Pass.step_content found]
    cases breaks : (job.passAfter tokens).needsBreak job
        (job.contentWidth (job.passAfter tokens).style c) with
    | true =>
      obtain ⟨lines, cursor⟩ := Pass.place_of_needsBreak breaks
      rw [Pass.sketches, lines, cursor, continues_concat]
      -- The new line begins with the run of the new content, which is behind all indices so far.
      refine or_iff_left fun opened => ?_
      have := opened.2.2
      omega
    | false =>
      obtain ⟨lines, cursor⟩ := Pass.place_of_fits breaks
      rw [Pass.sketches, List.flatMap_append, List.flatMap_singleton, List.length_append] at bound
      rw [Pass.sketches, Pass.sketches, lines, cursor, continues_concat, continues_concat]
      -- The open line has a run already, or no index so far would be that of its first run.
      refine or_congr_right ?_
      constructor
      · rintro ⟨flag, -, count⟩
        refine ⟨flag, fun bare => ?_, count⟩
        rw [bare, List.length_nil] at bound
        omega
      · rintro ⟨flag, -, count⟩
        exact ⟨flag, by simp [Sketch.push], count⟩
  · show Continues (Pass.breakParagraph job _).sketches k ↔ _
    rw [Pass.breakParagraph_sketches, continues_concat]
    exact or_iff_left fun opened => Bool.false_ne_true opened.1.symm
  · rw [(Pass.SameLines.step_quiet quiet).sketches]

theorem Job.continues_append (job : Job α) (before after : List (Token α)) {k : Nat}
    (bound : k < (contentsOf before).length) :
    Continues (job.passAfter (before ++ after)).sketches k ↔
      Continues (job.passAfter before).sketches k := by
  induction after using List.reverseRecOn with
  | nil => rw [List.append_nil]
  | append_singleton after t ih =>
    rw [← List.append_assoc, ← ih]
    refine job.continues_step (before ++ after) t ?_
    rw [contentsOf, List.filterMap_append, List.length_append]
    exact Nat.lt_add_right _ bound

theorem Job.continuesAt_layout (job : Job α) (tokens : List (Token α)) (k : Nat) :
    (job.layout tokens).ContinuesAt k ↔ Continues (job.passAfter tokens).sketches k := by
  rw [Block.continuesAt_iff, job.layout_sketches]
  split
  · next empty =>
    rw [Pass.sketches, continues_concat]
    exact (or_iff_left fun opened =>
      opened.2.1 (List.map_eq_nil_iff.mpr (List.isEmpty_iff.mp empty))).symm
  · rfl

/-- Whether content opens a line that opens no paragraph, in a whole layout. -/
theorem Job.layout_continuesAt_iff (job : Job α) (before after : List (Token α)) {t : Token α}
    {c : Content} (found : t.content? = some c) :
    (job.layout (before ++ t :: after)).ContinuesAt (contentsOf before).length ↔
      job.MustWrap before c := by
  have bound : (contentsOf before).length < (contentsOf (before ++ [t])).length := by
    rw [contentsOf_concat, found, List.length_append]
    exact Nat.lt_succ_self _
  rw [job.continuesAt_layout, ← List.singleton_append, ← List.append_assoc,
    job.continues_append (before ++ [t]) after bound, job.passAfter_concat,
    Pass.step_content found, job.continues_place, job.needsBreak_iff_mustWrap]

/-- A line that opens no paragraph was opened by content that had to go to a new line. -/
theorem Job.mustWrap_of_continuesAt {job : Job α} {tokens : List (Token α)} {k : Nat}
    (continues : (job.layout tokens).ContinuesAt k) :
    ∃ before t c after, tokens = before ++ t :: after ∧ t.content? = some c ∧
      (contentsOf before).length = k ∧ job.MustWrap before c := by
  have bound : k < (contentsOf tokens).length := by
    rw [← job.length_makeups]
    exact ((job.continuesAt_layout tokens k).mp continues).lt
  obtain ⟨before, t, c, after, rfl, found, rfl⟩ := exists_content bound
  exact ⟨before, t, c, after, rfl, found, rfl, (job.layout_continuesAt_iff _ _ found).mp continues⟩

/-- A line that opens no paragraph begins with the run behind all runs of the lines before it. -/
theorem Job.continuesAt_of_line {job : Job α} {tokens : List (Token α)}
    {earlier later : List (Line α)} {l : Line α}
    (lines : (job.layout tokens).lines = earlier ++ l :: later)
    (continues : l.startsParagraph = false) :
    (job.layout tokens).ContinuesAt (earlier.flatMap Line.runs).length :=
  ⟨earlier, l, later, lines, continues,
    Job.runs_of_not_startsParagraph (by rw [lines]; simp) continues, rfl⟩

/-! ## Content that stays -/

/-- Glue leaves the lines of a pass as they are. -/
theorem Job.sameLines_glue (job : Job α) (tokens : List (Token α)) {glue : List (Token α)}
    (glued : ∀ g ∈ glue, g.isGlue = true) :
    (job.passAfter (tokens ++ glue)).lines = (job.passAfter tokens).lines := by
  induction glue using List.reverseRecOn with
  | nil => rw [List.append_nil]
  | append_singleton glue g ih =>
    rw [← List.append_assoc, job.passAfter_concat,
      (Pass.SameLines.step_quiet (Token.quiet_of_isGlue (glued g (by simp)))).lines]
    exact ih fun g member => glued g (by simp [member])

/-- Glue keeps a word and the content after it on one line. -/
theorem Job.lineNumber_glued (job : Job α) (before after : List (Token α)) {text : WordText}
    {glue : List (Token α)} {t : Token α} {c : Content} (nonempty : text.isEmpty = false)
    (glued : ∀ g ∈ glue, g.isGlue = true) (found : t.content? = some c) :
    let numbers := (job.layout (before ++ .word text :: (glue ++ t :: after))).lineNumbers
    numbers[(contentsOf before).length]? = numbers[(contentsOf before).length + 1]? := by
  intro numbers
  have word := Token.content?_word (α := α) nonempty
  have noGlue : contentsOf glue = [] :=
    List.filterMap_eq_nil_iff.mpr fun g member => (Token.quiet_of_isGlue (glued g member)).content
  have index : (contentsOf (before ++ .word text :: glue)).length =
      (contentsOf before).length + 1 := by
    rw [contentsOf, List.filterMap_append, List.filterMap_cons_some word, ← contentsOf,
      ← contentsOf, noGlue, List.length_append, List.length_singleton]
  have stays : ¬ job.MustWrap (before ++ .word text :: glue) c := by
    intro must
    obtain ⟨u, found, joined⟩ := lastMove_glue
      (lastMove_concat (t := .word text) (by simp [Token.movesPen, nonempty]) before) rfl glued
    obtain ⟨v, boundary, allows⟩ := must.boundary
    rw [List.append_assoc, List.singleton_append, boundary] at found
    rw [Option.some.inj found, joined] at allows
    cases allows
  rw [← job.needsBreak_iff_mustWrap, Bool.not_eq_true] at stays
  have second := job.lineNumber_of_content (before ++ .word text :: glue) after found
  rw [index, Pass.lines_place_of_fits stays, ← List.singleton_append, ← List.append_assoc,
    job.sameLines_glue _ glued, job.passAfter_concat, Pass.step_content word] at second
  have whole : before ++ [.word text] ++ glue ++ t :: after =
      before ++ .word text :: (glue ++ t :: after) := by simp
  rw [whole] at second
  rw [second]
  exact job.lineNumber_of_content before _ word

/-- At a break opportunity content is put behind another run only where it fits. -/
theorem Job.fits_of_ready {job : Job α} {before : List (Token α)} {t : Token α} {c : Content}
    {usable : α} (boundary : lastMove before = some t) (allows : t.allowsBreak = true)
    (filled : ((job.passAfter before).ready job c).cursor.runs ≠ [])
    (room : ((job.passAfter before).ready job c).paragraph.usableWidth job.entity.width =
      some usable) :
    ¬ usable < ((job.passAfter before).ready job c).cursor.pen +
      job.contentWidth (job.passAfter before).style c := by
  intro overflows
  have phase : (job.passAfter before).phase = .atWordBoundary := by
    rw [job.phase_passAfter, phaseAfter_eq_boundary]
    exact ⟨t, boundary, allows⟩
  cases breaks : (job.passAfter before).needsBreak job
      (job.contentWidth (job.passAfter before).style c) with
  | true =>
    rw [Pass.ready_of_needsBreak breaks] at filled
    exact filled rfl
  | false =>
    rw [Pass.ready_of_fits breaks, Pass.beginContent_of_phase (by rw [phase]; exact Phase.noConfusion)]
      at filled room overflows
    rw [Pass.needsBreak_iff.mpr ⟨phase, filled, usable, room, overflows⟩] at breaks
    cases breaks

/-! ## Wrapping is greedy -/

/-- Where the lines of a layout are broken within paragraphs. -/
structure Job.WrapsGreedily (job : Job α) (tokens : List (Token α)) : Prop where
  /-- Content opens a line that opens no paragraph exactly if it has to go to a new line. -/
  opens_iff : ∀ before t c after, tokens = before ++ t :: after → t.content? = some c →
    ((job.layout tokens).ContinuesAt (contentsOf before).length ↔ job.MustWrap before c)
  /-- Every line that opens no paragraph was opened by content that had to go to a new line. -/
  necessary : ∀ earlier l later, (job.layout tokens).lines = earlier ++ l :: later →
    l.startsParagraph = false → ∃ before t c after, tokens = before ++ t :: after ∧
      t.content? = some c ∧ (contentsOf before).length = (earlier.flatMap Line.runs).length ∧
        job.MustWrap before c
  /-- A word and the content that follows it share a line if only commands, non-breaking spaces
  and words without characters are between them. -/
  glued : ∀ before text glue t c after,
    tokens = before ++ .word text :: (glue ++ t :: after) → text.isEmpty = false →
      (∀ g ∈ glue, g.isGlue = true) → t.content? = some c →
        (job.layout tokens).lineNumbers[(contentsOf before).length]? =
          (job.layout tokens).lineNumbers[(contentsOf before).length + 1]?
  /-- Nothing wraps without a reference width. -/
  unbounded : ¬ 0 < job.entity.width → ∀ l ∈ (job.layout tokens).lines, l.startsParagraph = true
  /-- What is put behind another run at a break opportunity fits there. -/
  fits : ∀ before t c after, tokens = before ++ t :: after → t.content? = some c →
    (∃ u, lastMove before = some u ∧ u.allowsBreak = true) →
      ((job.passAfter before).ready job c).cursor.runs ≠ [] → ∀ usable,
        ((job.passAfter before).ready job c).paragraph.usableWidth job.entity.width = some usable →
          ¬ usable < ((job.passAfter before).ready job c).cursor.pen +
            job.contentWidth (job.passAfter before).style c

/-- **Wrapping is exactly greedy**, whatever the results of arithmetic are. -/
theorem Job.layout_wraps_greedily (job : Job α) (tokens : List (Token α)) :
    job.WrapsGreedily tokens := by
  constructor
  · rintro before t c after rfl found
    exact job.layout_continuesAt_iff before after found
  · intro earlier l later lines continues
    exact Job.mustWrap_of_continuesAt (Job.continuesAt_of_line lines continues)
  · rintro before text glue t c after rfl nonempty glued found
    exact job.lineNumber_glued before after nonempty glued found
  · intro unwrapped l member
    cases opens : l.startsParagraph with
    | true => rfl
    | false =>
      obtain ⟨earlier, later, lines⟩ := List.append_of_mem member
      obtain ⟨before, t, c, after, -, -, -, must⟩ :=
        Job.mustWrap_of_continuesAt (Job.continuesAt_of_line lines opens)
      exact (unwrapped must.wraps).elim
  · rintro before t c after rfl found ⟨u, boundary, allows⟩ filled usable room
    exact Job.fits_of_ready boundary allows filled room

end Lettering
