import Mathlib
import Lettering.Font.BoxFonts
import Lettering.Proofs.Bounds
import Lettering.Proofs.Correspondence
import Lettering.Proofs.Gathering
import Lettering.Proofs.GlyphRows
import Lettering.Proofs.Stacking

/-!
# Runs in the band of their line

A line takes up the band from its baseline to its top, as high as its largest run
(`SetLine.Banded`).  Every run stands in this band, at the bottom, the center or the top of it
(`Run.StandsOn`), and so does the cell of each of its glyphs, which reaches from the glyph up by the
size that the glyph was shaped at.  On the open line all runs stand at baseline zero and are no
higher than the line (`Cursor.Sets`); as the line closes, each run is moved up to its place in the
band, and only sideways from then on.
-/

namespace Lettering

variable {α : Type} [ExactScalar α]

/-! ## Content at baseline zero -/

/-- A run at baseline zero, as high as its cells at least. -/
structure Run.Covers (r : Run α) (cell : α) : Prop where
  size : 0 < r.size
  glyphs : ∀ g ∈ r.glyphs, g.origin.y + cell ≤ r.size

/-- The glyphs of a stack keep their ordinates as they are placed. -/
theorem stackRun_covers {style : Style α} {stack : StackLayout α} {pen cell : α}
    (height : 0 < stack.height) (glyphs : ∀ g ∈ stack.glyphs, g.origin.y + cell ≤ stack.height) :
    (stackRun style stack pen).Covers cell := by
  refine ⟨height, List.forall_mem_map.mpr fun g member => ?_⟩
  show g.origin.y + 0 + cell ≤ stack.height
  rw [add_zero]
  exact glyphs g member

theorem Resources.layoutScript_covers (r : Resources α) {style : Style α} (usable : style.Usable)
    (script : 0 < r.settings.scriptScale) (text : String) (offset pen : α) :
    (stackRun style (r.layoutScript style text offset) pen).Covers
      (style.script r.settings.scriptScale).effectiveSize := by
  have height : (r.layoutScript style text offset).height =
      max (offset * style.effectiveSize + (style.script r.settings.scriptScale).effectiveSize)
        (style.script r.settings.scriptScale).effectiveSize := Scalar.greater_eq_max _ _
  refine stackRun_covers ?_ fun g member => ?_
  · rw [height]
    exact lt_max_of_lt_right (usable.script script).effectiveSize
  · rw [height, level_placeRow _ _ _ g member]
    exact le_max_left _ _

/-- The upper text of a fraction is as high as the fraction; the lower text is below it. -/
theorem Resources.layoutFraction_covers (r : Resources α) {style : Style α} (usable : style.Usable)
    (e : StackText) (pen : α) :
    (stackRun style (r.layoutFraction style e) pen).Covers style.effectiveSize := by
  have size := usable.effectiveSize
  have rise : (0 : α) < stackRise * style.effectiveSize :=
    mul_pos (by norm_num [stackRise]) size
  refine stackRun_covers (add_pos rise size) fun g member => ?_
  show g.origin.y + style.effectiveSize ≤ stackRise * style.effectiveSize + style.effectiveSize
  rcases List.mem_append.mp member with upper | lower
  · rw [level_placeRow _ _ _ g upper]
  · rw [level_placeRow _ _ _ g lower, neg_mul]
    linarith

theorem Resources.contentRun_covers (r : Resources α) {style : Style α} (usable : style.Usable)
    (script : 0 < r.settings.scriptScale) (c : Content) (pen : α) :
    (r.contentRun style c pen).Covers (r.contentStyle style c).effectiveSize := by
  cases c with
  | word text =>
    refine ⟨usable.effectiveSize, fun g member => ?_⟩
    rw [(sideBySide_placeGlyphs pen _).level g member, zero_add]
    exact le_refl _
  | stack e =>
    show (stackRun style (r.layoutStack style e) pen).Covers
      (r.stackStyle style e.shape).effectiveSize
    unfold Resources.layoutStack
    cases e.shape with
    | empty => exact stackRun_covers usable.effectiveSize (List.forall_mem_nil _)
    | superscript => exact r.layoutScript_covers usable script _ _ pen
    | subscript => exact r.layoutScript_covers usable script _ _ pen
    | fraction => exact r.layoutFraction_covers usable e pen

/-! ## The open line -/

/-- The run of content in a style, on an open line that is as high at least. -/
structure Run.SetIn (job : Job α) (cursor : Cursor α) (e : Style α × Content) (r : Run α) :
    Prop where
  usable : e.1.Usable
  placed : ∃ pen, r = job.contentRun e.1 e.2 pen
  fits : r.size ≤ cursor.maxSize

/-- The open line holds the runs of contents, and its size is the greatest of theirs. -/
structure Cursor.Sets (job : Job α) (contents : List (Style α × Content)) (cursor : Cursor α) :
    Prop where
  runs : List.Forall₂ (Run.SetIn job cursor) contents cursor.runs
  attained : cursor.maxSize = 0 ∨ ∃ r ∈ cursor.runs, r.size = cursor.maxSize

variable {job : Job α} {contents : List (Style α × Content)} {p q : Pass α}

theorem Cursor.Sets.of_sameLines (now : p.cursor.Sets job contents) (same : p.SameLines q) :
    q.cursor.Sets job contents := by
  obtain ⟨pen, cursor⟩ := same.cursor
  rw [cursor]
  exact ⟨now.runs.imp fun e r set => ⟨set.usable, set.placed, set.fits⟩, now.attained⟩

theorem Cursor.maxSize_recordSize (cursor : Cursor α) (size : α) :
    (cursor.recordSize size).maxSize = max cursor.maxSize size := by
  rw [Cursor.recordSize, max_def_lt]
  split <;> rfl

theorem Pass.maxSize_place (job : Job α) (c : Content) (p : Pass α) :
    (p.place job c).cursor.maxSize = max (p.ready job c).cursor.maxSize
      (job.contentRun p.style c (p.ready job c).penX).size :=
  Cursor.maxSize_recordSize _ _

/-- Content adds its run to the open line and counts with its size. -/
theorem Cursor.Sets.place {c : Content} (usable : p.style.Usable)
    (now : (p.ready job c).cursor.Sets job contents) :
    (p.place job c).cursor.Sets job (contents ++ [(p.style, c)]) := by
  constructor
  · rw [Pass.runs_place]
    refine List.rel_append (now.runs.imp fun e r set => ?_) (.cons ?_ .nil)
    · refine ⟨set.usable, set.placed, ?_⟩
      rw [Pass.maxSize_place]
      exact le_max_of_le_left set.fits
    · refine ⟨usable, ⟨_, rfl⟩, ?_⟩
      rw [Pass.maxSize_place]
      exact le_max_right _ _
  · rw [Pass.runs_place, Pass.maxSize_place]
    rcases max_choice (p.ready job c).cursor.maxSize
      (job.contentRun p.style c (p.ready job c).penX).size with old | new
    · rw [old]
      exact now.attained.imp id fun ⟨r, member, size⟩ => ⟨r, List.mem_append_left _ member, size⟩
    · rw [new]
      exact .inr ⟨_, List.mem_append_right _ (List.mem_singleton_self _), rfl⟩

theorem Job.gathers_styledContents (job : Job α) :
    job.Gathers (fun tokens => styledContents (job.styled tokens))
      fun p contents => p.cursor.Sets job contents where
  start := rfl
  silent tokens t none := job.styledContents_silent none
  bare p noRun noSize := by
    refine ⟨?_, .inl noSize⟩
    rw [noRun]
    exact .nil
  eq_nil p contents now noRun := by
    have runs := now.runs
    rw [noRun] at runs
    cases runs
    rfl
  quiet tokens t contents quiet now := now.of_sameLines (Pass.SameLines.step_quiet quiet)
  ready tokens c contents fits now := by
    have begun := now.of_sameLines (Pass.SameLines.beginContent _)
    rw [Pass.ready_of_fits fits]
    exact ⟨begun.runs.imp fun e r set => ⟨set.usable, set.placed, set.fits⟩, begun.attained⟩
  content tokens t c found :=
    ⟨((job.passAfter tokens).style, c), job.styledContents_content found,
      fun contents => .place (job.style_usable tokens)⟩

/-! ## Lines as they close -/

/-- The ordinate that a run gets on a line. -/
def Line.ordinate (l : Line α) (r : Run α) : α :=
  l.baseline + r.charAlignment.rise l.maxSize r.size

/-- The run of content in a style, as it stands in the band of a line. -/
structure Run.StandsOn (job : Job α) (l : Line α) (style : Style α) (c : Content) (r : Run α) :
    Prop where
  placed : ∃ pen dx, r = (job.contentRun style c pen).shift dx (l.ordinate r)
  bottom : r.charAlignment = .bottom → l.ordinate r = l.baseline
  top : r.charAlignment = .top → l.ordinate r + r.size = l.top
  center : r.charAlignment = .center →
    l.ordinate r + r.size / 2 = l.baseline + l.maxSize / 2
  band : l.baseline ≤ l.ordinate r ∧ l.ordinate r + r.size ≤ l.top
  /-- The glyphs of a word stand where its run does. -/
  word : ∀ text, c = .word text → ∀ g ∈ r.glyphs, g.origin.y = l.ordinate r
  shaped : r.glyphs.map PlacedGlyph.makeup =
    (job.shapeText (job.contentStyle style c) c.chars).map fun g => (g.char, g.kind, g.advance)
  /-- A glyph reaches up to the top of the line at most, by the size that it was shaped at. -/
  cells : ∀ g ∈ r.glyphs, g.origin.y + (job.contentStyle style c).effectiveSize ≤ l.top

/-- A line beside its contents, each in its style. -/
structure SetLine (α : Type) where
  contents : List (Style α × Content)
  line : Line α

/-- Every content of a line stands in the band of the line, which is as high as the largest run. -/
structure SetLine.Banded (job : Job α) (e : SetLine α) : Prop where
  greatest : e.line.runs ≠ [] →
    IsGreatest {size | size ∈ e.line.runs.map Run.size} e.line.maxSize
  runs : List.Forall₂ (fun content r => r.StandsOn job e.line content.1 content.2)
    e.contents e.line.runs

/-- The three places of a run that is no higher than its line. -/
theorem Line.ordinate_cases (l : Line α) (r : Run α) (fits : r.size ≤ l.maxSize) :
    (r.charAlignment = .bottom → l.ordinate r = l.baseline) ∧
      (r.charAlignment = .top → l.ordinate r + r.size = l.top) ∧
      (r.charAlignment = .center → l.ordinate r + r.size / 2 = l.baseline + l.maxSize / 2) ∧
      l.baseline ≤ l.ordinate r ∧ l.ordinate r + r.size ≤ l.top := by
  unfold Line.ordinate Line.top
  cases r.charAlignment with
  | bottom =>
    refine ⟨fun _ => add_zero _, nofun, nofun, ?_, ?_⟩ <;>
      simp only [VerticalAlignment.rise] <;> linarith
  | center =>
    simp only [VerticalAlignment.rise, Scalar.half_eq_div_two]
    refine ⟨nofun, nofun, fun _ => by ring, ?_, ?_⟩ <;> linarith
  | top =>
    simp only [VerticalAlignment.rise]
    refine ⟨nofun, fun _ => by ring, nofun, ?_, ?_⟩ <;> linarith

theorem Run.StandsOn.of_placed {l : Line α} {style : Style α} {c : Content} {r : Run α} {pen dx : α}
    (script : 0 < job.settings.scriptScale) (usable : style.Usable) (fits : r.size ≤ l.maxSize)
    (placed : r = (job.contentRun style c pen).shift dx (l.ordinate r)) :
    r.StandsOn job l style c := by
  obtain ⟨bottom, top, center, band⟩ := l.ordinate_cases r fits
  have covers := job.contentRun_covers usable script c pen
  have size : (job.contentRun style c pen).size = r.size := by
    rw [placed]
    rfl
  have moved : r.glyphs = (job.contentRun style c pen).glyphs.map
      fun g => g.shift dx (l.ordinate r) := congrArg Run.glyphs placed
  refine ⟨⟨pen, dx, placed⟩, bottom, top, center, band, ?_, ?_, ?_⟩
  · rintro text rfl
    rw [moved]
    refine List.forall_mem_map.mpr fun g member => ?_
    show g.origin.y + l.ordinate r = _
    rw [(sideBySide_placeGlyphs pen _).level g member, zero_add]
  · rw [← job.glyphs_contentMakeup style c, ← job.makeup_contentRun style c pen, moved]
    exact List.map_map
  · rw [moved]
    refine List.forall_mem_map.mpr fun g member => ?_
    have below := covers.glyphs g member
    show g.origin.y + l.ordinate r + _ ≤ _
    linarith [band.2]

theorem Run.SetIn.maxSize_pos (script : 0 < job.settings.scriptScale)
    {e : Style α × Content} {r : Run α} (set : r.SetIn job p.cursor e) : 0 < p.cursor.maxSize := by
  obtain ⟨pen, rfl⟩ := set.placed
  exact (job.contentRun_covers set.usable script e.2 pen).size.trans_le set.fits

/-- A line that closes with a run is as high as the open line was. -/
theorem Run.SetIn.maxSize_closedLine (script : 0 < job.settings.scriptScale)
    {e : Style α × Content} {r : Run α} (set : r.SetIn job p.cursor e) :
    (p.closedLine job).maxSize = p.cursor.maxSize := by
  rw [Pass.maxSize_closedLine, Cursor.lineSize, if_pos (set.maxSize_pos script)]

theorem Pass.sizes_closedLine (job : Job α) (p : Pass α) :
    (p.closedLine job).runs.map Run.size = p.cursor.runs.map Run.size := by
  have makeups := congrArg Sketch.runs (p.sketch_closedLine job)
  have sizes := congrArg (List.map Makeup.size) makeups
  rw [Line.sketch, Cursor.sketch, List.map_map, List.map_map] at sizes
  exact sizes

/-- The size of an open line is that of its largest run. -/
theorem Cursor.Sets.greatest (script : 0 < job.settings.scriptScale)
    (now : p.cursor.Sets job contents) (filled : p.cursor.runs ≠ []) :
    IsGreatest {size | size ∈ p.cursor.runs.map Run.size} p.cursor.maxSize := by
  have set := exists_mark now.runs
  constructor
  · rcases now.attained with zero | ⟨r, member, size⟩
    · obtain ⟨r, member⟩ := List.exists_mem_of_ne_nil _ filled
      obtain ⟨e, first⟩ := set r member
      exact ((first.maxSize_pos script).ne' zero).elim
    · exact List.mem_map.mpr ⟨r, member, size⟩
  · rintro size member
    obtain ⟨r, inRuns, rfl⟩ := List.mem_map.mp member
    obtain ⟨e, set⟩ := set r inRuns
    exact set.fits

/-- A line that closes with contents sets them in its band. -/
theorem Cursor.Sets.banded (script : 0 < job.settings.scriptScale)
    (now : p.cursor.Sets job contents) : SetLine.Banded job ⟨contents, p.closedLine job⟩ := by
  constructor
  · intro filled
    have sizes := p.sizes_closedLine job
    have wasFilled : p.cursor.runs ≠ [] := by
      intro bare
      rw [bare] at sizes
      exact filled (List.map_eq_nil_iff.mp sizes)
    obtain ⟨r, member⟩ := List.exists_mem_of_ne_nil _ wasFilled
    obtain ⟨e, first⟩ := exists_mark now.runs r member
    show IsGreatest {size | size ∈ (p.closedLine job).runs.map Run.size} (p.closedLine job).maxSize
    rw [sizes, first.maxSize_closedLine script]
    exact now.greatest script wasFilled
  · have placed : List.Forall₂ (fun e r => e.1.Usable ∧ r.size ≤ (p.closedLine job).maxSize ∧
        ∃ pen dx, r = (job.contentRun e.1 e.2 pen).shift dx ((p.closedLine job).ordinate r))
        contents (p.closedLine job).runs := by
      refine Pass.closedLine_forall₂ ?_ job (now.runs.imp fun e r set => ?_)
      · rintro e r dx' ⟨usable, fits, pen, dx, placed⟩
        refine ⟨usable, fits, pen, dx + dx', ?_⟩
        have moved := congrArg (fun r => r.shift dx' 0) placed
        rw [Run.shift_shift, add_zero] at moved
        exact moved
      · obtain ⟨pen, placed⟩ := set.placed
        refine ⟨set.usable, (set.maxSize_closedLine script).symm ▸ set.fits, pen, 0, ?_⟩
        show r.shift 0 ((p.closedLine job).ordinate r) = _
        rw [placed]
        rfl
    exact placed.imp fun e r ⟨usable, fits, pen, dx, placed⟩ => .of_placed script usable fits placed

/-- **Every run stands in the band of its line**, and so do the cells of its glyphs. -/
theorem Job.layout_bands (job : Job α) (script : 0 < job.settings.scriptScale)
    (tokens : List (Token α)) :
    ∃ set : List (SetLine α), (job.layout tokens).lines = set.map SetLine.line ∧
      styledContents (job.styled tokens) = set.flatMap SetLine.contents ∧
      ∀ e ∈ set, e.Banded job := by
  obtain ⟨closed, lines, contents, held⟩ := job.gathers_styledContents.layout tokens
  refine ⟨closed.map fun e => ⟨e.marks, e.line job⟩, ?_, ?_, ?_⟩
  · rw [lines, List.map_map]
    rfl
  · rw [contents, List.flatMap_map]
  · exact List.forall_mem_map.mpr fun e member => (held e member).banded script

/-- Box fonts at the standard settings: a small word at the top of a line beside a high one, with a
fraction and lone scripts. -/
theorem Job.layout_bands_scripts :
    let job : Job ℝ :=
      { fonts := BoxFonts.standard.source
        palette := fun _ => none
        colors := {}
        settings := Settings.standard
        entity := Entity.standard }
    let tokens : List (Token ℝ) :=
      [.format (.charAlignment .top), .word (.text "low"), .format (.height (.absolute 3)),
        .word (.text "high"), .format (.charAlignment .center), .stack ⟨"1", "2", .line⟩,
        .format (.height (.relative 0.5)), .stack ⟨"3", "", .tolerance⟩,
        .stack ⟨"", "4", .tolerance⟩]
    0 < job.settings.scriptScale ∧
      ∃ set : List (SetLine ℝ), (job.layout tokens).lines = set.map SetLine.line ∧
        styledContents (job.styled tokens) = set.flatMap SetLine.contents ∧
        ∀ e ∈ set, e.Banded job := by
  intro job tokens
  have script : 0 < job.settings.scriptScale := by norm_num [job, Settings.standard]
  exact ⟨script, job.layout_bands script tokens⟩

end Lettering
