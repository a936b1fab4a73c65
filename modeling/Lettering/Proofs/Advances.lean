import Mathlib
import Lettering.Font.BoxFonts
import Lettering.Proofs.PositiveSizes

/-!
# Advances in exact arithmetic

Where no glyph of the fonts moves the pen back, neither does content (`contentWidth_nonneg`,
`contentAdvance_nonneg`), nor a blank.  What carries this over from glyphs to tokens is that all
styles are usable and ask for glyphs at no negative size (`Style.Positive`).  A tab never moves the
pen back either, and of two pens the one behind stays behind (`Pass.tabTarget_mono`).
-/

namespace Lettering

variable {α : Type} [ExactScalar α]

/-- Fonts none of whose glyphs moves the pen back. -/
structure GlyphSource.Forward (fonts : GlyphSource α) : Prop where
  glyph : ∀ c font size g, 0 ≤ size → fonts.glyph c font size = some g → 0 ≤ g.advance
  search : ∀ c size font g, 0 ≤ size → fonts.search c size = some (font, g) → 0 ≤ g.advance
  scale : ∀ font info, fonts.info font = some info → 0 ≤ info.scale

theorem BoxFonts.eq_boxGlyph_of_glyph {b : BoxFonts α} {c : Char} {font : String} {size : α}
    {g : Glyph α} (found : b.glyph c font size = some g) : g = BoxFonts.boxGlyph c size := by
  rw [BoxFonts.glyph, Option.ite_none_right_eq_some] at found
  exact (Option.some.inj found.2).symm

theorem BoxFonts.eq_boxGlyph_of_search {b : BoxFonts α} {c : Char} {font : String} {size : α}
    {g : Glyph α} (found : b.search c size = some (font, g)) : g = BoxFonts.boxGlyph c size := by
  obtain ⟨entry, -, tried⟩ := List.exists_of_findSome?_eq_some found
  obtain ⟨glyph, has, same⟩ := Option.map_eq_some_iff.mp tried
  cases same
  exact eq_boxGlyph_of_glyph has

/-- Box fonts move the pen on, whatever their names and gaps are. -/
theorem BoxFonts.forward {b : BoxFonts α} (scales : ∀ font ∈ b.fonts, 0 ≤ font.2.scale) :
    b.source.Forward := by
  constructor
  · intro c font size g nonneg found
    rw [eq_boxGlyph_of_glyph found]
    exact mul_nonneg nonneg (by norm_num)
  · intro c size font g nonneg found
    rw [eq_boxGlyph_of_search found]
    exact mul_nonneg nonneg (by norm_num)
  · intro font info found
    obtain ⟨before, after, fonts, -⟩ := List.lookup_eq_some_iff.mp found
    exact scales (_, info) (fonts ▸ List.mem_append_right before List.mem_cons_self)

theorem BoxFonts.forward_standard : (BoxFonts.standard : BoxFonts α).source.Forward := by
  refine BoxFonts.forward ?_
  simp [BoxFonts.standard, BoxFonts.addFont, BoxFonts.addScaledFont, BoxFonts.empty]

/-- Resources by which no text moves the pen back. -/
structure Resources.Forward (r : Resources α) : Prop where
  fonts : r.fonts.Forward
  boldExpansion : 0 ≤ r.settings.boldExpansion
  scriptScale : 0 < r.settings.scriptScale

/-- A usable style that asks for glyphs at no negative size, and whose blanks are fresh. -/
structure Style.Positive (s : Style α) : Prop where
  usable : s.Usable
  fontScale : 0 ≤ s.fontScale
  wordSpace : 0 ≤ s.wordSpace
  fresh : s.Fresh

/-! ## Styles -/

namespace Style.Positive

variable {s : Style α}

theorem glyphSize (positive : s.Positive) : 0 ≤ s.glyphSize :=
  mul_nonneg positive.usable.effectiveSize.le positive.fontScale

theorem blankWidth (positive : s.Positive) : 0 < s.blankWidth :=
  positive.usable.blankWidth positive.fresh

theorem untracked (positive : s.Positive) : s.untracked.Positive :=
  ⟨positive.usable.untracked, positive.fontScale, positive.wordSpace, positive.fresh⟩

theorem script (positive : s.Positive) {scale : α} (enlarges : 0 < scale) :
    (s.script scale).Positive :=
  ⟨positive.usable.script enlarges, positive.fontScale, positive.wordSpace,
    Style.fresh_refreshBlank _⟩

end Style.Positive

theorem Resources.Forward.scale_resolveFont {r : Resources α} (forward : r.Forward)
    (requested : String) (current : FontKind) : 0 ≤ (r.resolveFont requested current).info.scale := by
  unfold Resources.resolveFont
  cases found : r.fonts.info requested with
  | some info => exact forward.fonts.scale _ _ found
  | none =>
    cases standIn : r.standIn? requested with
    | none => exact zero_le_one
    | some font =>
      obtain ⟨name, -, tried⟩ := List.exists_of_findSome?_eq_some standIn
      obtain ⟨info, known, rfl⟩ := Option.map_eq_some_iff.mp tried
      exact forward.fonts.scale _ _ known

/-- Only font commands change the factor on the size of glyphs. -/
theorem Resources.Forward.fontScale_restyle {job : Job α} (forward : job.Forward) {s : Style α}
    (nonneg : 0 ≤ s.fontScale) (command : Command α) : 0 ≤ (job.restyle s command).fontScale := by
  have either {taken : Bool} {t : Style α} (same : t.fontScale = s.fontScale) :
      0 ≤ (if taken then t else s).fontScale := by
    split
    · exact same ▸ nonneg
    · exact nonneg
  cases command with
  | font name bold italic => exact forward.scale_resolveFont name s.fontKind
  | height scale => cases scale <;> exact either rfl
  | widthFactor | tracking | oblique => exact either rfl
  | _ => exact nonneg

theorem Style.Positive.restyle {job : Job α} (forward : job.Forward) {s : Style α}
    (positive : s.Positive) (command : Command α) : (job.restyle s command).Positive where
  usable := positive.usable.restyle job command
  fontScale := forward.fontScale_restyle positive.fontScale command
  wordSpace := (job.wordSpace_restyle s command).symm ▸ positive.wordSpace
  fresh := positive.fresh.restyle job command

theorem Job.baseStyle_positive {job : Job α} (forward : job.Forward) : job.baseStyle.Positive :=
  ⟨job.usable_baseStyle Scalar.isPositive_one, forward.scale_resolveFont _ _, zero_le_one,
    Style.fresh_refreshBlank _⟩

theorem Job.styles_positive {job : Job α} (forward : job.Forward) (tokens : List (Token α)) :
    (job.passAfter tokens).formatting.styles.All Style.Positive :=
  job.styles_all (Job.baseStyle_positive forward) (fun _ _ positive => positive.restyle forward _)
    tokens

/-! ## Looking glyphs up -/

/-- The glyph that is looked up for a character: its own out of some font, or else the
placeholder. -/
def Resources.lookup (r : Resources α) (s : Style α) (c : Char) : Glyph α :=
  match r.find? s c with
  | some (_, glyph) => glyph
  | none => r.placeholderGlyph s

theorem Resources.shape_eq_finish (r : Resources α) (s : Style α) (c : Char) :
    ∃ drawn kind, r.shape s c = r.finish s drawn kind (r.lookup s c) := by
  unfold Resources.shape Resources.lookup
  cases r.find? s c with
  | some found => exact ⟨_, _, rfl⟩
  | none => exact ⟨_, _, rfl⟩

/-- What holds of all that the fonts answer at the size of a style, and of the box, holds of every
glyph that is looked up. -/
theorem Resources.lookup_rec (r : Resources α) {s : Style α} {motive : Glyph α → Prop}
    (glyph : ∀ c font g, r.fonts.glyph c font s.glyphSize = some g → motive g)
    (search : ∀ c font g, r.fonts.search c s.glyphSize = some (font, g) → motive g)
    (box : motive (placeholderBox s.glyphSize)) (c : Char) : motive (r.lookup s c) := by
  have placeholder : motive (r.placeholderGlyph s) := by
    unfold Resources.placeholderGlyph
    cases has : r.fonts.glyph r.settings.placeholder s.font s.glyphSize with
    | some g => exact glyph _ _ _ has
    | none => exact box
  unfold Resources.lookup
  split
  · next kind g answer =>
    unfold Resources.find? at answer
    split at answer
    · next own has =>
      cases answer
      exact glyph _ _ _ has
    · rcases Option.or_eq_some_iff.mp answer with big | ⟨-, any⟩
      · unfold Resources.fromBigFont? at big
        split at big
        · obtain ⟨own, has, same⟩ := Option.map_eq_some_iff.mp big
          cases same
          exact glyph _ _ _ has
        · cases big
      · obtain ⟨⟨font, own⟩, has, same⟩ := Option.map_eq_some_iff.mp any
        cases same
        exact search _ _ _ has
  · exact placeholder

/-! ## Advances -/

namespace Resources.Forward

variable {r : Resources α} {s : Style α}

/-- The attributes of a style turn no advance around. -/
theorem advance_finish (forward : r.Forward) (positive : s.Positive) {glyph : Glyph α}
    (advance : 0 ≤ glyph.advance) (c : Char) (kind : FontKind) :
    0 ≤ (r.finish s c kind glyph).advance := by
  have width : 0 ≤ glyph.advance * s.widthFactor := mul_nonneg advance positive.usable.widthFactor.le
  have expansion : 0 ≤ r.settings.boldExpansion * s.effectiveSize :=
    mul_nonneg forward.boldExpansion positive.usable.effectiveSize.le
  refine mul_nonneg ?_ positive.usable.tracking.le
  split
  · exact add_nonneg width expansion
  · exact width

theorem advance_shape (forward : r.Forward) (positive : s.Positive) (c : Char) :
    0 ≤ (r.shape s c).advance := by
  have size := positive.glyphSize
  obtain ⟨drawn, kind, shaped⟩ := r.shape_eq_finish s c
  rw [shaped]
  refine forward.advance_finish positive ?_ drawn kind
  exact r.lookup_rec (forward.fonts.glyph · · _ · size) (forward.fonts.search · _ · · size)
    (mul_nonneg size (by norm_num)) c

theorem totalAdvance_nonneg (forward : r.Forward) (positive : s.Positive) (text : List Char) :
    0 ≤ totalAdvance (r.shapeText s text) := by
  rw [totalAdvance, Scalar.sum_eq_sum, Resources.shapeText, List.map_map]
  refine List.sum_nonneg fun a member => ?_
  obtain ⟨c, -, rfl⟩ := List.mem_map.mp member
  exact forward.advance_shape positive c

theorem contentWidth_nonneg (forward : r.Forward) (positive : s.Positive) (c : Content) :
    0 ≤ r.contentWidth s c := by
  cases c with
  | word text => exact forward.totalAdvance_nonneg positive _
  | stack e =>
    show 0 ≤ (r.layoutStack s e).width
    unfold Resources.layoutStack
    split
    · exact le_refl 0
    · exact forward.totalAdvance_nonneg (positive.script forward.scriptScale) _
    · exact forward.totalAdvance_nonneg (positive.script forward.scriptScale) _
    · show 0 ≤ Scalar.greater _ _
      rw [Scalar.greater_eq_max]
      exact le_max_of_le_left (forward.totalAdvance_nonneg positive.untracked _)

theorem contentAdvance_nonneg (forward : r.Forward) (positive : s.Positive) (c : Content) :
    0 ≤ r.contentAdvance s c := by
  have width := forward.contentWidth_nonneg positive c
  cases c with
  | word text => exact width
  | stack e => exact add_nonneg width positive.blankWidth.le

end Resources.Forward

/-! ## Tabs -/

theorem find?_lt_mono {near far stop : α} (le : near ≤ far) {tabs : List α}
    (found : tabs.find? (fun s => far < s) = some stop) :
    ∃ s, tabs.find? (fun s => near < s) = some s ∧ s ≤ stop := by
  induction tabs with
  | nil => cases found
  | cons tab rest ih =>
    by_cases beyondFar : far < tab
    · rw [List.find?_cons_of_pos (by simpa using beyondFar)] at found
      obtain rfl := Option.some.inj found
      exact ⟨tab, List.find?_cons_of_pos (by simpa using le.trans_lt beyondFar), le_refl tab⟩
    · rw [List.find?_cons_of_neg (by simpa using beyondFar)] at found
      by_cases beyondNear : near < tab
      · have past : far < stop := by simpa using List.find?_some found
        exact ⟨tab, List.find?_cons_of_pos (by simpa using beyondNear),
          (not_lt.mp beyondFar).trans past.le⟩
      · rw [List.find?_cons_of_neg (by simpa using beyondNear)]
        exact ih found

/-- The least multiple of a distance past a pen. -/
theorem isLeast_nextMultiple {step : α} (positive : 0 < step) (pen : α) :
    IsLeast {x | pen < x ∧ ∃ n : ℤ, x = n * step} ((Scalar.floor (pen / step) + 1) * step) := by
  have next : (Scalar.floor (pen / step) + 1 : α) = (⌊pen / step⌋ + 1 : ℤ) := by
    rw [Int.cast_add, Int.cast_one]
    rfl
  rw [next]
  refine ⟨⟨?_, _, rfl⟩, ?_⟩
  · rw [← div_lt_iff₀ positive]
    exact_mod_cast Int.lt_floor_add_one (pen / step)
  · rintro x ⟨past, n, rfl⟩
    have beyond : ⌊pen / step⌋ < n := by
      rw [Int.floor_lt]
      exact (div_lt_iff₀ positive).mpr past
    exact mul_le_mul_of_nonneg_right (Int.cast_le.mpr beyond) positive.le

/-- The next multiple of a distance is not behind. -/
theorem le_nextMultiple (step pen : α) :
    pen ≤ if 0 < step then (Scalar.floor (pen / step) + 1) * step else pen := by
  split
  · next positive => exact (isLeast_nextMultiple positive pen).1.1.le
  · exact le_refl pen

theorem nextMultiple_mono (step : α) {near far : α} (le : near ≤ far) :
    (if 0 < step then (Scalar.floor (near / step) + 1) * step else near) ≤
      if 0 < step then (Scalar.floor (far / step) + 1) * step else far := by
  split
  · next positive =>
    -- What is past the far pen is past the near one.
    obtain ⟨past, multiple⟩ := (isLeast_nextMultiple positive far).1
    exact (isLeast_nextMultiple positive near).2 ⟨le.trans_lt past, multiple⟩
  · exact le

theorem Pass.le_tabTarget (job : Job α) (p : Pass α) (pen : α) : pen ≤ p.tabTarget job pen := by
  unfold Pass.tabTarget
  dsimp only
  split
  · next stop found => exact (by simpa using List.find?_some found : pen < stop).le
  · exact le_nextMultiple _ pen

theorem Pass.tabTarget_mono (job : Job α) (p : Pass α) {near far : α} (le : near ≤ far) :
    p.tabTarget job near ≤ p.tabTarget job far := by
  unfold Pass.tabTarget
  dsimp only
  cases farStop : p.paragraph.nextTab far with
  | some stop =>
    obtain ⟨s, nearStop, before⟩ := find?_lt_mono le farStop
    have found : p.paragraph.nextTab near = some s := nearStop
    rw [found]
    exact before
  | none =>
    cases nearStop : p.paragraph.nextTab near with
    | some s =>
      have passed : ¬ far < s := by
        simpa using List.find?_eq_none.mp farStop s (List.mem_of_find?_eq_some nearStop)
      exact (not_lt.mp passed).trans (le_nextMultiple _ far)
    | none => exact nextMultiple_mono _ le

end Lettering
