import Lettering.Placement
import Lettering.Proofs.Correspondence

/-!
# Fonts in force

A style keeps the name, the kind and the scale of its font side by side, from when the font was
asked for.  They stay what the glyph source says of that name, through all commands and groups, and
where the source does not know the name, nothing that could stand in for it is available either
(`Resources.Serves`).  `Job.fontNames` reads off the stream by which names the fonts of the styles
were asked for.

So the kind of a style can be trusted when a glyph is looked up: every glyph carries the kind of the
font that answered for it (`Resources.Serves.kind_shape`).
-/

namespace Lettering

/-! ## The names asked for -/

/-- The name that the font of the active style was asked for by, and those of the styles that the
open groups saved, the innermost group first. -/
structure FontNames where
  active : String
  saved : List String := []

/-- The names after a token. -/
def FontNames.after {α : Type} (names : FontNames) : Token α → FontNames
  | .format (.font name _ _) => { names with active := name }
  | .format .groupOpen => ⟨names.active, names.active :: names.saved⟩
  | .format .groupClose =>
    match names.saved with
    | [] => names
    | name :: rest => ⟨name, rest⟩
  | _ => names

variable {α : Type}

/-! ## What the glyph source knows -/

variable {r : Resources α} {name : String}

theorem Resources.kindOf_eq {info : FontInfo α} (known : r.fonts.info name = some info)
    (current : FontKind) : r.kindOf name current = info.kind := by
  rw [Resources.kindOf, known]

theorem Resources.info_standIn? {found : ResolvedFont α} (stands : r.standIn? name = some found) :
    r.fonts.info found.name = some found.info := by
  obtain ⟨candidate, -, tried⟩ := List.exists_of_findSome?_eq_some stands
  obtain ⟨info, known, rfl⟩ := Option.map_eq_some_iff.mp tried
  exact known

theorem Resources.info_of_standIn?_eq_none (none : r.standIn? name = none) :
    (∀ other, r.fonts.substitute name = some other → r.fonts.info other = Option.none) ∧
      r.fonts.info r.settings.defaultFont = Option.none := by
  have tried := List.findSome?_eq_none_iff.mp none
  constructor
  · intro other substitute
    refine Option.map_eq_none_iff.mp (tried other ?_)
    rw [Resources.substitutes, substitute]
    exact List.mem_append_left _ (List.mem_singleton_self _)
  · exact Option.map_eq_none_iff.mp
      (tried _ (List.mem_append_right _ (List.mem_singleton_self _)))

/-! ## Styles that serve a request -/

variable [Scalar α]

/-- The names after a token stream. -/
def Job.fontNames (job : Job α) (tokens : List (Token α)) : FontNames :=
  tokens.foldl FontNames.after ⟨job.baseFont, []⟩

/-- A style whose font serves the request for a name. -/
structure Resources.Serves (r : Resources α) (name : String) (s : Style α) : Prop where
  /-- Of a font that is available the style has what is known. -/
  available : ∀ info, r.fonts.info s.font = some info →
    s.fontKind = info.kind ∧ s.fontScale = info.scale
  /-- A font that is not is the one asked for, and nothing can stand in for it. -/
  missing : r.fonts.info s.font = none →
    s.font = name ∧ r.fonts.info name = none ∧
      (∀ other, r.fonts.substitute name = some other → r.fonts.info other = none) ∧
      r.fonts.info r.settings.defaultFont = none ∧ s.fontScale = 1

/-- Every style of a stack serves the name at its place. -/
structure Resources.ServesAll (r : Resources α) (names : FontNames) (styles : StyleStack α) :
    Prop where
  active : r.Serves names.active styles.active
  saved : List.Forall₂ r.Serves names.saved styles.saved

variable {job : Job α} {names : FontNames} {s t : Style α} {styles : StyleStack α}

theorem Resources.Serves.of_eq (serves : r.Serves name s) (font : t.font = s.font)
    (fontKind : t.fontKind = s.fontKind) (fontScale : t.fontScale = s.fontScale) :
    r.Serves name t := by
  constructor
  · rw [font, fontKind, fontScale]
    exact serves.available
  · rw [font, fontScale]
    exact serves.missing

theorem Resources.ServesAll.pop (serves : r.ServesAll names styles) :
    r.ServesAll (names.after (.format .groupClose : Token α)) styles.pop := by
  obtain ⟨active, saved⟩ := serves
  obtain ⟨name, names⟩ := names
  obtain ⟨style, styles⟩ := styles
  cases saved with
  | nil => exact ⟨active, .nil⟩
  | cons innermost others => exact ⟨innermost, others⟩

/-- A font that was just asked for serves the request, whichever font it is. -/
theorem Resources.Serves.of_resolveFont {current : FontKind}
    (font : s.font = (r.resolveFont name current).name)
    (fontKind : s.fontKind = (r.resolveFont name current).info.kind)
    (fontScale : s.fontScale = (r.resolveFont name current).info.scale) : r.Serves name s := by
  cases known : r.fonts.info name with
  | some own =>
    have resolved : r.resolveFont name current = ⟨name, own⟩ := by
      rw [Resources.resolveFont, known]
    rw [resolved] at font fontKind fontScale
    refine ⟨fun info found => ?_, fun unknown => ?_⟩
    · rw [font, known] at found
      cases found
      exact ⟨fontKind, fontScale⟩
    · rw [font, known] at unknown
      cases unknown
  | none =>
    cases stands : r.standIn? name with
    | some found =>
      have resolved : r.resolveFont name current = found := by
        rw [Resources.resolveFont, known, stands, Option.getD_some]
      have own := Resources.info_standIn? stands
      rw [resolved] at font fontKind fontScale
      refine ⟨fun info other => ?_, fun unknown => ?_⟩
      · rw [font, own] at other
        cases other
        exact ⟨fontKind, fontScale⟩
      · rw [font, own] at unknown
        cases unknown
    | none =>
      have resolved : r.resolveFont name current = ⟨name, ⟨current, 1⟩⟩ := by
        rw [Resources.resolveFont, known, stands, Option.getD_none]
      obtain ⟨substitute, default⟩ := Resources.info_of_standIn?_eq_none stands
      rw [resolved] at font fontKind fontScale
      refine ⟨fun info found => ?_, fun _ => ⟨font, known, substitute, default, fontScale⟩⟩
      rw [font, known] at found
      cases found

/-! ## Commands -/

/-- Only font commands change what a style keeps of its font. -/
theorem Resources.Serves.restyle (serves : job.Serves name s) (command : Command α)
    (noFont : ∀ other bold italic, command ≠ .font other bold italic) :
    job.Serves name (job.restyle s command) := by
  have either {taken : Bool} (t : Style α) (font : t.font = s.font)
      (fontKind : t.fontKind = s.fontKind) (fontScale : t.fontScale = s.fontScale) :
      job.Serves name (if taken then t else s) := by
    split
    · exact serves.of_eq font fontKind fontScale
    · exact serves
  cases command with
  | font other bold italic => exact (noFont other bold italic rfl).elim
  | height scale => cases scale <;> exact either _ rfl rfl rfl
  | widthFactor | tracking | oblique => exact either _ rfl rfl rfl
  | _ => exact serves.of_eq rfl rfl rfl

/-- A token changes the styles and the names asked for together. -/
theorem Resources.ServesAll.formatted {f : Formatting α} (serves : job.ServesAll names f.styles)
    (t : Token α) : job.ServesAll (names.after t) (job.formatted f t).styles := by
  cases t with
  | format command =>
    show job.ServesAll _ (job.apply f command).styles
    rw [job.styles_apply]
    have kept (noFont : ∀ other bold italic, command ≠ .font other bold italic) :
        job.ServesAll names (f.styles.modify fun s => job.restyle s command) :=
      ⟨serves.active.restyle command noFont, serves.saved⟩
    cases command with
    | groupOpen => exact ⟨serves.active, .cons serves.active serves.saved⟩
    | groupClose => exact serves.pop
    | font name bold italic => exact ⟨.of_resolveFont rfl rfl rfl, serves.saved⟩
    | _ => exact kept (by rintro _ _ _ ⟨⟩)
  | _ => exact serves

/-- Between any two tokens every style, active or saved, serves the name that its font was asked
for by. -/
theorem Job.passAfter_serves (job : Job α) (tokens : List (Token α)) :
    job.ServesAll (job.fontNames tokens) (job.passAfter tokens).formatting.styles := by
  induction tokens using List.reverseRecOn with
  | nil => exact ⟨.of_resolveFont rfl rfl rfl, .nil⟩
  | append_singleton tokens t ih =>
    rw [job.passAfter_concat, Pass.styles_step, Job.fontNames, List.foldl_append]
    exact ih.formatted t

/-! ## Glyphs -/

/-- The font that answers when a character is asked of a font at a size: that font, else the big
font, else one that the search finds, else the font again, for the placeholder. -/
def Resources.answering? (r : Resources α) (font : String) (size : α) (c : Char) :
    Option String :=
  if (r.fonts.glyph c font size).isSome then some font
  else
    (r.settings.bigFont.filter fun big => (r.fonts.glyph c big size).isSome).or <|
      ((r.fonts.search c size).map Prod.fst).or <|
        if (r.fonts.glyph r.settings.placeholder font size).isSome then some font else none

/-- Every glyph of a run of content carries the kind of the font that answered for it, as far as the
glyph source knows that font. -/
def Resources.DrawsInKind (r : Resources α) (style : Style α) (c : Content) (run : Run α) : Prop :=
  List.Forall₂ (fun char g => ∀ font info,
    r.answering? style.font (r.contentGlyphSize style c) char = some font →
      r.fonts.info font = some info → g.kind = info.kind) c.chars run.glyphs

theorem Resources.kind_shape_eq (s : Style α) (c : Char) :
    (r.shape s c).kind = ((r.find? s c).map Prod.fst).getD s.fontKind := by
  rw [Resources.shape]
  cases r.find? s c <;> rfl

/-- A glyph carries the kind of the font that answered for it. -/
theorem Resources.Serves.kind_shape (serves : r.Serves name s) {c : Char} {font : String}
    {info : FontInfo α} (answered : r.answering? s.font s.glyphSize c = some font)
    (known : r.fonts.info font = some info) : (r.shape s c).kind = info.kind := by
  -- The active font answers for the character or for the placeholder; both glyphs have its kind.
  have active (own : some s.font = some font) : s.fontKind = info.kind :=
    (serves.available info (Option.some.inj own ▸ known)).1
  have unscoped (answered : (((r.fonts.search c s.glyphSize).map Prod.fst).or <|
      if (r.fonts.glyph r.settings.placeholder s.font s.glyphSize).isSome then some s.font
      else none) = some font) :
      ((r.fromAnyFont? s c).map Prod.fst).getD s.fontKind = info.kind := by
    rw [Resources.fromAnyFont?]
    cases found : r.fonts.search c s.glyphSize with
    | some other =>
      rw [found] at answered
      cases answered
      exact Resources.kindOf_eq known s.fontKind
    | none =>
      rw [found] at answered
      exact active (Option.ite_none_right_eq_some.mp answered).2
  rw [Resources.kind_shape_eq, Resources.find?]
  cases glyph : r.fonts.glyph c s.font s.glyphSize with
  | some g =>
    rw [Resources.answering?, glyph] at answered
    exact active answered
  | none =>
    rw [Resources.answering?, glyph] at answered
    dsimp only
    cases big : r.settings.bigFont with
    | none =>
      rw [big] at answered
      rw [Resources.fromBigFont?, big]
      exact unscoped answered
    | some other =>
      rw [big] at answered
      rw [Resources.fromBigFont?, big]
      dsimp only
      cases bigGlyph : r.fonts.glyph c other s.glyphSize with
      | some g =>
        have own : other = font := by simpa [Option.filter, bigGlyph] using answered
        exact Resources.kindOf_eq (own ▸ known) s.fontKind
      | none =>
        refine unscoped ?_
        simpa [Option.filter, bigGlyph] using answered

theorem Resources.Serves.contentStyle (serves : r.Serves name s) (c : Content) :
    r.Serves name (r.contentStyle s c) := by
  cases c with
  | word text => exact serves
  | stack e =>
    show r.Serves name (r.stackStyle s e.shape)
    cases e.shape <;> exact serves.of_eq rfl rfl rfl

theorem Resources.DrawsInKind.of_makeup (serves : r.Serves name s) {c : Content} {run : Run α}
    (makeup : run.makeup = r.contentMakeup s c) : r.DrawsInKind s c run := by
  have kinds : c.chars.map (fun char => (r.shape (r.contentStyle s c) char).kind) =
      run.glyphs.map (·.kind) := by
    have glyphs := congrArg (List.map fun g => g.2.1) (congrArg Makeup.glyphs makeup)
    rw [r.glyphs_contentMakeup, Resources.shapeText, Run.makeup, List.map_map, List.map_map,
      List.map_map] at glyphs
    exact glyphs.symm
  rw [← List.forall₂_eq_eq_eq, List.forall₂_map_left_iff, List.forall₂_map_right_iff] at kinds
  refine kinds.imp fun char g shaped font info answered known => ?_
  rw [← r.font_contentStyle s c, ← r.glyphSize_contentStyle] at answered
  exact shaped.symm.trans ((serves.contentStyle c).kind_shape answered known)

theorem Run.makeup_image (run : Run α) (t : Affine α) : (run.image t).makeup = run.makeup := by
  simp only [Run.makeup, Run.image, List.map_map]
  rfl

/-- Placing a block changes only where its runs stand. -/
theorem Job.render_makeups (job : Job α) (tokens : List (Token α)) :
    (job.render tokens).runs.map Run.makeup = (job.layout tokens).runs.map Run.makeup := by
  simp only [Job.render, Block.place, Block.image, Block.refreshBounds, Block.runs,
    Line.refreshBounds, List.map_flatten, List.map_map, Function.comp_def, Run.makeup_image]

/-- Runs that have the makeups of the content of a stream are drawn in kind. -/
theorem Job.drawsInKind_of_makeups {tokens : List (Token α)} {runs : List (Run α)}
    (makeups : runs.map Run.makeup =
      (styledContents (job.styled tokens)).map fun e => job.contentMakeup e.1 e.2) :
    List.Forall₂ (fun e run => job.DrawsInKind e.1 e.2 run) (styledContents (job.styled tokens))
      runs := by
  have served : ∀ e ∈ styledContents (job.styled tokens), ∃ name, job.Serves name e.1 := by
    intro e member
    obtain ⟨styled, inText, content⟩ := List.mem_filterMap.mp member
    obtain ⟨c, -, rfl⟩ := Option.map_eq_some_iff.mp content
    exact job.styled_all (P := fun style => ∃ name, job.Serves name style)
      (fun before => ⟨_, (job.passAfter_serves before).active⟩) tokens styled inText
  rw [← List.forall₂_eq_eq_eq, List.forall₂_map_left_iff, List.forall₂_map_right_iff] at makeups
  refine ((List.forall₂_and_left _ _).mpr ⟨served, makeups.flip⟩).imp ?_
  rintro e run ⟨⟨name, serves⟩, makeup⟩
  exact .of_makeup serves makeup

/-- **What a style keeps of its font stays true of the font**, in every style of every state, and so
every glyph carries the kind of the font that answered for it. -/
theorem Job.fonts_in_force (job : Job α) (tokens : List (Token α)) :
    job.ServesAll (job.fontNames tokens) (job.passAfter tokens).formatting.styles ∧
      List.Forall₂ (fun e run => job.DrawsInKind e.1 e.2 run) (styledContents (job.styled tokens))
        (job.layout tokens).runs ∧
      List.Forall₂ (fun e run => job.DrawsInKind e.1 e.2 run) (styledContents (job.styled tokens))
        (job.render tokens).runs := by
  have layout := job.layout_makeups tokens
  exact ⟨job.passAfter_serves tokens, Job.drawsInKind_of_makeups layout,
    Job.drawsInKind_of_makeups ((job.render_makeups tokens).trans layout)⟩

end Lettering
