import Mathlib
import Lettering.Proofs.Correspondence
import Lettering.Proofs.Counts

/-!
# What the diagnostics of a layout count

Three kinds of incident happen while a text is laid out: a character of content is asked of a font
that lacks it, as do all others; a font is asked for that is not available; and bold or italic is
asked of a stroke font.  Each is read off the stream, every token in the style in force there, and
`Job.diagnostics_exact` says that the diagnostics count each of them as often as it happens.

Content is shaped once, before the line is broken, so a wrap counts nothing twice: what a token adds
to the incidents depends on its style alone (`Pass.incidents_run`).
-/

namespace Lettering

/-- The font that a token asks for. -/
def Token.fontRequest? {α : Type} : Token α → Option String
  | .format (.font name _ _) => some name
  | _ => none

variable {α : Type} [Scalar α]

/-- The fonts that a text asks for: that of the entity, and that of each font command. -/
def Job.fontRequests (job : Job α) (tokens : List (Token α)) : List String :=
  job.baseFont :: tokens.filterMap Token.fontRequest?

/-- Whether a token asks for bold or italic in a font that turns out to be a stroke font. -/
def Job.imitates (job : Job α) (style : Style α) : Token α → Bool
  | .format (.font name bold italic) =>
    (bold || italic) && (job.resolveFont name style.fontKind).info.kind = .stroke
  | _ => false

/-- How often content in a style asks a font for a character that neither it nor any other has. -/
def Resources.lacking (r : Resources α) (font : String) (c : Char) (style : Style α)
    (content : Content) : Nat :=
  if style.font = font ∧ r.has font (r.contentGlyphSize style content) c = false then
    content.chars.count c
  else 0

variable {r : Resources α} {style : Style α}

/-! ## Content -/

/-- Content reports what shaping its characters reports. -/
theorem Resources.contentIncidents_eq (r : Resources α) (style : Style α) (content : Content) :
    r.contentIncidents style content =
      r.shapingIncidents (r.contentStyle style content) content.chars := by
  cases content <;> rfl

/-- Shaping a text reports each character that no font has, as often as it occurs. -/
theorem Resources.count_shapingIncidents (r : Resources α) (style : Style α) (text : List Char)
    (font : String) (c : Char) :
    (r.shapingIncidents style text).count (.missingGlyph font c) =
      if style.font = font ∧ r.has font style.glyphSize c = false then text.count c else 0 := by
  have lacks : (r.find? style c).isNone = !r.has style.font style.glyphSize c := by
    rw [← r.isSome_find?, Option.not_isSome]
  rw [Resources.shapingIncidents]
  split
  · next asked =>
    obtain ⟨rfl, lacked⟩ := asked
    have injective : Function.Injective (Incident.missingGlyph style.font) :=
      fun _ _ same => (Incident.missingGlyph.inj same).2
    rw [List.count_map_of_injective _ _ injective, List.count_filter]
    rw [lacks, lacked]
    rfl
  · next notAsked =>
    refine List.count_eq_zero_of_not_mem fun member => notAsked ?_
    obtain ⟨d, found, same⟩ := List.mem_map.mp member
    obtain ⟨rfl, rfl⟩ := Incident.missingGlyph.inj same
    refine ⟨rfl, ?_⟩
    rw [← Bool.not_eq_true', ← lacks]
    exact (List.mem_filter.mp found).2

theorem Resources.count_contentIncidents (r : Resources α) (style : Style α) (content : Content)
    (font : String) (c : Char) :
    (r.contentIncidents style content).count (.missingGlyph font c) =
      r.lacking font c style content := by
  rw [r.contentIncidents_eq, r.count_shapingIncidents, r.font_contentStyle,
    r.glyphSize_contentStyle]
  rfl

/-- Shaping a text reports nothing exactly if some font has each of its characters. -/
theorem Resources.shapingIncidents_eq_nil_iff (r : Resources α) (style : Style α)
    (text : List Char) : r.shapingIncidents style text = [] ↔
      ∀ c ∈ text, r.has style.font style.glyphSize c = true := by
  rw [Resources.shapingIncidents, List.map_eq_nil_iff, List.filter_eq_nil_iff]
  refine forall₂_congr fun c _ => ?_
  rw [← r.isSome_find?, ← Option.not_isSome, Bool.not_eq_true', Bool.not_eq_false]

theorem Resources.contentIncidents_eq_nil_iff (r : Resources α) (style : Style α)
    (content : Content) : r.contentIncidents style content = [] ↔
      ∀ c ∈ content.chars, r.has style.font (r.contentGlyphSize style content) c = true := by
  rw [r.contentIncidents_eq, r.shapingIncidents_eq_nil_iff, r.font_contentStyle,
    r.glyphSize_contentStyle]

/-- Content reports nothing but characters that no font has. -/
theorem Resources.mem_contentIncidents {content : Content} {incident : Incident}
    (member : incident ∈ r.contentIncidents style content) :
    ∃ font c, incident = .missingGlyph font c := by
  rw [r.contentIncidents_eq] at member
  obtain ⟨c, -, rfl⟩ := List.mem_map.mp member
  exact ⟨_, c, rfl⟩

/-! ## Fonts -/

omit [Scalar α] in
theorem Resources.countP_fontIncidents (r : Resources α) (requested name : String) :
    (r.fontIncidents requested).countP (Diagnostics.lacksFont name) =
      if (r.fonts.info name).isNone then [requested].count name else 0 := by
  unfold Resources.fontIncidents
  by_cases same : requested = name
  · subst same
    rw [List.count_singleton_self]
    cases r.fonts.info requested <;> simp [Diagnostics.lacksFont]
  · have other : [requested].count name = 0 :=
      List.count_eq_zero.mpr (by simpa [eq_comm] using same)
    rw [other, ite_self]
    cases r.fonts.info requested <;> simp [Diagnostics.lacksFont, same]

omit [Scalar α] in
theorem Resources.fontIncidents_eq_nil_iff (r : Resources α) (requested : String) :
    r.fontIncidents requested = [] ↔ (r.fonts.info requested).isSome = true := by
  unfold Resources.fontIncidents
  cases r.fonts.info requested <;> simp

/-! ## Tokens -/

/-- A token is content, a font command, or reports nothing. -/
theorem Job.incidentsAt_cases (job : Job α) (style : Style α) (t : Token α) :
    (∃ c, t.content? = some c ∧ t.fontRequest? = none ∧ job.imitates style t = false ∧
      job.incidentsAt style t = job.contentIncidents style c) ∨
    (∃ name, t.content? = none ∧ t.fontRequest? = some name ∧
      job.incidentsAt style t =
        job.fontIncidents name ++ if job.imitates style t then [.imitatedStyle] else []) ∨
    (t.content? = none ∧ t.fontRequest? = none ∧ job.imitates style t = false ∧
      job.incidentsAt style t = []) := by
  cases found : t.content? with
  | some c =>
    refine .inl ⟨c, rfl, ?_, ?_, job.incidentsAt_content style found⟩
    · cases t with
      | format command => cases found
      | _ => rfl
    · cases t with
      | format command => cases found
      | _ => rfl
  | none =>
    cases t with
    | format command =>
      cases command with
      | font name bold italic => exact .inr (.inl ⟨name, rfl, rfl, rfl⟩)
      | _ => exact .inr (.inr ⟨rfl, rfl, rfl, rfl⟩)
    | word text =>
      refine .inr (.inr ⟨rfl, rfl, rfl, ?_⟩)
      rw [Job.incidentsAt, found]
      · rfl
      · rintro _ _ _ ⟨⟩
    | stack e => cases found
    | _ => exact .inr (.inr ⟨rfl, rfl, rfl, rfl⟩)

/-! ## Streams -/

/-- What there is to report about a stream of styled tokens. -/
def Job.reports (job : Job α) (stream : List (Style α × Token α)) : List Incident :=
  stream.flatMap fun e => job.incidentsAt e.1 e.2

variable (job : Job α) (stream : List (Style α × Token α))

theorem Job.reports_cons (style : Style α) (t : Token α) :
    job.reports ((style, t) :: stream) = job.incidentsAt style t ++ job.reports stream := rfl

theorem Job.count_missingGlyph_reports (font : String) (c : Char) :
    (job.reports stream).count (.missingGlyph font c) =
      ((styledContents stream).map fun e => job.lacking font c e.1 e.2).sum := by
  induction stream with
  | nil => rfl
  | cons e rest ih =>
    obtain ⟨style, t⟩ := e
    rw [Job.reports_cons, List.count_append, ih, styledContents, styledContents,
      List.filterMap_cons]
    rcases job.incidentsAt_cases style t with ⟨content, found, -, -, incidents⟩ |
      ⟨name, none, -, incidents⟩ | ⟨none, -, -, incidents⟩
    · simp only [incidents, found, job.count_contentIncidents, Option.map_some, List.map_cons,
        List.sum_cons]
    · have fonts : (job.fontIncidents name).count (.missingGlyph font c) = 0 := by
        unfold Resources.fontIncidents
        split <;> rfl
      simp only [incidents, none, Option.map_none, List.count_append, fonts]
      split <;> simp
    · simp only [incidents, none, Option.map_none, List.count_nil, Nat.zero_add]

theorem Job.countP_lacksFont_reports (name : String) :
    (job.reports stream).countP (Diagnostics.lacksFont name) =
      if (job.fonts.info name).isNone then
        ((stream.map Prod.snd).filterMap Token.fontRequest?).count name
      else 0 := by
  induction stream with
  | nil => exact (ite_self _).symm
  | cons e rest ih =>
    obtain ⟨style, t⟩ := e
    rw [Job.reports_cons, List.countP_append, ih, List.map_cons, List.filterMap_cons]
    rcases job.incidentsAt_cases style t with ⟨content, -, none, -, incidents⟩ |
      ⟨requested, -, asked, incidents⟩ | ⟨-, none, -, incidents⟩
    · have glyphs : (job.contentIncidents style content).countP (Diagnostics.lacksFont name) = 0 :=
        List.countP_eq_zero.mpr fun incident member => by
          obtain ⟨font, c, rfl⟩ := Resources.mem_contentIncidents member
          exact Bool.false_ne_true
      simp only [incidents, none, glyphs, Nat.zero_add]
    · have styles : (if job.imitates style t then [Incident.imitatedStyle] else []).countP
          (Diagnostics.lacksFont name) = 0 := by
        split <;> rfl
      simp only [incidents, asked, List.countP_append, job.countP_fontIncidents, styles,
        Nat.add_zero]
      split
      · simp only [List.count_cons, List.count_nil, Nat.zero_add, Nat.add_comm]
      · rfl
    · simp only [incidents, none, List.countP_nil, Nat.zero_add]

theorem Job.count_imitatedStyle_reports :
    (job.reports stream).count .imitatedStyle = stream.countP fun e => job.imitates e.1 e.2 := by
  induction stream with
  | nil => rfl
  | cons e rest ih =>
    obtain ⟨style, t⟩ := e
    rw [Job.reports_cons, List.count_append, ih, List.countP_cons, Nat.add_comm]
    refine congrArg _ ?_
    rcases job.incidentsAt_cases style t with ⟨content, -, -, plain, incidents⟩ |
      ⟨name, -, -, incidents⟩ | ⟨-, -, plain, incidents⟩
    · rw [incidents, plain]
      refine List.count_eq_zero_of_not_mem fun member => ?_
      obtain ⟨font, c, same⟩ := Resources.mem_contentIncidents member
      cases same
    · have fonts : (job.fontIncidents name).count .imitatedStyle = 0 := by
        unfold Resources.fontIncidents
        split <;> rfl
      rw [incidents, List.count_append, fonts, Nat.zero_add]
      split <;> rfl
    · rw [incidents, plain]
      rfl

/-- A stream reports nothing exactly if none of the three kinds of incident happens. -/
theorem Job.reports_eq_nil_iff : job.reports stream = [] ↔
    (∀ e ∈ styledContents stream, ∀ c ∈ e.2.chars,
      job.has e.1.font (job.contentGlyphSize e.1 e.2) c = true) ∧
    (∀ name ∈ (stream.map Prod.snd).filterMap Token.fontRequest?,
      (job.fonts.info name).isSome = true) ∧
    ∀ e ∈ stream, job.imitates e.1 e.2 = false := by
  induction stream with
  | nil => simp [Job.reports, styledContents]
  | cons e rest ih =>
    obtain ⟨style, t⟩ := e
    rw [Job.reports_cons, List.append_eq_nil_iff, ih, List.map_cons, List.filterMap_cons,
      List.forall_mem_cons, styledContents, styledContents, List.filterMap_cons]
    rcases job.incidentsAt_cases style t with ⟨content, found, none, plain, incidents⟩ |
      ⟨name, none, asked, incidents⟩ | ⟨none, noFont, plain, incidents⟩
    · simp only [incidents, found, none, plain, job.contentIncidents_eq_nil_iff, Option.map_some,
        List.forall_mem_cons, true_and, and_assoc]
    · simp only [incidents, none, asked, Option.map_none, List.append_eq_nil_iff,
        job.fontIncidents_eq_nil_iff, List.forall_mem_cons, ite_eq_right_iff, List.cons_ne_nil,
        imp_false, Bool.not_eq_true, and_assoc]
      tauto
    · simp only [incidents, none, noFont, plain, Option.map_none, true_and]

/-! ## Layouts -/

variable {job stream} {tokens : List (Token α)}

theorem Job.diagnostics_reports (job : Job α) (tokens : List (Token α)) :
    (job.layout tokens).diagnostics =
      .ofIncidents (job.fontIncidents job.baseFont ++ job.reports (job.styled tokens)) := by
  rw [Job.diagnostics_layout, Job.passAfter, Pass.incidents_run]
  rfl

/-- Diagnostics that count what happens in a text, and nothing else. -/
structure Job.Counted (job : Job α) (tokens : List (Token α)) (d : Diagnostics) : Prop where
  /-- A character is counted under a font each time that content asks for it while the font is
  active, and neither it nor the big font nor any other font has it at the size asked for. -/
  missingGlyphs : ∀ font c, Tally.count d.missingGlyphs (font, c) =
    ((styledContents (job.styled tokens)).map fun e => job.lacking font c e.1 e.2).sum
  /-- A font that is not available is counted each time that it is asked for. -/
  missingFonts : ∀ name, Tally.count d.missingFonts name =
    if (job.fonts.info name).isNone then (job.fontRequests tokens).count name else 0
  imitatedStyles : d.imitatedStyles =
    (job.styled tokens).countP fun e => job.imitates e.1 e.2
  /-- A key has one entry at most, and no entry counts zero. -/
  positive : d.Positive
  glyphKeys : (d.missingGlyphs.map Prod.fst).Nodup
  fontKeys : (d.missingFonts.map Prod.fst).Nodup
  /-- The diagnostics are clean exactly if nothing of this happens. -/
  clean_iff : d.isClean = true ↔
    (∀ e ∈ styledContents (job.styled tokens), ∀ c ∈ e.2.chars,
      job.has e.1.font (job.contentGlyphSize e.1 e.2) c = true) ∧
    (∀ name ∈ job.fontRequests tokens, (job.fonts.info name).isSome = true) ∧
    ∀ e ∈ job.styled tokens, job.imitates e.1 e.2 = false

/-- **The diagnostics of a layout count exactly**: each character that no font has, each request
for a font that is not available, and each style that is imitated. -/
theorem Job.diagnostics_exact (job : Job α) (tokens : List (Token α)) :
    job.Counted tokens (job.layout tokens).diagnostics := by
  have stream : (job.styled tokens).map Prod.snd = tokens := job.map_snd_styledFrom _ _
  rw [job.diagnostics_reports]
  obtain ⟨ordered, counts⟩ := Diagnostics.counts_ofIncidents
    (job.fontIncidents job.baseFont ++ job.reports (job.styled tokens))
  constructor
  · intro font c
    have base : (job.fontIncidents job.baseFont).count (.missingGlyph font c) = 0 := by
      unfold Resources.fontIncidents
      split <;> rfl
    rw [counts.missingGlyphs, List.count_append, base, Nat.zero_add,
      job.count_missingGlyph_reports]
  · intro name
    rw [counts.missingFonts, List.countP_append, job.countP_fontIncidents,
      job.countP_lacksFont_reports, stream, Job.fontRequests]
    split
    · simp only [List.count_cons, List.count_nil, Nat.zero_add, Nat.add_comm]
    · rfl
  · have base : (job.fontIncidents job.baseFont).count .imitatedStyle = 0 := by
      unfold Resources.fontIncidents
      split <;> rfl
    rw [counts.imitatedStyles, List.count_append, base, Nat.zero_add,
      job.count_imitatedStyle_reports]
  · exact Diagnostics.positive_ofIncidents _
  · exact ordered.missingGlyphs.nodup
  · exact ordered.missingFonts.nodup
  · rw [Diagnostics.isClean_ofIncidents, List.append_eq_nil_iff, job.fontIncidents_eq_nil_iff,
      job.reports_eq_nil_iff, stream, Job.fontRequests, List.forall_mem_cons]
    tauto

end Lettering
