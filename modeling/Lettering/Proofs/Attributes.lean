import Lettering.Font.BoxFonts
import Lettering.Proofs.BlankWidths
import Lettering.Proofs.Groups
import Lettering.Scalar.Binary64

/-!
# Attributes

Group commands apart, a command is about one attribute of the formatting (`Command.attribute?`).  It
sets that attribute and at most the advance of a blank besides (`Job.apply_eq_set`), and what it
sets depends on that attribute alone (`Job.value_apply_congr`).  So a sequence leaves of an attribute
what its commands about that attribute leave (`Job.value_applyAll`).

The advance of a blank belongs to no attribute: font and height both compute it anew.  It is that of
the font and size that the whole sequence leaves, if any command of the sequence computes it
(`Job.blankWidth_applyAll`).  Hence sequences that agree about each attribute leave the same
formatting, in whatever order commands about different attributes come
(`Job.applyAll_interleaved`).
-/

namespace Lettering

variable {α : Type}

/-- What a command can be about. -/
inductive Attribute where
  | font
  | color
  | widthFactor
  | height
  | tracking
  | oblique
  | underline
  | overline
  | strikeThrough
  | charAlignment
  | paragraph
deriving DecidableEq

/-- What a command is about.  Group commands are about no single attribute, and unknown commands
about none. -/
def Command.attribute? : Command α → Option Attribute
  | .font .. => some .font
  | .color _ => some .color
  | .widthFactor _ => some .widthFactor
  | .height _ => some .height
  | .tracking _ => some .tracking
  | .oblique _ => some .oblique
  | .underline _ => some .underline
  | .overline _ => some .overline
  | .strikeThrough _ => some .strikeThrough
  | .charAlignment _ => some .charAlignment
  | .paragraph _ => some .paragraph
  | .groupOpen | .groupClose | .unknown _ => none

/-- Whether a command works the stack of styles. -/
def Command.isGroup (command : Command α) : Bool := command.opensGroup || command.closesGroup

/-- What a formatting keeps of its font, with the incidents, which only font commands report. -/
structure FontState (α : Type) where
  name : String
  kind : FontKind
  scale : α
  bold : Bool
  italic : Bool
  incidents : List Incident

/-- The values of an attribute; the height is a size and a factor on it. -/
def Attribute.Value (α : Type) : Attribute → Type
  | .font => FontState α
  | .color => Rgb
  | .height => α × α
  | .widthFactor | .tracking | .oblique => α
  | .underline | .overline | .strikeThrough => Bool
  | .charAlignment => VerticalAlignment
  | .paragraph => Paragraph α

namespace Formatting

theorem style_restyle (f : Formatting α) (change : Style α → Style α) :
    (f.restyle change).style = change f.style := rfl

/-- The value of an attribute. -/
def value (f : Formatting α) : (a : Attribute) → a.Value α
  | .font => ⟨f.style.font, f.style.fontKind, f.style.fontScale, f.style.bold, f.style.italic,
      f.incidents⟩
  | .color => f.style.color
  | .height => (f.style.size, f.style.sizeFactor)
  | .widthFactor => f.style.widthFactor
  | .tracking => f.style.tracking
  | .oblique => f.style.obliqueAngle
  | .underline => f.style.underline
  | .overline => f.style.overline
  | .strikeThrough => f.style.strikeThrough
  | .charAlignment => f.style.charAlignment
  | .paragraph => f.paragraph

/-- The formatting with another value of an attribute and another advance of a blank. -/
def set (f : Formatting α) (blank : α) : (a : Attribute) → a.Value α → Formatting α
  | .font, v =>
    { f.restyle fun s =>
        { s with
          font := v.name
          fontKind := v.kind
          fontScale := v.scale
          bold := v.bold
          italic := v.italic
          blankWidth := blank } with
      incidents := v.incidents }
  | .color, v => f.restyle fun s => { s with color := v, blankWidth := blank }
  | .height, v =>
    f.restyle fun s => { s with size := v.1, sizeFactor := v.2, blankWidth := blank }
  | .widthFactor, v => f.restyle fun s => { s with widthFactor := v, blankWidth := blank }
  | .tracking, v => f.restyle fun s => { s with tracking := v, blankWidth := blank }
  | .oblique, v => f.restyle fun s => { s with obliqueAngle := v, blankWidth := blank }
  | .underline, v => f.restyle fun s => { s with underline := v, blankWidth := blank }
  | .overline, v => f.restyle fun s => { s with overline := v, blankWidth := blank }
  | .strikeThrough, v => f.restyle fun s => { s with strikeThrough := v, blankWidth := blank }
  | .charAlignment, v => f.restyle fun s => { s with charAlignment := v, blankWidth := blank }
  | .paragraph, v =>
    { f.restyle fun s => { s with blankWidth := blank } with paragraph := v }

/-- What no command but those of groups changes: the saved styles, and the factor on blanks. -/
def rest (f : Formatting α) : List (Style α) × α := (f.styles.saved, f.style.wordSpace)

theorem value_set_of_ne {a b : Attribute} (other : a ≠ b) (f : Formatting α) (blank : α)
    (v : a.Value α) : (f.set blank a v).value b = f.value b := by
  cases a <;> cases b <;> first | rfl | exact (other rfl).elim

theorem rest_set (f : Formatting α) (blank : α) (a : Attribute) (v : a.Value α) :
    (f.set blank a v).rest = f.rest := by
  cases a <;> rfl

theorem set_value (f : Formatting α) (a : Attribute) :
    f.set f.style.blankWidth a (f.value a) = f := by
  cases a <;> rfl

theorem eq_of_values {f g : Formatting α} (values : ∀ a, f.value a = g.value a)
    (rest : f.rest = g.rest) (blank : f.style.blankWidth = g.style.blankWidth) : f = g := by
  obtain ⟨⟨s, saved⟩, paragraph, incidents⟩ := f
  obtain ⟨⟨t, _⟩, _, _⟩ := g
  obtain ⟨rfl, wordSpace⟩ := Prod.mk.inj rest
  obtain ⟨name, kind, scale, bold, italic, rfl⟩ := FontState.mk.inj (values .font)
  obtain ⟨size, sizeFactor⟩ := Prod.mk.inj (values .height)
  obtain rfl : paragraph = _ := values .paragraph
  have same : s = t := by
    cases s
    cases t
    rw [Style.mk.injEq]
    exact ⟨name, kind, scale, size, sizeFactor, values .color, values .underline, values .overline,
      values .strikeThrough, values .oblique, italic, bold, values .widthFactor, values .tracking,
      wordSpace, blank, values .charAlignment⟩
  rw [same]

/-- The advance of a blank, if it was computed now, is that of the height and the font. -/
theorem computed_congr [Scalar α] {f g : Formatting α} (height : f.value .height = g.value .height)
    (font : f.value .font = g.value .font) :
    f.style.effectiveSize * f.style.fontKind.blankRatio =
      g.style.effectiveSize * g.style.fontKind.blankRatio := by
  obtain ⟨size, factor⟩ := Prod.mk.inj height
  obtain ⟨-, kind, -⟩ := FontState.mk.inj font
  rw [Style.effectiveSize, Style.effectiveSize, size, factor, kind]

end Formatting

variable [Scalar α] {job : Job α} {f g : Formatting α} {command : Command α} {a : Attribute}

/-! ## One command -/

/-- A command sets what it is about, and at most the advance of a blank besides. -/
theorem Job.apply_eq_set (job : Job α) (f : Formatting α) (about : command.attribute? = some a) :
    job.apply f command = f.set (job.apply f command).style.blankWidth a
      ((job.apply f command).value a) := by
  have either {taken : Bool} {t : Style α}
      (set : f.restyle (fun _ => t) = f.set t.blankWidth a ((f.restyle fun _ => t).value a)) :
      let s := if taken then t else f.style
      f.restyle (fun _ => s) = f.set s.blankWidth a ((f.restyle fun _ => s).value a) := by
    cases taken with
    | true => exact set
    | false => exact (f.set_value a).symm
  cases command with
  | groupOpen | groupClose | unknown => cases about
  | height scale => cases scale <;> (cases about; exact either rfl)
  | widthFactor | tracking | oblique => cases about; exact either rfl
  | _ => cases about; rfl

/-- A command about nothing does nothing. -/
theorem Job.apply_eq_self (job : Job α) (f : Formatting α) (bare : command.isGroup = false)
    (idle : command.attribute? = none) : job.apply f command = f := by
  cases command with
  | unknown code => rfl
  | groupOpen | groupClose => cases bare
  | _ => cases idle

theorem Job.value_apply_of_ne (job : Job α) (f : Formatting α) (bare : command.isGroup = false)
    (other : command.attribute? ≠ some a) : (job.apply f command).value a = f.value a := by
  cases about : command.attribute? with
  | none => rw [job.apply_eq_self f bare about]
  | some b =>
    have differ : b ≠ a := fun same => other (about.trans (congrArg some same))
    rw [job.apply_eq_set f about]
    exact Formatting.value_set_of_ne differ f _ _

/-- What a command sets depends on what it is about alone. -/
theorem Job.value_apply_congr (job : Job α) (about : command.attribute? = some a)
    (same : f.value a = g.value a) :
    (job.apply f command).value a = (job.apply g command).value a := by
  cases command with
  | groupOpen | groupClose | unknown => cases about
  | font name bold italic =>
    cases about
    have after (h : Formatting α) :
        let font := job.resolveFont name h.style.fontKind
        (job.apply h (.font name bold italic)).value .font =
          ⟨font.name, font.info.kind, font.info.scale, bold, italic,
            h.incidents ++ job.fontCommandIncidents name bold italic h.style.fontKind⟩ := rfl
    obtain ⟨-, kind, -, -, -, incidents⟩ := FontState.mk.inj same
    rw [after, after, kind, incidents]
  | paragraph change => cases about; exact congrArg (Paragraph.apply · change) same
  | height scale =>
    obtain ⟨rfl⟩ := about
    obtain ⟨size, factor⟩ := Prod.mk.inj same
    refine Prod.ext ?_ ?_ <;> cases scale <;>
      simp only [Formatting.value, Job.apply, Formatting.style_restyle, Style.setHeight,
        Style.refreshBlank, apply_ite Style.size, apply_ite Style.sizeFactor, size, factor]
  | widthFactor scale =>
    cases about
    have same : f.style.widthFactor = g.style.widthFactor := same
    show (f.style.setWidthFactor job scale).widthFactor =
      (g.style.setWidthFactor job scale).widthFactor
    simp only [Style.setWidthFactor, apply_ite Style.widthFactor, same]
  | tracking scale =>
    cases about
    have same : f.style.tracking = g.style.tracking := same
    show (f.style.setTracking scale).tracking = (g.style.setTracking scale).tracking
    simp only [Style.setTracking, apply_ite Style.tracking, same]
  | oblique angle =>
    cases about
    have same : f.style.obliqueAngle = g.style.obliqueAngle := same
    show (f.style.setOblique angle).obliqueAngle = (g.style.setOblique angle).obliqueAngle
    simp only [Style.setOblique, apply_ite Style.obliqueAngle, same]
  | _ => cases about; rfl

theorem Job.style_apply (job : Job α) (f : Formatting α) (bare : command.isGroup = false) :
    (job.apply f command).style = job.restyle f.style command := by
  cases command with
  | groupOpen | groupClose => cases bare
  | _ => rfl

theorem Command.attribute_of_refreshes (refreshes : command.refreshes = true) :
    ∃ a, command.attribute? = some a := by
  cases command with
  | font => exact ⟨.font, rfl⟩
  | height => exact ⟨.height, rfl⟩
  | _ => cases refreshes

/-- Commands other than those of groups leave the saved styles and the factor on blanks alone. -/
theorem Job.rest_apply (job : Job α) (f : Formatting α) (bare : command.isGroup = false) :
    (job.apply f command).rest = f.rest := by
  cases about : command.attribute? with
  | none => rw [job.apply_eq_self f bare about]
  | some a =>
    rw [job.apply_eq_set f about]
    exact f.rest_set _ a _

/-! ## Sequences -/

section Sequences

variable {commands xs ys : List (Command α)}

theorem Job.rest_applyAll (job : Job α) (f : Formatting α)
    (bare : ∀ c ∈ commands, c.isGroup = false) : (job.applyAll f commands).rest = f.rest := by
  induction commands generalizing f with
  | nil => rfl
  | cons command rest ih =>
    obtain ⟨now, later⟩ := List.forall_mem_cons.mp bare
    calc (job.applyAll (job.apply f command) rest).rest
        = (job.apply f command).rest := ih _ later
      _ = f.rest := job.rest_apply f now

/-- A sequence leaves of an attribute what its commands about that attribute leave. -/
theorem Job.value_applyAll (job : Job α) (a : Attribute)
    (bare : ∀ c ∈ commands, c.isGroup = false) (same : f.value a = g.value a) :
    (job.applyAll f commands).value a =
      (job.applyAll g (commands.filter (·.attribute? = some a))).value a := by
  induction commands generalizing f g with
  | nil => exact same
  | cons command rest ih =>
    obtain ⟨now, later⟩ := List.forall_mem_cons.mp bare
    by_cases about : command.attribute? = some a
    · rw [List.filter_cons, if_pos (decide_eq_true about)]
      exact ih later (job.value_apply_congr about same)
    · rw [List.filter_cons, if_neg (by simpa using about)]
      exact ih later ((job.value_apply_of_ne f now about).trans same)

/-- After a sequence the advance of a blank is that of the font and size then in force, if any
command computed it anew, and the one before if none did. -/
theorem Job.blankWidth_applyAll (job : Job α) (f : Formatting α)
    (bare : ∀ c ∈ commands, c.isGroup = false) :
    (job.applyAll f commands).style.blankWidth =
      if commands.any Command.refreshes then
        (job.applyAll f commands).style.effectiveSize *
          (job.applyAll f commands).style.fontKind.blankRatio
      else f.style.blankWidth := by
  induction commands using List.reverseRecOn with
  | nil => rfl
  | append_singleton first last ih =>
    obtain ⟨before, now⟩ := List.forall_mem_append.mp bare
    have style : (job.applyAll f (first ++ [last])).style =
        job.restyle (job.applyAll f first).style last := by
      rw [Job.applyAll, List.foldl_append]
      exact job.style_apply _ (now last (List.mem_singleton_self last))
    rw [style, List.any_append, List.any_cons, List.any_nil, Bool.or_false]
    cases refreshes : last.refreshes with
    | true =>
      rw [Bool.or_true, if_pos rfl]
      exact Job.fresh_restyle refreshes
    | false =>
      have same : (job.restyle (job.applyAll f first).style last).SameBlank
          (job.applyAll f first).style := Job.sameBlank_restyle refreshes
      rw [Bool.or_false, same.blankWidth, same.effectiveSize, same.fontKind]
      exact ih before

theorem any_refreshes_of_same
    (same : ∀ a, xs.filter (·.attribute? = some a) = ys.filter (·.attribute? = some a))
    (refreshes : xs.any Command.refreshes = true) : ys.any Command.refreshes = true := by
  obtain ⟨command, held, refreshes⟩ := List.any_eq_true.mp refreshes
  obtain ⟨a, about⟩ := Command.attribute_of_refreshes refreshes
  have kept : command ∈ ys.filter (·.attribute? = some a) :=
    same a ▸ List.mem_filter.mpr ⟨held, decide_eq_true about⟩
  exact List.any_eq_true.mpr ⟨command, (List.mem_filter.mp kept).1, refreshes⟩

/-- **Commands about different attributes commute.**  Sequences without group commands that hold the
same commands about each attribute in the same order, with unknown commands anywhere, leave the same
formatting: the same styles with the same advance of a blank, the same paragraph and the same
incidents.  Nothing is asked of the arithmetic. -/
theorem Job.applyAll_interleaved (job : Job α) (f : Formatting α)
    (bareXs : ∀ c ∈ xs, c.isGroup = false) (bareYs : ∀ c ∈ ys, c.isGroup = false)
    (same : ∀ a, xs.filter (·.attribute? = some a) = ys.filter (·.attribute? = some a)) :
    job.applyAll f xs = job.applyAll f ys := by
  have values (a : Attribute) : (job.applyAll f xs).value a = (job.applyAll f ys).value a := by
    rw [job.value_applyAll a bareXs rfl, job.value_applyAll a bareYs rfl, same a]
  have refreshes : xs.any Command.refreshes = ys.any Command.refreshes :=
    Bool.eq_iff_iff.mpr ⟨any_refreshes_of_same same, any_refreshes_of_same fun a => (same a).symm⟩
  refine Formatting.eq_of_values values ?_ ?_
  · rw [job.rest_applyAll f bareXs, job.rest_applyAll f bareYs]
  · rw [job.blankWidth_applyAll f bareXs, job.blankWidth_applyAll f bareYs, refreshes,
      Formatting.computed_congr (values .height) (values .font)]

/-- A font command after two heights and before them, with a height that is not taken. -/
theorem Job.applyAll_interleaved_heights :
    let job : Job Float :=
      { fonts := BoxFonts.standard.source
        palette := fun _ => none
        colors := {}
        settings := Settings.standard
        entity := Entity.standard }
    let xs : List (Command Float) :=
      [.height (.relative 2), .height (.absolute (-1)), .unknown "x", .font "arial" true false,
        .underline true]
    let ys : List (Command Float) :=
      [.underline true, .font "arial" true false, .height (.relative 2), .height (.absolute (-1))]
    (∀ c ∈ xs, c.isGroup = false) ∧ (∀ c ∈ ys, c.isGroup = false) ∧
      (∀ a, xs.filter (·.attribute? = some a) = ys.filter (·.attribute? = some a)) ∧
      job.applyAll job.baseFormatting xs = job.applyAll job.baseFormatting ys := by
  intro job xs ys
  have bareXs : ∀ c ∈ xs, c.isGroup = false := by decide
  have bareYs : ∀ c ∈ ys, c.isGroup = false := by decide
  have same (a : Attribute) :
      xs.filter (·.attribute? = some a) = ys.filter (·.attribute? = some a) := by
    cases a <;> rfl
  exact ⟨bareXs, bareYs, same, job.applyAll_interleaved job.baseFormatting bareXs bareYs same⟩

end Sequences

end Lettering
