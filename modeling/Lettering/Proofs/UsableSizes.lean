import Lettering.Font.BoxFonts
import Lettering.Proofs.Commands
import Lettering.Scalar.Binary64

/-!
# Usable sizes

A style keeps its size and three factors that have to be finite and above zero.  A command asks for
a new value of one of them (`Job.asked?`); a value that is not usable is not taken, and the style
stays as it was.

Relative heights are the exception.  They test their factor and not the product, so that a product
which overflows, or falls to zero, is taken (`Style.escapes`; `Job.relative_heights_overflow`).
All styles of a pass are usable exactly until that happens (`Job.usable_iff`).
-/

namespace Lettering

/-- What a style keeps that has to be finite and above zero. -/
inductive Measure where
  | size
  | sizeFactor
  | widthFactor
  | tracking
deriving DecidableEq

variable {α : Type}

def Style.measure (s : Style α) : Measure → α
  | .size => s.size
  | .sizeFactor => s.sizeFactor
  | .widthFactor => s.widthFactor
  | .tracking => s.tracking

variable [Scalar α]

/-- Every measure of the style is finite and above zero. -/
def Style.Usable (s : Style α) : Prop := ∀ m, Scalar.isPositive (s.measure m) = true

/-- The measure that a command is about, and the value that it asks for in a style. -/
def Job.asked? (job : Job α) (s : Style α) : Command α → Option (Measure × α)
  | .height (.absolute size) => some (.size, size)
  | .height (.relative factor) => some (.sizeFactor, s.sizeFactor * factor)
  | .widthFactor (.absolute factor) => some (.widthFactor, factor * job.entity.widthFactor)
  | .widthFactor (.relative factor) =>
    some (.widthFactor, if job.settings.legacyWidthFactor && job.entity.wraps then
      factor * job.entity.width else s.widthFactor * factor)
  | .tracking (.absolute factor) => some (.tracking, factor)
  | .tracking (.relative factor) => some (.tracking, s.tracking * factor)
  | _ => none

/-- A relative height by a usable factor, to a product that is not usable. -/
def Style.escapes (s : Style α) : Token α → Bool
  | .format (.height (.relative factor)) =>
    Scalar.isPositive factor && !Scalar.isPositive (s.sizeFactor * factor)
  | _ => false

variable {job : Job α} {s : Style α} {command : Command α}

/-! ## Commands -/

/-- What a command that asks for a value does to a style: if a test passes it sets the measure, which
makes the style `t`. -/
structure Job.Sets (job : Job α) (s : Style α) (command : Command α) (m : Measure) (value : α)
    (test : Bool) (t : Style α) : Prop where
  restyle : job.restyle s command = if test then t else s
  measure : t.measure m = value
  /-- An absolute height takes the factor of the relative ones back. -/
  others : ∀ n, n ≠ m → t.measure n = s.measure n ∨ t.measure n = 1
  /-- The value is tested, but for relative heights. -/
  tested : test = Scalar.isPositive value ∨
    m = .sizeFactor ∧ s.escapes (.format command) = (test && !Scalar.isPositive value)

theorem Job.exists_sets {m : Measure} {value : α}
    (asked : job.asked? s command = some (m, value)) :
    ∃ test t, job.Sets s command m value test t := by
  cases command with
  | height scale =>
    cases scale with
    | absolute size =>
      cases asked
      refine ⟨_, _, rfl, rfl, fun n other => ?_, .inl rfl⟩
      cases n with
      | size => exact (other rfl).elim
      | sizeFactor => exact .inr rfl
      | widthFactor | tracking => exact .inl rfl
    | relative factor =>
      cases asked
      refine ⟨_, _, rfl, rfl, fun n other => .inl ?_, .inr ⟨rfl, rfl⟩⟩
      cases n with
      | sizeFactor => exact (other rfl).elim
      | size | widthFactor | tracking => rfl
  | widthFactor scale =>
    cases scale <;>
    · cases asked
      refine ⟨_, _, rfl, rfl, fun n other => .inl ?_, .inl rfl⟩
      cases n with
      | widthFactor => exact (other rfl).elim
      | size | sizeFactor | tracking => rfl
  | tracking scale =>
    cases scale <;>
    · cases asked
      refine ⟨_, _, rfl, rfl, fun n other => .inl ?_, .inl rfl⟩
      cases n with
      | tracking => exact (other rfl).elim
      | size | sizeFactor | widthFactor => rfl
  | _ => cases asked

theorem Job.measure_restyle_of_none (asked : job.asked? s command = none) (m : Measure) :
    (job.restyle s command).measure m = s.measure m := by
  cases command with
  | height scale | widthFactor scale | tracking scale => cases scale <;> cases asked
  | oblique angle =>
    rw [Job.restyle, Style.setOblique]
    split <;> cases m <;> rfl
  | _ => cases m <;> rfl

/-- A command that asks for a value that is not usable is passed over. -/
theorem Job.restyle_of_unusable {m : Measure} {value : α}
    (asked : job.asked? s command = some (m, value)) (unusable : Scalar.isPositive value = false)
    (stays : s.escapes (.format command) = false) : job.restyle s command = s := by
  obtain ⟨test, t, sets⟩ := Job.exists_sets asked
  have fails : test = false := by
    rcases sets.tested with value | ⟨-, escapes⟩
    · exact value.trans unusable
    · rw [stays, unusable, Bool.not_false, Bool.and_true] at escapes
      exact escapes.symm
  rw [sets.restyle, fails]
  rfl

/-- A command that asks for a usable value sets it. -/
theorem Job.measure_restyle_of_usable {m : Measure} {value : α}
    (asked : job.asked? s command = some (m, value)) (usable : Scalar.isPositive value = true)
    (other : m ≠ .sizeFactor) : (job.restyle s command).measure m = value := by
  obtain ⟨test, t, sets⟩ := Job.exists_sets asked
  rcases sets.tested with value | ⟨relative, -⟩
  · rw [sets.restyle, value.trans usable]
    exact sets.measure
  · exact (other relative).elim

/-- A relative height multiplies, whatever the product is. -/
theorem Style.sizeFactor_relative {factor : α} (usable : Scalar.isPositive factor = true)
    (s : Style α) : (s.setHeight (.relative factor)).measure .sizeFactor = s.sizeFactor * factor := by
  rw [Style.setHeight, if_pos usable]
  rfl

/-- Commands that ask for a value leave the open groups alone. -/
theorem Job.restack_of_asked {styles : StyleStack α} {request : Measure × α}
    (asked : job.asked? s command = some request) :
    job.restack styles command = styles.modify fun s => job.restyle s command := by
  cases command with
  | groupOpen | groupClose => cases asked
  | _ => rfl

/-- What a command leaves of a measure: what it was, a usable value, or the product of a relative
height that escapes. -/
inductive Style.Leaves (s : Style α) (command : Command α) (t : Style α) : Measure → Prop
  | same {m : Measure} (same : t.measure m = s.measure m) : Style.Leaves s command t m
  | usable {m : Measure} (usable : Scalar.isPositive (t.measure m) = true) :
    Style.Leaves s command t m
  | escaped (escapes : s.escapes (.format command) = true) : Style.Leaves s command t .sizeFactor

theorem Job.leaves_restyle (one : Scalar.isPositive (1 : α) = true) (job : Job α) (s : Style α)
    (command : Command α) (m : Measure) : s.Leaves command (job.restyle s command) m := by
  cases asked : job.asked? s command with
  | none => exact .same (Job.measure_restyle_of_none asked m)
  | some request =>
    obtain ⟨test, t, sets⟩ := Job.exists_sets asked
    rw [sets.restyle]
    cases test with
    | false => exact .same rfl
    | true =>
      show s.Leaves command t m
      by_cases about : m = request.1
      · subst about
        cases usable : Scalar.isPositive request.2 with
        | true => exact .usable (sets.measure.symm ▸ usable)
        | false =>
          rcases sets.tested with value | ⟨relative, escapes⟩
          · rw [usable] at value
            cases value
          · rw [usable] at escapes
            exact relative.symm ▸ .escaped escapes
      · rcases sets.others m about with same | unit
        · exact .same same
        · exact .usable (unit.symm ▸ one)

/-- A usable style stays usable under all commands but those that escape. -/
theorem Style.Usable.restyle_iff (one : Scalar.isPositive (1 : α) = true) (usable : s.Usable)
    (job : Job α) (command : Command α) :
    (job.restyle s command).Usable ↔ s.escapes (.format command) = false := by
  constructor
  · intro still
    refine Bool.eq_false_iff.mpr fun escapes => ?_
    unfold Style.escapes at escapes
    split at escapes
    · next factor same =>
      cases same
      obtain ⟨taken, product⟩ := Bool.and_eq_true_iff.mp escapes
      have sizeFactor := still .sizeFactor
      rw [Job.restyle, Style.sizeFactor_relative taken] at sizeFactor
      rw [Bool.not_eq_true'] at product
      exact Bool.eq_false_iff.mp product sizeFactor
    · cases escapes
  · intro stays m
    cases job.leaves_restyle one s command m with
    | same same => exact same ▸ usable m
    | usable taken => exact taken
    | escaped escapes => exact (Bool.eq_false_iff.mp stays escapes).elim

/-! ## Token streams -/

theorem StyleStack.All.usable_formatted_iff (one : Scalar.isPositive (1 : α) = true)
    {f : Formatting α} (usable : f.styles.All Style.Usable) (job : Job α) (t : Token α) :
    (job.formatted f t).styles.All Style.Usable ↔ f.style.escapes t = false := by
  cases t with
  | format command =>
    show (job.apply f command).styles.All _ ↔ _
    have restyle := usable.active.restyle_iff one job command
    rw [job.styles_apply]
    constructor
    · intro still
      cases command with
      | groupOpen | groupClose => rfl
      | _ => exact restyle.mp still.active
    · exact fun stays => usable.restack command (restyle.mpr stays)
  | _ => exact iff_of_true usable rfl

theorem Job.usable_baseStyle (one : Scalar.isPositive (1 : α) = true) (job : Job α) :
    job.baseStyle.Usable := by
  have orOne (value : α) :
      Scalar.isPositive (if Scalar.isPositive value then value else 1) = true := by
    split
    · assumption
    · exact one
  intro m
  cases m with
  | size => exact orOne job.entity.height
  | widthFactor => exact orOne job.entity.widthFactor
  | sizeFactor | tracking => exact one

/-- Size, width factor and tracking are usable in all styles, whatever the stream asks for. -/
theorem Job.usable_but_sizeFactor (one : Scalar.isPositive (1 : α) = true) (job : Job α)
    (tokens : List (Token α)) :
    (job.passAfter tokens).formatting.styles.All fun s =>
      ∀ m, m ≠ .sizeFactor → Scalar.isPositive (s.measure m) = true := by
  refine job.styles_all (fun m _ => job.usable_baseStyle one m) ?_ tokens
  intro s command usable m other
  cases job.leaves_restyle one s command m with
  | same same => exact same ▸ usable m other
  | usable taken => exact taken
  | escaped escapes => exact (other rfl).elim

/-- All styles are usable, between any two tokens, until a relative height escapes. -/
theorem Job.usable_iff (one : Scalar.isPositive (1 : α) = true) (job : Job α)
    (tokens : List (Token α)) :
    (∀ earlier, earlier <+: tokens →
        (job.passAfter earlier).formatting.styles.All Style.Usable) ↔
      ∀ e ∈ job.styled tokens, e.1.escapes e.2 = false := by
  induction tokens using List.reverseRecOn with
  | nil =>
    refine iff_of_true (fun earlier start => ?_) (List.forall_mem_nil _)
    rw [List.prefix_nil.mp start]
    exact ⟨job.usable_baseStyle one, List.forall_mem_nil _⟩
  | append_singleton tokens t ih =>
    have step : (job.passAfter (tokens ++ [t])).formatting.styles =
        (job.formatted (job.passAfter tokens).formatting t).styles := by
      rw [job.passAfter_concat, Pass.styles_step]
    rw [job.styled_concat, List.forall_mem_append, List.forall_mem_singleton, ← ih]
    constructor
    · intro usable
      have before (earlier : List (Token α)) (start : earlier <+: tokens) :=
        usable earlier (start.trans (List.prefix_append tokens [t]))
      have after := usable (tokens ++ [t]) List.prefix_rfl
      rw [step] at after
      exact ⟨before, ((before tokens List.prefix_rfl).usable_formatted_iff one job t).mp after⟩
    · rintro ⟨before, stays⟩ earlier start
      rcases List.prefix_concat_iff.mp start with rfl | inside
      · rw [step]
        exact ((before tokens List.prefix_rfl).usable_formatted_iff one job t).mpr stays
      · exact before earlier inside

/-- What is usable after a stream, and what the next command makes of it. -/
structure Job.KeepsUsable (job : Job α) (tokens : List (Token α)) : Prop where
  /-- Size, width factor and tracking are usable, in the active style and in the saved ones. -/
  others : (job.passAfter tokens).formatting.styles.All fun s =>
    ∀ m, m ≠ .sizeFactor → Scalar.isPositive (s.measure m) = true
  /-- The product of the relative heights is too, exactly until one of them escapes. -/
  all : (∀ earlier, earlier <+: tokens →
      (job.passAfter earlier).formatting.styles.All Style.Usable) ↔
    ∀ e ∈ job.styled tokens, e.1.escapes e.2 = false
  /-- A command that asks for a value that is not usable leaves all styles as they were, unless it
  escapes. -/
  passedOver : ∀ command m value,
    job.asked? (job.passAfter tokens).style command = some (m, value) →
      Scalar.isPositive value = false →
      (job.passAfter tokens).style.escapes (.format command) = false →
      (job.passAfter (tokens ++ [.format command])).formatting.styles =
        (job.passAfter tokens).formatting.styles
  /-- A usable value is taken, -/
  taken : ∀ command m value,
    job.asked? (job.passAfter tokens).style command = some (m, value) →
      Scalar.isPositive value = true → m ≠ .sizeFactor →
      (job.passAfter (tokens ++ [.format command])).style.measure m = value
  /-- and so is any product of a relative height by a usable factor. -/
  multiplied : ∀ factor, Scalar.isPositive factor = true →
    (job.passAfter (tokens ++ [.format (.height (.relative factor))])).style.measure .sizeFactor =
      (job.passAfter tokens).style.sizeFactor * factor

/-- **Sizes and factors stay usable but for relative heights**, which test their factor and not the
product. -/
theorem Job.sizes_usable (job : Job Float) (tokens : List (Token Float)) :
    job.KeepsUsable tokens := by
  have one : Scalar.isPositive (1 : Float) = true := by decide
  have after (command : Command Float) :
      (job.passAfter (tokens ++ [.format command])).formatting.styles =
        job.restack (job.passAfter tokens).formatting.styles command := by
    rw [job.passAfter_concat, Pass.styles_step]
    exact job.styles_apply _ command
  refine ⟨job.usable_but_sizeFactor one tokens, job.usable_iff one tokens, ?_, ?_, ?_⟩
  · intro command m value asked unusable stays
    rw [after, Job.restack_of_asked asked]
    exact congrArg (StyleStack.mk · _) (Job.restyle_of_unusable asked unusable stays)
  · intro command m value asked usable other
    rw [Pass.style, Formatting.style, after, Job.restack_of_asked asked]
    exact Job.measure_restyle_of_usable asked usable other
  · intro factor usable
    rw [Pass.style, Formatting.style, after]
    exact Style.sizeFactor_relative usable _

/-- Two relative heights, each of them finite, whose product is not; neither is then the height of a
text. -/
theorem Job.relative_heights_overflow :
    let job : Job Float :=
      { fonts := BoxFonts.standard.source
        palette := fun _ => none
        colors := {}
        settings := Settings.standard
        entity := Entity.standard }
    let tokens : List (Token Float) :=
      [.format (.height (.relative 1e200)), .format (.height (.relative 1e200))]
    Scalar.isPositive ((job.passAfter tokens).style.measure .sizeFactor) = false ∧
      Scalar.isFinite (job.layout (tokens ++ [.word (.text "a")])).height = false := by
  decide +kernel

end Lettering
