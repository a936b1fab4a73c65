import Lettering.Proofs.Commands

/-!
# Blank widths

A style keeps the advance of a blank beside the font and the size that it is computed from.  A
command that changes one of these computes it anew (`Command.refreshes`); every other command leaves
the advance and all that it depends on alone, a height that is not taken included.

So the advance of a blank is that of the font and the size in force, in the active style and in
those that groups save and bring back (`Job.blanks_fresh`).  The factor on blanks stays one: no
command changes it (`Job.wordSpace_restyle`).
-/

namespace Lettering

variable {α : Type}

/-- The new value that a scale gives, or the factor. -/
def Scale.operand : Scale α → α
  | .absolute value => value
  | .relative factor => factor

variable [Scalar α]

/-- Whether a command computes the advance of a blank anew. -/
def Command.refreshes : Command α → Bool
  | .font .. => true
  | .height scale => Scalar.isPositive scale.operand
  | _ => false

/-- The advance of a blank is that of the size and the font in force. -/
def Style.Fresh (s : Style α) : Prop := s.blankWidth = s.effectiveSize * s.fontKind.blankRatio

/-- Two styles keep the same advance of a blank, and it depends on the same size and font. -/
structure Style.SameBlank (s t : Style α) : Prop where
  blankWidth : s.blankWidth = t.blankWidth
  effectiveSize : s.effectiveSize = t.effectiveSize
  fontKind : s.fontKind = t.fontKind

variable {job : Job α} {s : Style α} {command : Command α}

theorem Style.fresh_refreshBlank (s : Style α) : s.refreshBlank.Fresh := rfl

theorem Style.fresh_setHeight {scale : Scale α} (taken : Scalar.isPositive scale.operand = true) :
    (s.setHeight scale).Fresh := by
  cases scale <;>
  · rw [Scale.operand] at taken
    rw [Style.setHeight, if_pos taken]
    exact Style.fresh_refreshBlank _

theorem Style.setHeight_of_unusable {scale : Scale α}
    (unusable : Scalar.isPositive scale.operand = false) : s.setHeight scale = s := by
  cases scale <;>
  · rw [Scale.operand] at unusable
    rw [Style.setHeight, if_neg (Bool.eq_false_iff.mp unusable)]

theorem Job.fresh_restyle (refreshes : command.refreshes = true) :
    (job.restyle s command).Fresh := by
  cases command with
  | font name bold italic => exact Style.fresh_refreshBlank _
  | height scale => exact Style.fresh_setHeight refreshes
  | _ => cases refreshes

theorem Job.sameBlank_restyle (keeps : command.refreshes = false) :
    (job.restyle s command).SameBlank s := by
  have either {taken : Bool} {t : Style α} (same : t.SameBlank s) :
      (if taken then t else s).SameBlank s := by
    split
    · exact same
    · exact ⟨rfl, rfl, rfl⟩
  cases command with
  | font name bold italic => cases keeps
  | height scale =>
    rw [Job.restyle, Style.setHeight_of_unusable keeps]
    exact ⟨rfl, rfl, rfl⟩
  | widthFactor | tracking | oblique => exact either ⟨rfl, rfl, rfl⟩
  | _ => exact ⟨rfl, rfl, rfl⟩

theorem Style.Fresh.restyle (fresh : s.Fresh) (job : Job α) (command : Command α) :
    (job.restyle s command).Fresh := by
  cases refreshes : command.refreshes with
  | true => exact Job.fresh_restyle refreshes
  | false =>
    have same : (job.restyle s command).SameBlank s := Job.sameBlank_restyle refreshes
    calc (job.restyle s command).blankWidth
        = s.blankWidth := same.blankWidth
      _ = s.effectiveSize * s.fontKind.blankRatio := fresh
      _ = (job.restyle s command).effectiveSize * (job.restyle s command).fontKind.blankRatio := by
        rw [same.effectiveSize, same.fontKind]

theorem Job.styles_fresh (job : Job α) (tokens : List (Token α)) :
    (job.passAfter tokens).formatting.styles.All Style.Fresh :=
  job.styles_all (Style.fresh_refreshBlank _) (fun _ command fresh => fresh.restyle job command)
    tokens

/-- **The advance of a blank is never stale**, in the active style and in all that groups saved:
after every token, and when the last line is closed. -/
theorem Job.blanks_fresh (job : Job α) (tokens : List (Token α)) :
    (job.passAfter tokens).formatting.styles.All Style.Fresh ∧
      ((job.passAfter tokens).flush job).formatting.styles.All Style.Fresh := by
  have fresh := job.styles_fresh tokens
  refine ⟨fresh, ?_⟩
  unfold Pass.flush
  split
  · exact fresh
  · exact fresh

/-! ## The factor on blanks -/

theorem Job.wordSpace_restyle (job : Job α) (s : Style α) (command : Command α) :
    (job.restyle s command).wordSpace = s.wordSpace := by
  -- A setter gives the same factor whether its test passes or not.
  cases command with
  | height scale => cases scale <;> exact (apply_ite Style.wordSpace _ _ _).trans (ite_self _)
  | widthFactor | tracking | oblique => exact (apply_ite Style.wordSpace _ _ _).trans (ite_self _)
  | _ => rfl

theorem Job.wordSpace_passAfter (job : Job α) (tokens : List (Token α)) :
    (job.passAfter tokens).style.wordSpace = 1 :=
  (job.styles_all (P := fun s => s.wordSpace = 1) rfl
    (fun s command one => (job.wordSpace_restyle s command).trans one) tokens).active

end Lettering
