import Mathlib
import Lettering.Proofs.BlankWidths
import Lettering.Proofs.ExactArithmetic
import Lettering.Proofs.UsableSizes

/-!
# Positive sizes

In exact arithmetic a product of positive factors is positive, so that no relative height escapes
from a usable style (`Style.Usable.stays`).  Hence every style of every pass is usable
(`Job.styles_usable`): its size, its factors and the advance of its blanks are positive, and so are
those of the style in which the texts of a stack are shaped.
-/

namespace Lettering

variable {α : Type} [ExactScalar α] {s : Style α}

theorem FontKind.blankRatio_pos (kind : FontKind) : (0 : α) < kind.blankRatio := by
  cases kind <;> norm_num [FontKind.blankRatio]

/-! ## Usable styles -/

namespace Style.Usable

theorem size (usable : s.Usable) : 0 < s.size := Scalar.isPositive_iff.mp (usable .size)

theorem sizeFactor (usable : s.Usable) : 0 < s.sizeFactor :=
  Scalar.isPositive_iff.mp (usable .sizeFactor)

theorem widthFactor (usable : s.Usable) : 0 < s.widthFactor :=
  Scalar.isPositive_iff.mp (usable .widthFactor)

theorem tracking (usable : s.Usable) : 0 < s.tracking := Scalar.isPositive_iff.mp (usable .tracking)

theorem effectiveSize (usable : s.Usable) : 0 < s.effectiveSize :=
  mul_pos usable.size usable.sizeFactor

theorem blankWidth (usable : s.Usable) (fresh : s.Fresh) : 0 < s.blankWidth :=
  (mul_pos usable.effectiveSize s.fontKind.blankRatio_pos).trans_eq fresh.symm

theorem untracked (usable : s.Usable) : s.untracked.Usable := by
  intro m
  cases m with
  | tracking => exact Scalar.isPositive_one
  | size => exact usable .size
  | sizeFactor => exact usable .sizeFactor
  | widthFactor => exact usable .widthFactor

theorem script (usable : s.Usable) {scale : α} (enlarges : 0 < scale) :
    (s.script scale).Usable := by
  intro m
  cases m with
  | sizeFactor => exact Scalar.isPositive_iff.mpr (mul_pos usable.sizeFactor enlarges)
  | size => exact usable.untracked .size
  | widthFactor => exact usable.untracked .widthFactor
  | tracking => exact usable.untracked .tracking

/-- No relative height escapes from a usable style. -/
theorem stays (usable : s.Usable) (t : Token α) : s.escapes t = false := by
  unfold Style.escapes
  split
  · next factor =>
    rw [Bool.and_eq_false_iff, Bool.not_eq_false', ← Bool.not_eq_true]
    by_cases taken : Scalar.isPositive factor = true
    · have product := mul_pos usable.sizeFactor (Scalar.isPositive_iff.mp taken)
      exact .inr (Scalar.isPositive_iff.mpr product)
    · exact .inl taken
  · rfl

theorem restyle (usable : s.Usable) (job : Job α) (command : Command α) :
    (job.restyle s command).Usable :=
  (usable.restyle_iff Scalar.isPositive_one job command).mpr (usable.stays _)

end Style.Usable

/-! ## Whole streams -/

theorem Job.styles_usable (job : Job α) (tokens : List (Token α)) :
    (job.passAfter tokens).formatting.styles.All Style.Usable :=
  job.styles_all (job.usable_baseStyle Scalar.isPositive_one)
    (fun _ command usable => usable.restyle job command) tokens

theorem Job.style_usable (job : Job α) (tokens : List (Token α)) :
    (job.passAfter tokens).style.Usable :=
  (job.styles_usable tokens).active

/-- The advance of a blank is positive, and a blank moves the pen by it. -/
theorem Job.blankWidth_pos (job : Job α) (tokens : List (Token α)) :
    0 < (job.passAfter tokens).style.blankWidth :=
  (job.style_usable tokens).blankWidth (job.styles_fresh tokens).active

end Lettering
