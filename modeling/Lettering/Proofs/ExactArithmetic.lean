import Mathlib
import Lettering.Scalar

/-!
# Exact arithmetic

The scalars of an ordered field with a floor: the operations of a layout are those of the field,
every value is finite, and tab stops are sorted by their order.  Nothing is assumed of the
functions of angles, and of the bound of an empty extent only that it is positive.  The real
numbers are an instance.
-/

namespace Lettering

/-- Numbers that a layout can be computed with exactly. -/
class ExactScalar (α : Type) extends Field α, LinearOrder α, IsStrictOrderedRing α,
    FloorRing α where
  /-- The bound that an empty extent stores below; its negative is stored above. -/
  infinity : α
  infinity_pos : 0 < infinity
  sin : α → α
  cos : α → α
  tan : α → α
  atan2 : α → α → α
  hypot : α → α → α

instance ExactScalar.toScalar {α : Type} [ExactScalar α] : Scalar α where
  beq a b := decide (a = b)
  ofInt n := n
  floor a := ⌊a⌋
  isFinite _ := true
  infinity := ExactScalar.infinity
  precedes a b := decide (a ≤ b)
  sin := ExactScalar.sin
  cos := ExactScalar.cos
  tan := ExactScalar.tan
  atan2 := ExactScalar.atan2
  hypot := ExactScalar.hypot

noncomputable instance : ExactScalar ℝ where
  infinity := 1
  infinity_pos := one_pos
  sin := Real.sin
  cos := Real.cos
  tan := Real.tan
  atan2 y x := Complex.arg ⟨x, y⟩
  hypot x y := √(x ^ 2 + y ^ 2)

namespace Scalar

variable {α : Type} [ExactScalar α]

theorem lesser_eq_min (a b : α) : lesser a b = min a b := by
  rw [lesser, if_pos (le_refl a), min_comm, min_def_lt]

theorem greater_eq_max (a b : α) : greater a b = max a b := by
  rw [greater, if_pos (le_refl a), max_def_lt]

theorem foldl_greater_map {f : α → α} (mono : Monotone f) (a : α) (terms : List α) :
    (terms.map f).foldl greater (f a) = f (terms.foldl greater a) := by
  rw [List.foldl_map]
  refine List.foldl_hom f fun b c => ?_
  rw [greater_eq_max, greater_eq_max, mono.map_max]

theorem half_eq_div_two (a : α) : half a = a / 2 := by
  rw [half]
  norm_num [div_eq_mul_inv]

theorem isPositive_iff {a : α} : isPositive a = true ↔ 0 < a :=
  decide_eq_true_iff

theorem isPositive_one : isPositive (1 : α) = true := isPositive_iff.mpr one_pos

theorem sum_eq_sum (terms : List α) : sum terms = terms.sum := by
  rw [sum, List.sum_eq_foldl]

end Scalar

end Lettering
