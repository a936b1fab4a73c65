import Mathlib
import Lettering.Scalar.Binary64

/-!
# The order of binary64 numbers

The fields of a binary64 number stand in the order of their weight, first the sign, then the
exponent and then the mantissa.  So numbers compare as the integers do that their bits make with
their signs (`signedBits`, `le_iff`).  The key that tab stops are sorted by agrees with that order,
except that it tells the two zeros apart (`signedBits_mono`).
-/

namespace Lettering.Binary64

open Float.Model (UnpackedFloat)
open Float.Model.UnpackedFloat (Sign)

/-- Whether a value is a number, infinity included. -/
def IsNumber (x : Float) : Prop := x.toModel.unpack ≠ .notANumber

/-- The sign that a value is stored with. -/
def signOf (x : Float) : Sign := if x.toBits.toNat < 2 ^ 63 then .positive else .negative

/-- The bits of a value but for the sign. -/
def magnitudeBits (x : Float) : Nat := x.toBits.toNat % 2 ^ 63

/-- The integer that stands for a value among the others. -/
def signedBits (x : Float) : Int := (signOf x).apply (magnitudeBits x)

/-- The mantissa and the exponent that the bits of a finite number mean, with the implicit leading
bit unless the number is subnormal. -/
def Spread (bits mantissa : Nat) (exponent : Int) : Prop :=
  (bits < 2 ^ 52 ∧ mantissa = bits ∧ exponent = -1074) ∨
    (2 ^ 52 ≤ bits ∧ mantissa = 2 ^ 52 + bits % 2 ^ 52 ∧ exponent = (bits / 2 ^ 52 : Nat) - 1075)

/-- The numbers with their signs and their bits. -/
inductive Reads : UnpackedFloat → Sign → Nat → Prop
  | zero (sign : Sign) : Reads (.zero sign) sign 0
  | finite (sign : Sign) {bits mantissa : Nat} {exponent : Int} (pos : 0 < mantissa)
      (nonzero : 0 < bits) (below : bits < 2047 * 2 ^ 52)
      (spread : Spread bits mantissa exponent) :
      Reads (.finite sign mantissa exponent pos) sign bits
  | infinity (sign : Sign) : Reads (.infinity sign) sign (2047 * 2 ^ 52)

/-! ## Comparison -/

/-- Exponents and then mantissas come in the order of the bits. -/
theorem Spread.compare {m n mantissa mantissa' : Nat} {exponent exponent' : Int}
    (first : Spread m mantissa exponent) (second : Spread n mantissa' exponent') :
    (Ord.compare exponent exponent').then (Ord.compare mantissa mantissa') =
      Ord.compare (m : Int) n := by
  unfold Spread at first second
  rcases lt_trichotomy (m : Int) n with less | same | greater
  · have before : exponent < exponent' ∨ exponent = exponent' ∧ mantissa < mantissa' := by omega
    rwa [compare_lt_iff_lt.mpr less, Ordering.then_eq_lt, compare_lt_iff_lt, compare_eq_iff_eq,
      compare_lt_iff_lt]
  · have both : exponent = exponent' ∧ mantissa = mantissa' := by omega
    rwa [compare_eq_iff_eq.mpr same, Ordering.then_eq_eq, compare_eq_iff_eq, compare_eq_iff_eq]
  · have after : exponent' < exponent ∨ exponent = exponent' ∧ mantissa' < mantissa := by omega
    rwa [compare_gt_iff_gt.mpr greater, Ordering.then_eq_gt, compare_gt_iff_gt, compare_eq_iff_eq,
      compare_gt_iff_gt]

theorem compare_neg (i j : Int) : Ord.compare (-i) (-j) = (Ord.compare i j).swap := by
  rcases lt_trichotomy i j with less | same | greater
  · rw [compare_lt_iff_lt.mpr less, compare_gt_iff_gt.mpr (neg_lt_neg less), Ordering.swap_lt]
  · rw [compare_eq_iff_eq.mpr same, compare_eq_iff_eq.mpr (congrArg _ same), Ordering.swap_eq]
  · rw [compare_gt_iff_gt.mpr greater, compare_lt_iff_lt.mpr (neg_lt_neg greater), Ordering.swap_gt]

/-- Of two numbers, the sign of the one with the greater bits decides. -/
theorem compare_apply_of_lt {m n : Nat} (less : m < n) (s t : Sign) :
    Ord.compare (s.apply m) (t.apply n) = match t with
      | .positive => .lt
      | .negative => .gt := by
  cases t with
  | positive =>
    have before : s.apply m < n := by cases s <;> simp only [Sign.apply] <;> omega
    exact compare_lt_iff_lt.mpr before
  | negative =>
    have after : -(n : Int) < s.apply m := by cases s <;> simp only [Sign.apply] <;> omega
    exact compare_gt_iff_gt.mpr after

theorem compare_apply_of_gt {m n : Nat} (greater : n < m) (s t : Sign) :
    Ord.compare (s.apply m) (t.apply n) = match s with
      | .positive => .gt
      | .negative => .lt := by
  rw [Std.OrientedOrd.eq_swap, compare_apply_of_lt greater t s]
  cases s <;> rfl

/-- Numbers compare as their bits do, with their signs. -/
theorem Reads.compare {a b : UnpackedFloat} {s t : Sign} {m n : Nat} (first : Reads a s m)
    (second : Reads b t n) : a.compare b = some (Ord.compare (s.apply m) (t.apply n)) := by
  cases first with
  | zero =>
    cases second with
    | zero => cases s <;> cases t <;> rfl
    | finite _ _ nonzero =>
      rw [compare_apply_of_lt nonzero]
      cases t <;> rfl
    | infinity =>
      rw [compare_apply_of_lt (by decide)]
      cases t <;> rfl
  | finite _ _ nonzero below spread =>
    cases second with
    | zero =>
      rw [compare_apply_of_gt nonzero]
      cases s <;> rfl
    | finite _ _ nonzero' _ spread' =>
      have order := spread.compare spread'
      cases s with
      | positive =>
        cases t with
        | positive => exact congrArg some order
        | negative =>
          have after : -(n : Int) < m := by omega
          exact congrArg some (compare_gt_iff_gt.mpr after).symm
      | negative =>
        cases t with
        | positive =>
          have before : -(m : Int) < n := by omega
          exact congrArg some (compare_lt_iff_lt.mpr before).symm
        | negative => exact congrArg some ((congrArg _ order).trans (compare_neg _ _).symm)
    | infinity =>
      rw [compare_apply_of_lt below]
      cases t <;> rfl
  | infinity =>
    cases second with
    | zero =>
      rw [compare_apply_of_gt (by decide)]
      cases s <;> rfl
    | finite _ _ _ below =>
      rw [compare_apply_of_gt below]
      cases s <;> rfl
    | infinity => cases s <;> cases t <;> rfl

/-! ## Fields -/

theorem toNat_implicit (mantissa : BitVec 52) :
    (1#1 ++ mantissa).toNat = 2 ^ 52 + mantissa.toNat := by
  rw [BitVec.toNat_append, ← Nat.shiftLeft_add_eq_or_of_lt mantissa.isLt]
  rfl

/-- What the fields of a value mean. -/
def ofFields (sign : Sign) (exponent : BitVec 11) (mantissa : BitVec 52) : UnpackedFloat :=
  if exponent = -1#11 then
    if mantissa = 0#52 then .infinity sign else .notANumber
  else if exponent = 0#11 then
    if none : mantissa = 0#52 then .zero sign
    else .finite sign mantissa.toNat (exponent.toNat - (1023 + 52 : Int) + 1)
      (Nat.pos_of_ne_zero fun zero => none (BitVec.toNat_inj.mp zero))
  else .finite sign (1#1 ++ mantissa).toNat (exponent.toNat - (1023 + 52 : Int))
    (by rw [toNat_implicit]; omega)

theorem reads_ofFields {sign : Sign} {exponent : BitVec 11} {mantissa : BitVec 52}
    (number : ofFields sign exponent mantissa ≠ .notANumber) :
    Reads (ofFields sign exponent mantissa) sign (exponent.toNat * 2 ^ 52 + mantissa.toNat) := by
  have exponents := exponent.isLt
  have mantissas := mantissa.isLt
  unfold ofFields at number ⊢
  by_cases top : exponent = -1#11
  · rw [if_pos top] at number ⊢
    by_cases none : mantissa = 0#52
    · rw [if_pos none, none, top]
      exact .infinity sign
    · exact (number (if_neg none)).elim
  · rw [if_neg top]
    have finite : exponent.toNat ≠ 2047 := fun same => top (BitVec.toNat_inj.mp same)
    by_cases least : exponent = 0#11
    · rw [if_pos least]
      have zero : exponent.toNat = 0 := congrArg BitVec.toNat least
      by_cases none : mantissa = 0#52
      · rw [dif_pos none, none, least]
        exact .zero sign
      · rw [dif_neg none]
        have some : mantissa.toNat ≠ 0 := fun same => none (BitVec.toNat_inj.mp same)
        exact .finite sign _ (by omega) (by omega) (.inl ⟨by omega, by omega, by omega⟩)
    · rw [if_neg least]
      have positive : exponent.toNat ≠ 0 := fun same => least (BitVec.toNat_inj.mp same)
      have implicit := toNat_implicit mantissa
      exact .finite sign _ (by omega) (by omega) (.inr ⟨by omega, by omega, by omega⟩)

theorem ofBitVec_unpackSign (x : Float) :
    Sign.ofBitVec (@UnpackedFloat.unpackSign .binary64 x.toBits.toBitVec) = signOf x := by
  have small : x.toBits.toNat < 2 ^ 64 := x.toBits.toNat_lt
  have bit : (@UnpackedFloat.unpackSign .binary64 x.toBits.toBitVec).toNat =
      x.toBits.toNat / 2 ^ 63 := by
    simp only [UnpackedFloat.unpackSign, BitVec.toNat_cast, BitVec.extractLsb_toNat,
      UInt64.toNat_toBitVec, Nat.shiftRight_eq_div_pow]
    omega
  have positive : @UnpackedFloat.unpackSign .binary64 x.toBits.toBitVec = 0#1 ↔
      x.toBits.toNat < 2 ^ 63 := by
    rw [← BitVec.toNat_inj, bit, BitVec.toNat_ofNat]
    omega
  exact if_congr positive rfl rfl

/-- A number reads as the sign and the other bits that it is stored with. -/
theorem reads_unpack {x : Float} (number : IsNumber x) :
    Reads x.toModel.unpack (signOf x) (magnitudeBits x) := by
  let exponent : BitVec 11 := @UnpackedFloat.unpackExponent .binary64 x.toBits.toBitVec
  let mantissa : BitVec 52 := @UnpackedFloat.unpackMantissa .binary64 x.toBits.toBitVec
  have exponents : exponent.toNat = x.toBits.toNat / 2 ^ 52 % 2 ^ 11 := by
    simp [exponent, UnpackedFloat.unpackExponent, Nat.shiftRight_eq_div_pow]
  have mantissas : mantissa.toNat = x.toBits.toNat % 2 ^ 52 := by
    simp [mantissa, UnpackedFloat.unpackMantissa]
  have bits : magnitudeBits x = exponent.toNat * 2 ^ 52 + mantissa.toNat := by
    rw [exponents, mantissas, magnitudeBits]
    omega
  have fields : x.toModel.unpack = ofFields (signOf x) exponent mantissa := by
    rw [← ofBitVec_unpackSign]
    rfl
  unfold IsNumber at number
  rw [fields] at number ⊢
  rw [bits]
  exact reads_ofFields number

/-! ## Order -/

section Order

variable {x y : Float}

theorem compare_unpack (first : IsNumber x) (second : IsNumber y) :
    x.toModel.unpack.compare y.toModel.unpack =
      some (Ord.compare (signedBits x) (signedBits y)) :=
  (reads_unpack first).compare (reads_unpack second)

theorem lt_iff_compare : x < y ↔ x.toModel.unpack.compare y.toModel.unpack = some .lt :=
  decide_eq_true_iff.trans beq_iff_eq

theorem le_iff_compare :
    x ≤ y ↔ (x.toModel.unpack.compare y.toModel.unpack).any Ordering.isLE :=
  decide_eq_true_iff

theorem le_iff (first : IsNumber x) (second : IsNumber y) :
    x ≤ y ↔ signedBits x ≤ signedBits y := by
  rw [le_iff_compare, compare_unpack first second, Option.any_some, Std.isLE_compare]

theorem isNumber_of_le_self (self : x ≤ x) : IsNumber x := by
  intro none
  rw [le_iff_compare, none] at self
  cases self

/-- Only numbers stand after something. -/
theorem isNumber_of_lt (less : x < y) : IsNumber y := by
  intro none
  rw [lt_iff_compare, none] at less
  cases unpacked : x.toModel.unpack <;> rw [unpacked] at less <;> cases less

theorem orderKey_eq (x : Float) :
    (orderKey x : Int) = match signOf x with
      | .positive => 2 ^ 63 + magnitudeBits x
      | .negative => 2 ^ 63 - 1 - magnitudeBits x := by
  have small : x.toBits.toNat < 2 ^ 64 := x.toBits.toNat_lt
  unfold orderKey signOf magnitudeBits
  simp only [Nat.pow_eq]
  split <;> simp only <;> omega

/-- Numbers that are sorted by their keys ascend. -/
theorem signedBits_mono (sorted : orderKey x ≤ orderKey y) : signedBits x ≤ signedBits y := by
  have keys : (orderKey x : Int) ≤ orderKey y := Int.ofNat_le.mpr sorted
  rw [orderKey_eq, orderKey_eq] at keys
  unfold signedBits
  generalize signOf x = s at keys ⊢
  generalize signOf y = t at keys ⊢
  cases s <;> cases t <;> simp only [Sign.apply] at keys ⊢ <;> omega

end Order

end Lettering.Binary64
