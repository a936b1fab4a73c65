import Mathlib
import Lettering.Color

/-!
# Hexadecimal colors

A color is written as six hexadecimal digits, two for each channel (`Rgb.Written`), with or without
a `#` before them (`Rgb.Spells`).

What is read is more than that.  The six bytes behind the `#` go through a reader of numbers that
takes a sign, so that a plus sign may stand in the place of a zero that comes first
(`Rgb.SpellsSigned`, `Rgb.plus_read`).  `Rgb.ofHex?_eq_some_iff` says that nothing else is read:
not with fewer digits, with another sign, with a second `#` or with characters that take more than
one byte.

`Rgb.written_iff` ties the digits of a color to the one number that they are read as.
-/

namespace Lettering

/-- The character `c` is the hexadecimal digit of value `v`, in either case. -/
def IsHexDigit (c : Char) (v : Nat) : Prop :=
  v < 16 ∧ (c = v.digitChar ∨ c = v.digitChar.toUpper)

instance (c : Char) (v : Nat) : Decidable (IsHexDigit c v) := inferInstanceAs (Decidable (_ ∧ _))

/-- Two hexadecimal digits write the value of a channel. -/
def WritesByte (c d : Char) (byte : UInt8) : Prop :=
  ∃ v w, IsHexDigit c v ∧ IsHexDigit d w ∧ byte.toNat = 16 * v + w

/-- The color is written in six hexadecimal digits. -/
def Rgb.Written (c : Rgb) (text : List Char) : Prop :=
  ∃ d₁ d₂ d₃ d₄ d₅ d₆, text = [d₁, d₂, d₃, d₄, d₅, d₆] ∧
    WritesByte d₁ d₂ c.r ∧ WritesByte d₃ d₄ c.g ∧ WritesByte d₅ d₆ c.b

/-- The text is the color in six digits, behind a `#` or without it. -/
def Rgb.Spells (c : Rgb) (text : String) : Prop :=
  c.Written text.toList ∨ ∃ body, text.toList = '#' :: body ∧ c.Written body

/-- The text is the color in six digits of which the first is a zero, with a plus sign in the place
of that zero. -/
def Rgb.SpellsSigned (c : Rgb) (text : String) : Prop :=
  ∃ digits, (text.toList = '+' :: digits ∨ text.toList = '#' :: '+' :: digits) ∧
    c.Written ('0' :: digits)

/-! ## Digits -/

theorem toNat_le_of_char_le {c d : Char} (le : c ≤ d) : c.toNat ≤ d.toNat :=
  UInt32.le_iff_toNat_le.mp (Char.le_def.mp le)

theorem hexDigit?_bounds {c : Char} {v : Nat} (digit : hexDigit? c = some v) :
    v < 16 ∧ c.toNat < 128 := by
  have nine : '9'.toNat = 57 := rfl
  have lower : 'a'.toNat = 97 ∧ 'f'.toNat = 102 := ⟨rfl, rfl⟩
  have upper : 'A'.toNat = 65 ∧ 'F'.toNat = 70 := ⟨rfl, rfl⟩
  unfold hexDigit? at digit
  split_ifs at digit with decimal small capital
  · have last := toNat_le_of_char_le decimal.2
    cases digit
    have first : '0'.toNat = 48 := rfl
    omega
  · have last := toNat_le_of_char_le small.2
    cases digit
    omega
  · have last := toNat_le_of_char_le capital.2
    cases digit
    omega

theorem hexDigit?_eq_some_iff {c : Char} {v : Nat} : hexDigit? c = some v ↔ IsHexDigit c v := by
  constructor
  · intro digit
    have table : ∀ n < 128, ∀ v < 16,
        hexDigit? (Char.ofNat n) = some v → IsHexDigit (Char.ofNat n) v := by decide +kernel
    obtain ⟨small, ascii⟩ := hexDigit?_bounds digit
    have row := table c.toNat ascii v small
    rw [Char.ofNat_toNat] at row
    exact row digit
  · rintro ⟨small, shape⟩
    have table : ∀ v < 16, hexDigit? v.digitChar = some v ∧
        hexDigit? v.digitChar.toUpper = some v := by decide
    rcases shape with rfl | rfl
    · exact (table v small).1
    · exact (table v small).2

/-! ## Numbers -/

/-- The number that hexadecimal digits write behind digits of value `start`. -/
def hexNumberFrom? (start : Nat) (digits : List Char) : Option Nat :=
  digits.foldlM (fun value c => (hexDigit? c).map (16 * value + ·)) start

theorem hexNumberFrom?_cons (start : Nat) (c : Char) (rest : List Char) :
    hexNumberFrom? start (c :: rest) =
      (hexDigit? c).bind fun v => hexNumberFrom? (16 * start + v) rest := by
  rw [hexNumberFrom?, List.foldlM_cons]
  cases hexDigit? c <;> rfl

variable {start n : Nat} {digits : List Char}

theorem hexNumberFrom?_lt (read : hexNumberFrom? start digits = some n) :
    n < (start + 1) * 16 ^ digits.length := by
  induction digits generalizing start with
  | nil =>
    cases read
    simp
  | cons c rest ih =>
    rw [hexNumberFrom?_cons, Option.bind_eq_some_iff] at read
    obtain ⟨v, digit, later⟩ := read
    have small : 16 * start + v + 1 ≤ (start + 1) * 16 := by
      have := (hexDigit?_bounds digit).1
      omega
    calc n < (16 * start + v + 1) * 16 ^ rest.length := ih later
      _ ≤ (start + 1) * 16 * 16 ^ rest.length := Nat.mul_le_mul_right _ small
      _ = (start + 1) * 16 ^ (c :: rest).length := by rw [List.length_cons, pow_succ']; ring

/-- Hexadecimal digits take one byte each. -/
theorem hexNumberFrom?_byteCount (read : hexNumberFrom? start digits = some n) :
    byteCount digits = digits.length := by
  induction digits generalizing start with
  | nil => rfl
  | cons c rest ih =>
    rw [hexNumberFrom?_cons, Option.bind_eq_some_iff] at read
    obtain ⟨v, digit, later⟩ := read
    have byte : c.utf8Size = 1 := by
      rw [Char.utf8Size_eq_one_iff, UInt32.le_iff_toNat_le]
      exact Nat.le_of_lt_succ (hexDigit?_bounds digit).2
    rw [byteCount, byte, ih later, List.length_cons, add_comm]

/-! ## Colors -/

/-- The number that the digits of a color write. -/
def Rgb.number (c : Rgb) : Nat := 65536 * c.r.toNat + 256 * c.g.toNat + c.b.toNat

theorem Rgb.number_lt (c : Rgb) : c.number < 2 ^ 24 := by
  have r := c.r.toNat_lt
  have g := c.g.toNat_lt
  have b := c.b.toNat_lt
  unfold Rgb.number
  omega

theorem Rgb.ofPacked_eq_iff {c : Rgb} (small : n < 2 ^ 24) :
    Rgb.ofPacked n.toUInt32 = c ↔ n = c.number := by
  have red : (n.toUInt32 >>> 16).toUInt8.toNat = n / 65536 := by
    simp [Nat.shiftRight_eq_div_pow]
    omega
  have green : (n.toUInt32 >>> 8).toUInt8.toNat = n / 256 % 256 := by
    simp [Nat.shiftRight_eq_div_pow]
    omega
  have blue : n.toUInt32.toUInt8.toNat = n % 256 := by
    simp
  constructor
  · rintro rfl
    simp only [Rgb.number, Rgb.ofPacked, red, green, blue]
    omega
  · intro same
    have r := c.r.toNat_lt
    have g := c.g.toNat_lt
    have b := c.b.toNat_lt
    unfold Rgb.number at same
    obtain ⟨r', g', b'⟩ := c
    rw [Rgb.ofPacked, Rgb.mk.injEq, ← UInt8.toNat_inj, ← UInt8.toNat_inj, ← UInt8.toNat_inj, red,
      green, blue]
    dsimp only at same r g b
    omega

/-- Six digits write a color as they write its number. -/
theorem Rgb.written_iff {c : Rgb} {text : List Char} :
    c.Written text ↔ text.length = 6 ∧ hexNumber? text = some c.number := by
  constructor
  · rintro ⟨d₁, d₂, d₃, d₄, d₅, d₆, rfl, ⟨v₁, v₂, h₁, h₂, r⟩, ⟨v₃, v₄, h₃, h₄, g⟩,
      ⟨v₅, v₆, h₅, h₆, b⟩⟩
    rw [← hexDigit?_eq_some_iff] at h₁ h₂ h₃ h₄ h₅ h₆
    refine ⟨rfl, ?_⟩
    show hexNumberFrom? 0 _ = _
    simp only [hexNumberFrom?_cons, h₁, h₂, h₃, h₄, h₅, h₆, Option.bind_some]
    refine congrArg some ?_
    unfold Rgb.number
    omega
  · rintro ⟨six, read⟩
    obtain ⟨d₁, d₂, d₃, d₄, d₅, d₆, rfl⟩ : ∃ d₁ d₂ d₃ d₄ d₅ d₆, text = [d₁, d₂, d₃, d₄, d₅, d₆] :=
      match text, six with
      | [_, _, _, _, _, _], _ => ⟨_, _, _, _, _, _, rfl⟩
    change hexNumberFrom? 0 _ = _ at read
    simp only [hexNumberFrom?_cons, Option.bind_eq_some_iff] at read
    obtain ⟨v₁, h₁, v₂, h₂, v₃, h₃, v₄, h₄, v₅, h₅, v₆, h₆, total⟩ := read
    have total : 16 * (16 * (16 * (16 * (16 * (16 * 0 + v₁) + v₂) + v₃) + v₄) + v₅) + v₆ =
        c.number := Option.some.inj total
    have b₁ := (hexDigit?_bounds h₁).1
    have b₂ := (hexDigit?_bounds h₂).1
    have b₃ := (hexDigit?_bounds h₃).1
    have b₄ := (hexDigit?_bounds h₄).1
    have b₅ := (hexDigit?_bounds h₅).1
    have b₆ := (hexDigit?_bounds h₆).1
    have r := c.r.toNat_lt
    have g := c.g.toNat_lt
    have b := c.b.toNat_lt
    unfold Rgb.number at total
    rw [hexDigit?_eq_some_iff] at h₁ h₂ h₃ h₄ h₅ h₆
    exact ⟨d₁, d₂, d₃, d₄, d₅, d₆, rfl, ⟨v₁, v₂, h₁, h₂, by omega⟩, ⟨v₃, v₄, h₃, h₄, by omega⟩,
      ⟨v₅, v₆, h₅, h₆, by omega⟩⟩

/-! ## Texts -/

theorem dropMark_iff {P : List Char → Prop} {mark : Char} (unmarked : ∀ body, ¬ P (mark :: body))
    (text : List Char) :
    P (dropMark mark text) ↔ P text ∨ ∃ body, text = mark :: body ∧ P body := by
  cases text with
  | nil => simp [dropMark]
  | cons c rest =>
    rw [dropMark]
    split
    · next marked =>
      subst marked
      constructor
      · exact fun behind => .inr ⟨rest, rfl, behind⟩
      · rintro (whole | ⟨body, same, behind⟩)
        · exact (unmarked rest whole).elim
        · cases same
          exact behind
    · next other =>
      constructor
      · exact .inl
      · rintro (whole | ⟨body, same, -⟩)
        · exact whole
        · cases same
          exact (other rfl).elim

theorem Rgb.not_written_mark {c : Rgb} {mark : Char} (other : hexDigit? mark = none)
    (rest : List Char) : ¬ c.Written (mark :: rest) := by
  intro written
  have read : hexNumberFrom? 0 (mark :: rest) = some c.number := (Rgb.written_iff.mp written).2
  rw [hexNumberFrom?_cons, other] at read
  cases read

/-- A zero that comes first adds a digit and nothing else. -/
theorem Rgb.written_zero_iff {c : Rgb} :
    c.Written ('0' :: digits) ↔ digits.length = 5 ∧ hexNumber? digits = some c.number := by
  have same : hexNumber? ('0' :: digits) = hexNumber? digits := hexNumberFrom?_cons 0 '0' digits
  rw [Rgb.written_iff, same, List.length_cons, Nat.succ_inj]

/-- A row of at most six bytes is read as a color exactly if it is as many digits, and these write
the number of the color.  Whatever is a number has as many digits as bytes, so that a count of bytes
refuses no color. -/
theorem Rgb.ofDigits_eq_some_iff {c : Rgb} {bytes : Nat} (filled : 0 < bytes) (few : bytes ≤ 6) :
    (byteCount digits = bytes ∧ (hexWord? digits).map ofPacked = some c) ↔
      digits.length = bytes ∧ hexNumber? digits = some c.number := by
  constructor
  · rintro ⟨size, read⟩
    obtain ⟨word, read, same⟩ := Option.map_eq_some_iff.mp read
    rw [hexWord?, Option.ite_none_left_eq_some] at read
    obtain ⟨n, number, fits⟩ := Option.bind_eq_some_iff.mp read.2
    have length : digits.length = bytes := (hexNumberFrom?_byteCount number).symm.trans size
    have small : n < 2 ^ 24 :=
      calc n < (0 + 1) * 16 ^ digits.length := hexNumberFrom?_lt number
        _ = 16 ^ digits.length := by rw [zero_add, one_mul]
        _ ≤ 16 ^ 6 := Nat.pow_le_pow_right (by decide) (length ▸ few)
        _ = 2 ^ 24 := by norm_num
    rw [if_pos (small.trans (by decide))] at fits
    cases fits
    exact ⟨length, number.trans (congrArg _ ((Rgb.ofPacked_eq_iff small).mp same))⟩
  · rintro ⟨length, number⟩
    have some : ¬ digits.isEmpty = true := by
      rw [List.isEmpty_iff_length_eq_zero, length]
      exact filled.ne'
    refine ⟨(hexNumberFrom?_byteCount number).trans length, Option.map_eq_some_iff.mpr
      ⟨c.number.toUInt32, ?_, (Rgb.ofPacked_eq_iff c.number_lt).mpr rfl⟩⟩
    rw [hexWord?, if_neg some, number, Option.bind_some, if_pos (c.number_lt.trans (by decide))]

/-- The color in six digits, or in five of them behind a plus sign that stands for a zero. -/
def Rgb.WrittenOrSigned (c : Rgb) (body : List Char) : Prop :=
  c.Written body ∨ ∃ digits, body = '+' :: digits ∧ c.Written ('0' :: digits)

theorem Rgb.writtenOrSigned_plus {c : Rgb} :
    c.WrittenOrSigned ('+' :: digits) ↔ c.Written ('0' :: digits) := by
  constructor
  · rintro (written | ⟨_, ⟨⟩, written⟩)
    · exact (Rgb.not_written_mark rfl digits written).elim
    · exact written
  · exact fun written => .inr ⟨digits, rfl, written⟩

theorem Rgb.ofBody_eq_some_iff {c : Rgb} {body : List Char} :
    (if byteCount body = 6 then (hexWord? (dropMark '+' body)).map ofPacked else none) = some c ↔
      c.WrittenOrSigned body := by
  rw [Option.ite_none_right_eq_some]
  by_cases signed : ∃ digits, body = '+' :: digits
  · obtain ⟨digits, rfl⟩ := signed
    have bytes : byteCount ('+' :: digits) = 6 ↔ byteCount digits = 5 := by
      rw [byteCount, show Char.utf8Size '+' = 1 from rfl]
      omega
    rw [dropMark, if_pos rfl, bytes, Rgb.writtenOrSigned_plus, Rgb.written_zero_iff]
    exact Rgb.ofDigits_eq_some_iff (by decide) (by decide)
  · have whole : dropMark '+' body = body := by
      cases body with
      | nil => rfl
      | cons d rest =>
        refine if_neg ?_
        rintro rfl
        exact signed ⟨rest, rfl⟩
    have plain : c.WrittenOrSigned body ↔ c.Written body :=
      or_iff_left fun ⟨digits, same, _⟩ => signed ⟨digits, same⟩
    rw [whole, plain, Rgb.written_iff]
    exact Rgb.ofDigits_eq_some_iff (by decide) le_rfl

/-- **A text is read as a color exactly if it spells the color**, or spells it with a plus sign in
the place of a zero that comes first.  Every other text is refused. -/
theorem Rgb.ofHex?_eq_some_iff (text : String) (c : Rgb) :
    Rgb.ofHex? text = some c ↔ c.Spells text ∨ c.SpellsSigned text := by
  have unmarked (body : List Char) : ¬ c.WrittenOrSigned ('#' :: body) := by
    rintro (written | ⟨_, ⟨⟩, _⟩)
    exact Rgb.not_written_mark rfl body written
  have marked : Rgb.ofHex? text = some c ↔ c.WrittenOrSigned (dropMark '#' text.toList) :=
    Rgb.ofBody_eq_some_iff
  rw [marked, dropMark_iff unmarked]
  constructor
  · rintro ((written | ⟨digits, signed, zero⟩) | ⟨body, mark, written | ⟨digits, rfl, zero⟩⟩)
    · exact .inl (.inl written)
    · exact .inr ⟨digits, .inl signed, zero⟩
    · exact .inl (.inr ⟨body, mark, written⟩)
    · exact .inr ⟨digits, .inr mark, zero⟩
  · rintro ((written | ⟨body, mark, written⟩) | ⟨digits, signed | mark, zero⟩)
    · exact .inl (.inl written)
    · exact .inr ⟨body, mark, .inl written⟩
    · exact .inl (.inr ⟨digits, signed, zero⟩)
    · exact .inr ⟨'+' :: digits, mark, .inr ⟨digits, rfl, zero⟩⟩

/-- A plus sign is read as if it were the digit zero. -/
theorem Rgb.plus_read :
    Rgb.ofHex? "+12345" = some ⟨0x01, 0x23, 0x45⟩ ∧ ∀ c : Rgb, ¬ c.Spells "+12345" := by
  have text : "+12345".toList = ['+', '1', '2', '3', '4', '5'] := by decide
  refine ⟨by decide, fun c spells => ?_⟩
  rw [Rgb.Spells, text] at spells
  rcases spells with written | ⟨body, ⟨⟩, -⟩
  exact Rgb.not_written_mark rfl _ written

end Lettering
