import Lettering.Color

/-!
# The standard palette

Indices 1 to 9 are fixed colors and 250 to 255 a ramp of grays.  Indices 10 to
249 are 24 hues, 15 degrees apart, of ten shades each: the last digit of the
index selects one of five levels, saturated fully where it is even and half
where it is odd.  A hue lies in one of six sectors of 60 degrees, at a whole
number of quarters from the start of its sector, so every channel is a fraction
with denominator 8 of its level, and is rounded down.
-/

namespace Lettering.StandardPalette

/-- The colors of the indices 1 to 9. -/
def fixed : List Rgb :=
  [⟨255, 0, 0⟩, ⟨255, 255, 0⟩, ⟨0, 255, 0⟩, ⟨0, 255, 255⟩, ⟨0, 0, 255⟩, ⟨255, 0, 255⟩,
    ⟨255, 255, 255⟩, ⟨65, 65, 65⟩, ⟨128, 128, 128⟩]

/-- The gray levels of the indices 250 to 255. -/
def grays : List UInt8 := [51, 80, 105, 130, 190, 255]

/-- The brightest channel of each of the five levels. -/
def levels : List Nat := [255, 165, 127, 76, 38]

/-- A shade: `hue` counts steps of 15 degrees, `level` is the brightest channel,
and `saturation` counts halves. -/
def shade (hue saturation level : Nat) : Rgb :=
  let quarters := hue % 4
  let channel (loss : Nat) : UInt8 := (level * (8 - saturation * loss) / 8).toUInt8
  let full := channel 0
  let least := channel 4
  let falling := channel quarters
  let rising := channel (4 - quarters)
  match hue / 4 % 6 with
  | 0 => ⟨full, rising, least⟩
  | 1 => ⟨falling, full, least⟩
  | 2 => ⟨least, full, rising⟩
  | 3 => ⟨least, falling, full⟩
  | 4 => ⟨rising, least, full⟩
  | _ => ⟨full, least, falling⟩

/-- The color of an index; index 0 is reserved. -/
def color (index : UInt8) : Option Rgb :=
  let n := index.toNat
  if n < 10 then if n = 0 then none else fixed[n - 1]?
  else if n < 250 then
    (levels[n % 10 / 2]?).map fun level =>
      shade (n / 10 - 1) (if n % 2 = 0 then 2 else 1) level
  else (grays[n - 250]?).map fun gray => ⟨gray, gray, gray⟩

end Lettering.StandardPalette

namespace Lettering

/-- The standard palette of 255 colors. -/
def Palette.standard : Palette := StandardPalette.color

end Lettering
