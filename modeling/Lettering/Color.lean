/-!
# Colors

Colors by their three channels, and the requests that a drawing makes: a packed
true color, or an index into a palette.  Index 0 stands for the color of the
enclosing block and 256 for the color of the layer; both come from the caller.
-/

namespace Lettering

/-- An sRGB color. -/
structure Rgb where
  r : UInt8
  g : UInt8
  b : UInt8
deriving DecidableEq

namespace Rgb

def white : Rgb := ⟨255, 255, 255⟩

/-- The color `0xRRGGBB`; bits above the lower 24 are ignored. -/
def ofPacked (packed : UInt32) : Rgb :=
  ⟨(packed >>> 16).toUInt8, (packed >>> 8).toUInt8, packed.toUInt8⟩

/-- The number `0xRRGGBB` of a color. -/
def toPacked (c : Rgb) : UInt32 :=
  (c.r.toUInt32 <<< 16) ||| (c.g.toUInt32 <<< 8) ||| c.b.toUInt32

end Rgb

/-- The value of a hexadecimal digit in either case. -/
def hexDigit? (c : Char) : Option Nat :=
  if '0' ≤ c ∧ c ≤ '9' then some (c.toNat - '0'.toNat)
  else if 'a' ≤ c ∧ c ≤ 'f' then some (c.toNat - 'a'.toNat + 10)
  else if 'A' ≤ c ∧ c ≤ 'F' then some (c.toNat - 'A'.toNat + 10)
  else none

/-- The value of a row of hexadecimal digits, the empty row being zero. -/
def hexNumber? (digits : List Char) : Option Nat :=
  digits.foldlM (fun value c => (hexDigit? c).map (16 * value + ·)) 0

/-- A text without the one character `mark` that it may start with. -/
def dropMark (mark : Char) : List Char → List Char
  | c :: rest => if c = mark then rest else c :: rest
  | [] => []

/-- How many bytes a text takes. -/
def byteCount : List Char → Nat
  | c :: rest => c.utf8Size + byteCount rest
  | [] => 0

/-- The 32-bit number that hexadecimal digits write.  There must be a digit, and the number must
fit. -/
def hexWord? (digits : List Char) : Option UInt32 :=
  if digits.isEmpty then none
  else (hexNumber? digits).bind fun value =>
    if value < UInt32.size then some value.toUInt32 else none

/-- The color that six bytes of text name after an optional `#`: hexadecimal digits,
of which the first may give its place to a plus sign. -/
def Rgb.ofHex? (text : String) : Option Rgb :=
  let body := dropMark '#' text.toList
  if byteCount body = 6 then (hexWord? (dropMark '+' body)).map ofPacked else none

/-- A color as a drawing asks for it. -/
inductive ColorRequest where
  /-- An index; 0 is the block's color and 256 the layer's. -/
  | index (index : UInt16)
  /-- A packed true color. -/
  | rgb (packed : UInt32)
deriving DecidableEq

/-- A palette answers for the indices 1 to 255 that it knows. -/
abbrev Palette := UInt8 → Option Rgb

/-- The colors that stand for the reserved indices. -/
structure ReservedColors where
  byLayer : Rgb := .white
  byBlock : Rgb := .white
deriving DecidableEq

/-- The color that a request means.  An index that the palette does not know, or
that no palette has, means the layer's color. -/
def ReservedColors.resolve (colors : ReservedColors) (palette : Palette) : ColorRequest → Rgb
  | .rgb packed => .ofPacked packed
  | .index i =>
    if i = 0 then colors.byBlock
    else if i = 256 then colors.byLayer
    else if i < 256 then (palette i.toUInt8).getD colors.byLayer
    else colors.byLayer

end Lettering
