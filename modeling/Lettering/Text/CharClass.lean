/-!
# Character classes

The classes of characters that a layout distinguishes: blanks, which have no
ink; control characters, which no font draws; and the letters that font names
fold.  `blankRanges` is the Unicode property `White_Space` and `isControl` the
general category `Cc`.
-/

namespace Lettering.Text

/-- The code points with the property `White_Space`, as closed ranges. -/
def blankRanges : List (Nat × Nat) :=
  [(0x09, 0x0D), (0x20, 0x20), (0x85, 0x85), (0xA0, 0xA0), (0x1680, 0x1680),
    (0x2000, 0x200A), (0x2028, 0x2029), (0x202F, 0x202F), (0x205F, 0x205F), (0x3000, 0x3000)]

/-- Whether a character is a blank. -/
def isBlank (c : Char) : Bool := blankRanges.any fun r => r.1 ≤ c.toNat && c.toNat ≤ r.2

/-- Whether a character is a control character. -/
def isControl (c : Char) : Bool := c.toNat < 0x20 || (0x7F ≤ c.toNat && c.toNat < 0xA0)

/-- Whether a text is empty or holds blanks only. -/
def isBlankText (s : String) : Bool := s.toList.all isBlank

/-- A text with the letters `A` to `Z` in lower case; no other character changes. -/
def foldCase (s : String) : String := String.ofList (s.toList.map Char.toLower)

end Lettering.Text
