import Lettering.Decimal.Positional
import Lettering.Json

/-!
# Writing JSON text

JSON text in ASCII without blanks.  A number that is not finite has no JSON form and
is written as `null`, as is what cannot be read.
-/

namespace Lettering.Json

/-- A number below 65536 as an escape of four hexadecimal digits. -/
def hexEscape (unit : Nat) : String :=
  let digits := Nat.toDigits 16 unit
  "\\u" ++ String.ofList (List.replicate (4 - digits.length) '0' ++ digits)

/-- A character between quotes; above U+FFFF as a surrogate pair. -/
def escapeChar (c : Char) : String :=
  if c = '"' then "\\\""
  else if c = '\\' then "\\\\"
  else if 0x20 ≤ c.toNat ∧ c.toNat < 0x7F then c.toString
  else if c.toNat < 0x10000 then hexEscape c.toNat
  else
    let offset := c.toNat - 0x10000
    hexEscape (0xD800 + offset / 0x400) ++ hexEscape (0xDC00 + offset % 0x400)

/-- A text in quotes. -/
def quote (s : String) : String := "\"" ++ String.join (s.toList.map escapeChar) ++ "\""

/-- A number. -/
def numberText (x : Float) : String := if x.isFinite then Decimal.ofFloat x else "null"

mutual

/-- The text of a value. -/
def render : Json Float → String
  | .null => "null"
  | .bool true => "true"
  | .bool false => "false"
  | .int n => Int.repr n
  | .float x => numberText x
  | .str s => quote s
  | .arr items => "[" ++ ",".intercalate (renderItems items) ++ "]"
  | .obj members => "\x7b" ++ ",".intercalate (renderMembers members) ++ "\x7d"
  | .unreadable => "null"

/-- The texts of the items of an array. -/
def renderItems : List (Json Float) → List String
  | [] => []
  | j :: rest => render j :: renderItems rest

/-- The texts of the members of an object. -/
def renderMembers : List (String × Json Float) → List String
  | [] => []
  | (name, j) :: rest => (quote name ++ ":" ++ render j) :: renderMembers rest

end

end Lettering.Json
