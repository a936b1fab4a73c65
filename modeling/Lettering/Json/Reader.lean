import Lettering.Color
import Lettering.Json
import Lettering.Scalar

/-!
# Reading JSON text

A text is read in two folds.  `Lexer` goes through the characters and cuts the text
into lexemes; `Machine` goes through the lexemes and keeps the brackets that are
open.  Both know at every step what may come next, so a text that breaks the
grammar is refused at the first character that does.  The grammar is the strict
one: no comments, no trailing commas, no leading zeros.
-/

namespace Lettering.Json

/-! ## Lexemes -/

/-- A smallest piece of a JSON text. -/
inductive Lexeme (α : Type) where
  | openArray
  | closeArray
  | openObject
  | closeObject
  | comma
  | colon
  /-- A text, `none` if it has half a surrogate pair. -/
  | text (s : Option String)
  /-- A number, or `null`, `true` or `false`. -/
  | literal (j : Json α)

/-- The text of a list of code points and UTF-16 surrogates, `none` if a surrogate
has no partner. -/
def joinSurrogates : List Nat → Option (List Char)
  | [] => some []
  | u :: rest =>
    if 0xD800 ≤ u ∧ u < 0xDC00 then
      match rest with
      | v :: more =>
        if 0xDC00 ≤ v ∧ v < 0xE000 then
          (joinSurrogates more).map
            (Char.ofNat (0x10000 + (u - 0xD800) * 0x400 + (v - 0xDC00)) :: ·)
        else none
      | [] => none
    else if 0xDC00 ≤ u ∧ u < 0xE000 then none
    else (joinSurrogates rest).map (Char.ofNat u :: ·)

/-- The value of a row of decimal digits. -/
def decimalValue (digits : List Char) : Nat :=
  digits.foldl (fun value c => 10 * value + (c.toNat - '0'.toNat)) 0

/-- The digits at the start of a text, and the rest. -/
def digitsOf (cs : List Char) : List Char × List Char :=
  (cs.takeWhile Char.isDigit, cs.dropWhile Char.isDigit)

/-- Splits a mark off the start of a text. -/
def split? (marks : List Char) : List Char → Option (List Char)
  | [] => none
  | c :: rest => if marks.contains c then some rest else none

/-- The digits of a fraction, none at all where no point stands; `none` if a point
has no digit after it. -/
def fractionOf (cs : List Char) : Option (List Char × List Char) :=
  match split? ['.'] cs with
  | none => some ([], cs)
  | some rest => if (digitsOf rest).1.isEmpty then none else some (digitsOf rest)

/-- The exponent that ends a number; `none` if something else stands there. -/
def exponentOf (cs : List Char) : Option Int :=
  match cs, split? ['e', 'E'] cs with
  | [], _ => some 0
  | _, none => none
  | _, some rest =>
    let digits := digitsOf ((split? ['+', '-'] rest).getD rest)
    if digits.1.isEmpty || !digits.2.isEmpty then none
    else if (split? ['-'] rest).isSome then some (-decimalValue digits.1)
    else some (decimalValue digits.1)

/-- Whether a row of digits is the whole part of a number. -/
def isWhole (digits : List Char) : Bool :=
  digits == ['0'] || !digits.isEmpty && digits.head? != some '0'

/-- A whole number.  Minus zero is no whole number, and neither is one of more than
64 bits. -/
def whole? (negative : Bool) (n : Nat) : Option Int :=
  if negative then if 0 < n ∧ n ≤ Nat.pow 2 63 then some (-n) else none
  else if n < Nat.pow 2 64 then some n else none

variable {α : Type} [Scalar α]

/-- The scalar `mantissa * 10 ^ exponent` with a sign, unreadable if it is beyond all
scalars. -/
def scalarOf (negative : Bool) (mantissa : Nat) (exponent : Int) : Json α :=
  let x : α := OfScientific.ofScientific mantissa (exponent < 0) exponent.natAbs
  if Scalar.isFinite x then .float (if negative then -x else x) else .unreadable

/-- The value of the text of a number. -/
def numberOf? (text : List Char) : Option (Json α) := do
  let negative := (split? ['-'] text).isSome
  let (whole, rest) := digitsOf ((split? ['-'] text).getD text)
  let (fraction, tail) ← fractionOf rest
  let exponent ← exponentOf tail
  if !isWhole whole then none
  else if rest.isEmpty then
    some (((whole? negative (decimalValue whole)).map .int).getD
      (scalarOf negative (decimalValue whole) 0))
  else some (scalarOf negative (decimalValue (whole ++ fraction)) (exponent - fraction.length))

/-- The value of a word: a keyword or a number. -/
def word? (text : List Char) : Option (Json α) :=
  if text = "null".toList then some .null
  else if text = "true".toList then some (.bool true)
  else if text = "false".toList then some (.bool false)
  else numberOf? text

/-! ## From characters to lexemes -/

/-- Where a lexer stands; rows of characters and code points are kept backwards. -/
inductive LexerMode where
  | between
  /-- In a word. -/
  | word (text : List Char)
  /-- In a text, between quotes. -/
  | quoted (codes : List Nat)
  /-- After a backslash in a text. -/
  | escape (codes : List Nat)
  /-- In an escape of four hexadecimal digits, `count` of them read. -/
  | hex (codes : List Nat) (count value : Nat)

/-- A lexer between two characters; the lexemes are kept backwards. -/
structure Lexer (α : Type) where
  mode : LexerMode := .between
  lexemes : List (Lexeme α) := []

/-- Whether a character stands in words. -/
def isWordChar (c : Char) : Bool := c.isAlphanum || c == '+' || c == '-' || c == '.'

/-- The character that a one-letter escape stands for. -/
def escaped? : Char → Option Char
  | '"' => some '"'
  | '\\' => some '\\'
  | '/' => some '/'
  | 'b' => some '\x08'
  | 'f' => some '\x0c'
  | 'n' => some '\n'
  | 'r' => some '\r'
  | 't' => some '\t'
  | _ => none

namespace Lexer

/-- Reads a character that is in no word and no text. -/
def stepBetween (lexemes : List (Lexeme α)) (c : Char) : Option (Lexer α) :=
  match c with
  | ' ' | '\t' | '\n' | '\r' => some ⟨.between, lexemes⟩
  | '[' => some ⟨.between, .openArray :: lexemes⟩
  | ']' => some ⟨.between, .closeArray :: lexemes⟩
  | '\x7b' => some ⟨.between, .openObject :: lexemes⟩
  | '\x7d' => some ⟨.between, .closeObject :: lexemes⟩
  | ',' => some ⟨.between, .comma :: lexemes⟩
  | ':' => some ⟨.between, .colon :: lexemes⟩
  | '"' => some ⟨.quoted [], lexemes⟩
  | _ => if isWordChar c then some ⟨.word [c], lexemes⟩ else none

/-- Reads a character. -/
def step (lexer : Lexer α) (c : Char) : Option (Lexer α) :=
  match lexer.mode with
  | .between => stepBetween lexer.lexemes c
  | .word text =>
    if isWordChar c then some { lexer with mode := .word (c :: text) }
    else do stepBetween (.literal (← word? text.reverse) :: lexer.lexemes) c
  | .quoted codes =>
    if c = '"' then
      some ⟨.between, .text ((joinSurrogates codes.reverse).map String.ofList) :: lexer.lexemes⟩
    else if c = '\\' then some { lexer with mode := .escape codes }
    else if c.toNat < 0x20 then none
    else some { lexer with mode := .quoted (c.toNat :: codes) }
  | .escape codes =>
    if c = 'u' then some { lexer with mode := .hex codes 0 0 }
    else (escaped? c).map fun plain => { lexer with mode := .quoted (plain.toNat :: codes) }
  | .hex codes count value =>
    (hexDigit? c).map fun digit =>
      if count = 3 then { lexer with mode := .quoted ((16 * value + digit) :: codes) }
      else { lexer with mode := .hex codes (count + 1) (16 * value + digit) }

/-- The lexemes at the end of a text, in order. -/
def finish (lexer : Lexer α) : Option (List (Lexeme α)) :=
  match lexer.mode with
  | .between => some lexer.lexemes.reverse
  | .word text => (word? text.reverse).map fun j => (.literal j :: lexer.lexemes).reverse
  | .quoted _ | .escape _ | .hex .. => none

end Lexer

/-- The lexemes of a text. -/
def lexemes? (text : String) : Option (List (Lexeme α)) := do
  (← text.toList.foldlM Lexer.step ({} : Lexer α)).finish

/-! ## From lexemes to values -/

/-- An open bracket with what stands in it so far, backwards. -/
inductive Opened (α : Type) where
  | array (items : List (Json α))
  /-- The members read so far, and in `key` the name of the one whose value comes next. -/
  | object (members : List (Option String × Json α)) (key : Option String)

/-- What a machine waits for. -/
inductive Awaited where
  | value
  | valueOrEnd
  | key
  | keyOrEnd
  | colon
  | commaOrEnd
  | nothing

/-- A machine between two lexemes: the open brackets, the innermost first, and the
value once it is complete. -/
structure Machine (α : Type) where
  opened : List (Opened α) := []
  awaited : Awaited := .value
  result : Json α := .null

/-- How many brackets may be open at once. -/
def maxDepth : Nat := 127

/-- An object, unreadable if the name of a member is. -/
def ofMembers (members : List (Option String × Json α)) : Json α :=
  match members.mapM fun m => m.1.map (·, m.2) with
  | some named => .obj named
  | none => .unreadable

namespace Machine

/-- Takes a complete value. -/
def accept (opened : List (Opened α)) (j : Json α) : Machine α :=
  match opened with
  | [] => ⟨[], .nothing, j⟩
  | .array items :: rest => ⟨.array (j :: items) :: rest, .commaOrEnd, .null⟩
  | .object members key :: rest => ⟨.object ((key, j) :: members) none :: rest, .commaOrEnd, .null⟩

/-- Takes the value between brackets that close, unreadable if they were nested too
deep under `outer`. -/
def close (outer : List (Opened α)) (j : Json α) : Machine α :=
  accept outer (if outer.length < maxDepth then j else .unreadable)

/-- Reads a lexeme. -/
def step (m : Machine α) (lexeme : Lexeme α) : Option (Machine α) :=
  match m.awaited, lexeme, m.opened with
  | .value, .literal j, opened | .valueOrEnd, .literal j, opened => some (accept opened j)
  | .value, .text s, opened | .valueOrEnd, .text s, opened =>
    some (accept opened ((s.map .str).getD .unreadable))
  | .value, .openArray, opened | .valueOrEnd, .openArray, opened =>
    some ⟨.array [] :: opened, .valueOrEnd, .null⟩
  | .value, .openObject, opened | .valueOrEnd, .openObject, opened =>
    some ⟨.object [] none :: opened, .keyOrEnd, .null⟩
  | .key, .text s, .object members _ :: rest | .keyOrEnd, .text s, .object members _ :: rest =>
    some ⟨.object members s :: rest, .colon, .null⟩
  | .colon, .colon, opened => some ⟨opened, .value, .null⟩
  | .commaOrEnd, .comma, .array items :: rest => some ⟨.array items :: rest, .value, .null⟩
  | .commaOrEnd, .comma, .object members key :: rest =>
    some ⟨.object members key :: rest, .key, .null⟩
  | .valueOrEnd, .closeArray, .array items :: rest
  | .commaOrEnd, .closeArray, .array items :: rest => some (close rest (.arr items.reverse))
  | .keyOrEnd, .closeObject, .object members _ :: rest
  | .commaOrEnd, .closeObject, .object members _ :: rest =>
    some (close rest (ofMembers members.reverse))
  | _, _, _ => none

/-- The value at the end of a text. -/
def finish (m : Machine α) : Option (Json α) :=
  match m.awaited with
  | .nothing => some m.result
  | _ => none

end Machine

/-- The value of a JSON text, `none` if the text breaks the grammar. -/
def parse (text : String) : Option (Json α) := do
  (← (← lexemes? text).foldlM Machine.step ({} : Machine α)).finish

end Lettering.Json
