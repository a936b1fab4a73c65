import Lettering.Json
import Lettering.Scalar

/-!
# Reading typed values

How numbers, texts, names, records and tagged values are read from JSON values.  A
record is an object, or an array of its fields in their order.  In an object a name
that the record does not know is passed over and a name that it knows may stand
once only.  A tagged value is an object with the name of its kind and its content,
or an array of the two.

A content that stands before its tag is held until the tag is known.  Then it has
to be readable throughout, and within it the payload of a bare name may be an empty
object as well as `null`, and the tag in an array may be a number, which counts the
kinds from zero.
-/

namespace Lettering.Json

variable {α τ : Type}

/-! ## Leaves -/

/-- A scalar; whole numbers are scalars too. -/
def number? [Scalar α] : Json α → Option α
  | .int n => some (Scalar.ofInt n)
  | .float x => some x
  | _ => none

/-- A whole number from zero up to a bound. -/
def below? (bound : Nat) : Json α → Option Nat
  | .int n => if 0 ≤ n ∧ n < bound then some n.toNat else none
  | _ => none

def bool? : Json α → Option Bool
  | .bool b => some b
  | _ => none

def text? : Json α → Option String
  | .str s => some s
  | _ => none

/-- A text of one character. -/
def char? : Json α → Option Char
  | .str s =>
    match s.toList with
    | [c] => some c
    | _ => none
  | _ => none

/-- An array whose items are read alike. -/
def list? (read : Json α → Option τ) : Json α → Option (List τ)
  | .arr items => items.mapM read
  | _ => none

/-- A value that may be `null`. -/
def optional? (read : Json α → Option τ) : Json α → Option (Option τ)
  | .null => some none
  | j => (read j).map some

/-- One of a few named values, as its name or as an object that maps its name to
nothing. -/
def named? (held : Bool) (all : List τ) (name : τ → String) : Json α → Option τ
  | .str s => all.find? fun t => name t == s
  | .obj [(s, .null)] => all.find? fun t => name t == s
  | .obj [(s, .obj [])] => if held then all.find? fun t => name t == s else none
  | _ => none

/-- The one member of an object. -/
def single? : Json α → Option (String × Json α)
  | .obj [member] => some member
  | _ => none

/-! ## Records -/

/-- The fields of a record that are there. -/
abbrev Fields (α : Type) := String → Option (Json α)

/-- Whether a name stands in an object twice. -/
def repeats (members : List (String × Json α)) (name : String) : Bool :=
  1 < (members.filter fun m => m.1 == name).length

/-- The fields of a record that is written as an object. -/
def members? (names : List String) : Json α → Option (Fields α)
  | .obj members =>
    if names.any (repeats members) then none else some fun name => members.lookup name
  | _ => none

/-- The fields of a record. -/
def fields? (names : List String) : Json α → Option (Fields α)
  | .arr items =>
    if names.length < items.length then none else some fun name => (names.zip items).lookup name
  | j => j.members? names

namespace Fields

/-- A field that has to be there. -/
def need (f : Fields α) (name : String) (read : Json α → Option τ) : Option τ :=
  (f name).bind read

/-- A field with a value for when it is absent. -/
def getD (f : Fields α) (name : String) (read : Json α → Option τ) (absent : τ) : Option τ :=
  match f name with
  | none => some absent
  | some j => read j

end Fields

/-! ## Tagged values -/

/-- The content of a tagged value, and whether it was held. -/
structure Content (α : Type) where
  held : Bool
  value : Json α

/-- A tag that stands in an array: a plain name, or in what was held a number that
counts the tags from zero. -/
def listedTag? (held : Bool) (tags : List String) : Json α → Option String
  | .str s => tags.find? fun tag => tag == s
  | .int n => if held ∧ 0 ≤ n then tags[n.toNat]? else none
  | _ => none

/-- The tag and the content of a tagged value, whose tags are `tags` and whose two
fields have the given names. -/
def tagged? (held : Bool) (tagName contentName : String) (tags : List String) :
    Json α → Option (String × Option (Content α))
  | .arr [tag, content] =>
    (tag.listedTag? held tags).map fun t => (t, some ⟨held, content⟩)
  | .obj members =>
    if repeats members tagName || repeats members contentName then none
    else do
      let t ← (← members.lookup tagName).named? held tags id
      match members.lookup contentName with
      | none => some (t, none)
      | some content =>
        let first := members.find? fun m => m.1 == tagName || m.1 == contentName
        if (first.map (·.1)) == some tagName then some (t, some ⟨held, content⟩)
        else if content.isReadable then some (t, some ⟨true, content⟩)
        else none
  | _ => none

/-- The value of a kind without content. -/
def bare (t : τ) : Option (Content α) → Option τ
  | none => some t
  | some ⟨_, .null⟩ => some t
  | some _ => none

/-- The value of a kind with content. -/
def filled (read : Bool → Json α → Option τ) : Option (Content α) → Option τ
  | none => none
  | some content => read content.held content.value

end Lettering.Json
