/-!
# JSON values

JSON values as they are read: whole numbers apart from others, and the members of
an object in their order, repeated names included.
-/

namespace Lettering

/-- A JSON value whose numbers with a fraction or an exponent are scalars. -/
inductive Json (α : Type) where
  | null
  | bool (b : Bool)
  | int (n : Int)
  | float (x : α)
  | str (s : String)
  | arr (items : List (Json α))
  | obj (members : List (String × Json α))
  /-- What is written well but denotes no value: a number beyond all scalars, text
  with half a surrogate pair, brackets nested too deep.  It may stand where a value
  is passed over, and nowhere else. -/
  | unreadable

namespace Json

variable {α : Type}

mutual

/-- Whether a value has no unreadable part. -/
def isReadable : Json α → Bool
  | .arr items => allReadable items
  | .obj members => membersReadable members
  | .unreadable => false
  | .null | .bool _ | .int _ | .float _ | .str _ => true

/-- Whether no item has an unreadable part. -/
def allReadable : List (Json α) → Bool
  | [] => true
  | j :: rest => j.isReadable && allReadable rest

/-- Whether no member has an unreadable part. -/
def membersReadable : List (String × Json α) → Bool
  | [] => true
  | (_, j) :: rest => j.isReadable && membersReadable rest

end

end Json

end Lettering
