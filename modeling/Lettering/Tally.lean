/-!
# Tallies

Counts by key, kept in ascending order of the keys.  A key that was never counted
has no entry, and no entry counts zero.
-/

namespace Lettering

/-- Counts by key. -/
abbrev Tally (κ : Type) := List (κ × Nat)

namespace Tally

variable {κ : Type} [DecidableEq κ]

/-- Counts one more of a key; `before` is the order of the keys. -/
def bump (before : κ → κ → Bool) (key : κ) : Tally κ → Tally κ
  | [] => [(key, 1)]
  | (k, n) :: rest =>
    if key = k then (k, n + 1) :: rest
    else if before key k then (key, 1) :: (k, n) :: rest
    else (k, n) :: bump before key rest

/-- The count of a key, zero for a key without entry. -/
def count (t : Tally κ) (key : κ) : Nat := (t.lookup key).getD 0

/-- The sum of all counts. -/
def total (t : Tally κ) : Nat := t.foldl (fun sum entry => sum + entry.2) 0

end Tally

end Lettering
