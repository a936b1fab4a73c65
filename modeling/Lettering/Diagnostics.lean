import Lettering.Incident
import Lettering.Tally

/-!
# Diagnostics

How often each incident happened.  Nothing here is an error: every problem that
is counted was worked around.
-/

namespace Lettering

/-- Counts of incidents. -/
structure Diagnostics where
  /-- Characters that no font has, with the font that they were asked of. -/
  missingGlyphs : Tally (String × Char) := []
  /-- Fonts that are not available, by the name that was asked for. -/
  missingFonts : Tally String := []
  imitatedStyles : Nat := 0
deriving DecidableEq

namespace Diagnostics

/-- The order of characters under fonts: by font, then by character. -/
def glyphBefore (a b : String × Char) : Bool := a.1 < b.1 || (a.1 == b.1 && a.2 < b.2)

/-- Counts one incident. -/
def record (d : Diagnostics) : Incident → Diagnostics
  | .missingGlyph font c =>
    { d with missingGlyphs := Tally.bump glyphBefore (font, c) d.missingGlyphs }
  | .missingFont requested _ =>
    { d with missingFonts := Tally.bump (fun a b => a < b) requested d.missingFonts }
  | .imitatedStyle => { d with imitatedStyles := d.imitatedStyles + 1 }

/-- The counts of a list of incidents. -/
def ofIncidents (incidents : List Incident) : Diagnostics := incidents.foldl record {}

/-- How many placeholders were drawn. -/
def placeholderCount (d : Diagnostics) : Nat := Tally.total d.missingGlyphs

/-- Whether nothing was counted. -/
def isClean (d : Diagnostics) : Bool :=
  d.missingGlyphs.isEmpty && d.missingFonts.isEmpty && d.imitatedStyles == 0

end Diagnostics

end Lettering
