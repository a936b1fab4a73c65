import Lettering.Incident
import Lettering.Job

/-!
# Font resolution

Which font serves a request.  A font that is available serves itself; otherwise
the substitute that the glyph source names is tried, then the default font.  If
none of them is available the request keeps its name, and its glyphs are later
searched for in all fonts.
-/

namespace Lettering

/-- The font that serves a request. -/
structure ResolvedFont (α : Type) where
  /-- The name that glyphs are asked for with. -/
  name : String
  info : FontInfo α
deriving DecidableEq

namespace Resources

variable {α : Type} [Scalar α]

/-- The fonts to try in place of one that is not available, in order. -/
def substitutes (r : Resources α) (requested : String) : List String :=
  (r.fonts.substitute requested).toList ++ [r.settings.defaultFont]

/-- The first available font in place of one that is not. -/
def standIn? (r : Resources α) (requested : String) : Option (ResolvedFont α) :=
  (r.substitutes requested).findSome? fun name => (r.fonts.info name).map (⟨name, ·⟩)

/-- The font that serves a request; `current` is the kind of a font of which
nothing is known. -/
def resolveFont (r : Resources α) (requested : String) (current : FontKind) : ResolvedFont α :=
  match r.fonts.info requested with
  | some info => ⟨requested, info⟩
  | none => (r.standIn? requested).getD ⟨requested, ⟨current, 1⟩⟩

/-- What there is to report about a request. -/
def fontIncidents (r : Resources α) (requested : String) : List Incident :=
  match r.fonts.info requested with
  | some _ => []
  | none => [.missingFont requested ((r.standIn? requested).map (·.name))]

end Resources

end Lettering
