import Lettering.Font.BoxFonts
import Lettering.Proofs.FontsInForce
import Lettering.Scalar.Binary64

/-!
# Fallback glyphs

A character that the active font lacks is drawn by the big font, or by a font that the search finds
(`Resources.FallsBack`).  What is known of that font decides the kind of the glyph, and with it how
the glyph is made bold.  The size that it is asked at and its oblique angle stay those of the active
font, so the glyph is that of a style which borrows the font (`Style.borrow`,
`Resources.shape_fallback`).

A style set in that font asks for its own size and has its own angle.  Where they are the same, a
fallback glyph is like a native one; where they are not it need not be
(`Resources.fallback_unlike_native`).
-/

namespace Lettering

variable {α : Type} [Scalar α]

/-- The style set in another font. -/
def Style.inFont (s : Style α) (font : String) (info : FontInfo α) : Style α :=
  { s with font := font, fontKind := info.kind, fontScale := info.scale }

/-- The style with another font for the glyphs, at the size and the oblique angle that it has. -/
def Style.borrow (s : Style α) (font : String) (info : FontInfo α) : Style α :=
  { s with font := font, fontKind := info.kind, obliqueAngle := s.oblique, italic := false }

/-- A character that the active font lacks has a glyph in another font: in the big font, or else in
one that the search finds and that answers with the same glyph when it is asked itself. -/
inductive Resources.FallsBack (r : Resources α) (s : Style α) (c : Char) : String → Glyph α → Prop
  | bigFont {font : String} {g : Glyph α}
      (lacks : r.fonts.glyph c s.font s.glyphSize = none)
      (big : r.settings.bigFont = some font)
      (answers : r.fonts.glyph c font s.glyphSize = some g) : r.FallsBack s c font g
  | search {font : String} {g : Glyph α}
      (lacks : r.fonts.glyph c s.font s.glyphSize = none)
      (bigLacks : ∀ big ∈ r.settings.bigFont, r.fonts.glyph c big s.glyphSize = none)
      (finds : r.fonts.search c s.glyphSize = some (font, g))
      (answers : r.fonts.glyph c font s.glyphSize = some g) : r.FallsBack s c font g

variable {r : Resources α} {s : Style α} {c : Char} {font : String} {info : FontInfo α}
  {g : Glyph α}

theorem Resources.FallsBack.own (falls : r.FallsBack s c font g) :
    r.fonts.glyph c font s.glyphSize = some g := by
  cases falls with
  | bigFont _ _ answers => exact answers
  | search _ _ _ answers => exact answers

/-- A fallback glyph comes with the kind of the font that has it. -/
theorem Resources.FallsBack.find?_eq (falls : r.FallsBack s c font g)
    (known : r.fonts.info font = some info) : r.find? s c = some (info.kind, g) := by
  have kind : r.kindOf font s.fontKind = info.kind := Resources.kindOf_eq known s.fontKind
  cases falls with
  | bigFont lacks big answers =>
    have fromBig : r.fromBigFont? s c = some (info.kind, g) := by
      rw [Resources.fromBigFont?, big]
      dsimp only
      rw [answers, Option.map_some, kind]
    rw [Resources.find?, lacks, fromBig]
    rfl
  | search lacks bigLacks finds answers =>
    have fromBig : r.fromBigFont? s c = none := by
      rw [Resources.fromBigFont?]
      cases big : r.settings.bigFont with
      | none => rfl
      | some other => exact congrArg (Option.map _) (bigLacks other big)
    have fromAny : r.fromAnyFont? s c = some (info.kind, g) := by
      rw [Resources.fromAnyFont?, finds, Option.map_some, kind]
    rw [Resources.find?, lacks, fromBig, fromAny]
    rfl

theorem Resources.find?_of_glyph (own : r.fonts.glyph c s.font s.glyphSize = some g) :
    r.find? s c = some (s.fontKind, g) := by
  rw [Resources.find?, own]

theorem Resources.shape_of_find? {kind : FontKind} (found : r.find? s c = some (kind, g)) :
    r.shape s c = r.finish s c kind g := by
  rw [Resources.shape, found]

/-- What is done to a glyph that answered depends on the font of the style through the angle only. -/
theorem Resources.finish_inFont {kind : FontKind}
    (angle : (s.inFont font info).oblique = s.oblique) :
    r.finish (s.inFont font info) c kind g = r.finish s c kind g := by
  unfold Resources.finish
  rw [angle]
  rfl

/-- **A fallback glyph is shaped like a native one at the size and the angle of the active font.**
Nothing is reported for it.  It is like the glyph of the style set in the font that answers, wherever
that style asks for the same size and leans at the same angle. -/
theorem Resources.shape_fallback (falls : r.FallsBack s c font g)
    (known : r.fonts.info font = some info) :
    r.shapingIncidents s [c] = [] ∧
      r.shape s c = r.shape (s.borrow font info) c ∧
      ((s.inFont font info).glyphSize = s.glyphSize → (s.inFont font info).oblique = s.oblique →
        r.shape s c = r.shape (s.inFont font info) c) := by
  have found : r.find? s c = some (info.kind, g) := falls.find?_eq known
  have drawn : r.shape s c = r.finish s c info.kind g := Resources.shape_of_find? found
  refine ⟨?_, ?_, fun size angle => ?_⟩
  · rw [Resources.shapingIncidents, List.filter_singleton, found]
    rfl
  · have borrowed : r.find? (s.borrow font info) c = some (info.kind, g) :=
      Resources.find?_of_glyph falls.own
    rw [drawn, Resources.shape_of_find? borrowed]
    rfl
  · have native : r.find? (s.inFont font info) c = some (info.kind, g) :=
      Resources.find?_of_glyph (size ▸ falls.own)
    rw [drawn, Resources.shape_of_find? native, Resources.finish_inFont angle]

/-- An upright text in a stroke font, for which a filled font of the same scale answers. -/
theorem Resources.shape_fallback_upright :
    let r : Resources Float :=
      { fonts := BoxFonts.source <|
          ((BoxFonts.empty.addFont "main" .stroke).addFont "big" .filled).removeCharIn "main" 'λ'
        palette := fun _ => none
        colors := {}
        settings := { Settings.standard with bigFont := some "big" } }
    let s : Style Float := { Style.plain "main" .stroke 1 .white with bold := true }
    let info : FontInfo Float := ⟨.filled, 1⟩
    r.FallsBack s 'λ' "big" (BoxFonts.boxGlyph 'λ' 1) ∧ r.fonts.info "big" = some info ∧
      (s.inFont "big" info).glyphSize = s.glyphSize ∧ (s.inFont "big" info).oblique = s.oblique ∧
      r.shape s 'λ' = r.shape (s.inFont "big" info) 'λ' := by
  intro r s info
  have falls : r.FallsBack s 'λ' "big" (BoxFonts.boxGlyph 'λ' 1) :=
    .bigFont (by decide +kernel) rfl (by decide +kernel)
  have known : r.fonts.info "big" = some info := by decide +kernel
  obtain ⟨-, -, native⟩ := Resources.shape_fallback falls known
  exact ⟨falls, known, rfl, rfl, native rfl rfl⟩

/-- A slanted text in italics, in a stroke font, for which a filled font of another scale answers:
the glyph is asked at half the size and leans where that of the filled font stands upright. -/
theorem Resources.fallback_unlike_native :
    let r : Resources Float :=
      { fonts := BoxFonts.source <|
          ((BoxFonts.empty.addFont "main" .stroke).addScaledFont "big" .filled 2).removeCharIn
            "main" 'λ'
        palette := fun _ => none
        colors := {}
        settings := { Settings.standard with bigFont := some "big" } }
    let s : Style Float :=
      { Style.plain "main" .stroke 1 .white with italic := true, obliqueAngle := -15 }
    let info : FontInfo Float := ⟨.filled, 2⟩
    r.FallsBack s 'λ' "big" (BoxFonts.boxGlyph 'λ' 1) ∧ r.fonts.info "big" = some info ∧
      (s.oblique = 15 ∧ (s.inFont "big" info).oblique = 0) ∧
      r.shape s 'λ' ≠ r.shape (s.inFont "big" info) 'λ' := by
  intro r s info
  have falls : r.FallsBack s 'λ' "big" (BoxFonts.boxGlyph 'λ' 1) :=
    .bigFont (by decide +kernel) rfl (by decide +kernel)
  have narrower : (r.shape s 'λ').advance ≠ (r.shape (s.inFont "big" info) 'λ').advance := by
    decide +kernel
  refine ⟨falls, by decide +kernel, by decide +kernel, fun same => ?_⟩
  exact narrower (congrArg ShapedGlyph.advance same)

end Lettering
