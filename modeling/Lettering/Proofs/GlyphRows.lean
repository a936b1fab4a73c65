import Mathlib
import Lettering.Proofs.ExactArithmetic
import Lettering.Proofs.Makeup

/-!
# Rows of glyphs

The glyphs of a word, and those of each text of a stack, stand side by side on one level: each
starts where the one before it ends (`SideBySide`).  That both are laid out so is one fact
(`sideBySide_placeRow`), since a word is a row at baseline zero.  Where the glyphs of a row start
and end, and at what ordinate they stand, is read off it.
-/

namespace Lettering

variable {α : Type} [ExactScalar α]

/-- Glyphs stand side by side from a point on. -/
def SideBySide : Point α → List (PlacedGlyph α) → Prop
  | _, [] => True
  | p, g :: rest => g.origin = p ∧ SideBySide ⟨p.x + g.advance, p.y⟩ rest

namespace SideBySide

variable {p : Point α} {glyphs : List (PlacedGlyph α)}

theorem shift (row : SideBySide p glyphs) (dx dy : α) :
    SideBySide (p.shift dx dy) (glyphs.map fun g => g.shift dx dy) := by
  induction glyphs generalizing p with
  | nil => trivial
  | cons g rest ih =>
    obtain ⟨here, tail⟩ := row
    have moved := ih tail
    rw [Point.shift, add_right_comm] at moved
    exact ⟨congrArg (·.shift dx dy) here, moved⟩

theorem level (row : SideBySide p glyphs) : ∀ g ∈ glyphs, g.origin.y = p.y := by
  induction glyphs generalizing p with
  | nil => exact List.forall_mem_nil _
  | cons g rest ih =>
    obtain ⟨rfl, tail⟩ := row
    have others := ih tail
    exact List.forall_mem_cons.mpr ⟨rfl, others⟩

theorem first (row : SideBySide p glyphs) (filled : glyphs ≠ []) :
    glyphs.head?.map (·.origin) = some p := by
  cases glyphs with
  | nil => exact (filled rfl).elim
  | cons g rest => exact congrArg some row.1

theorem next (row : SideBySide p glyphs) :
    glyphs.IsChain fun g h => h.origin = ⟨g.origin.x + g.advance, g.origin.y⟩ := by
  induction glyphs generalizing p with
  | nil => exact .nil
  | cons g rest ih =>
    obtain ⟨rfl, tail⟩ := row
    cases rest with
    | nil => exact .singleton _
    | cons h more => exact .cons_cons tail.1 (ih tail)

theorem last (row : SideBySide p glyphs) (filled : glyphs ≠ []) :
    glyphs.getLast?.map (fun g => g.origin.x + g.advance) =
      some (p.x + (glyphs.map (·.advance)).sum) := by
  induction glyphs generalizing p with
  | nil => exact (filled rfl).elim
  | cons g rest ih =>
    obtain ⟨rfl, tail⟩ := row
    cases rest with
    | nil => simp
    | cons h more =>
      have rest := ih tail (List.cons_ne_nil h more)
      rw [List.getLast?_cons_cons, rest, List.map_cons (l := h :: more), List.sum_cons, add_assoc]

/-- Where no glyph moves the pen back, the cell of each lies between the ends of the row. -/
theorem within (row : SideBySide p glyphs) (forward : ∀ g ∈ glyphs, 0 ≤ g.advance) :
    ∀ g ∈ glyphs, p.x ≤ g.origin.x ∧
      g.origin.x + g.advance ≤ p.x + (glyphs.map (·.advance)).sum := by
  induction glyphs generalizing p with
  | nil => exact List.forall_mem_nil _
  | cons g rest ih =>
    obtain ⟨rfl, tail⟩ := row
    obtain ⟨here, others⟩ := List.forall_mem_cons.mp forward
    have remaining : 0 ≤ (rest.map (·.advance)).sum :=
      List.sum_nonneg (List.forall_mem_map.mpr others)
    have within := ih tail others
    rw [List.map_cons, List.sum_cons, ← add_assoc]
    refine List.forall_mem_cons.mpr ⟨⟨le_refl _, le_add_of_nonneg_right remaining⟩, ?_⟩
    exact fun h member => ⟨(le_add_of_nonneg_right here).trans (within h member).1,
      (within h member).2⟩

end SideBySide

/-! ## Words and texts of stacks -/

section Placed

variable (baseline pen : α) (glyphs : List (ShapedGlyph α))

theorem sideBySide_placeRow :
    SideBySide ⟨pen, baseline⟩ ((placeRow baseline pen glyphs).map StackGlyph.placed) := by
  induction glyphs generalizing pen with
  | nil => trivial
  | cons g rest ih => exact ⟨rfl, ih _⟩

theorem sideBySide_placeGlyphs : SideBySide ⟨pen, 0⟩ (placeGlyphs pen glyphs) := by
  rw [placeGlyphs_eq_placeRow]
  exact sideBySide_placeRow 0 pen glyphs

theorem level_placeRow : ∀ g ∈ placeRow baseline pen glyphs, g.origin.y = baseline :=
  List.forall_mem_map.mp (sideBySide_placeRow baseline pen glyphs).level

theorem advances_placeRow :
    (((placeRow baseline pen glyphs).map StackGlyph.placed).map (·.advance)).sum =
      totalAdvance glyphs := by
  rw [totalAdvance, Scalar.sum_eq_sum, List.map_map]
  conv_rhs => rw [← placeRow_glyphs baseline pen glyphs, List.map_map]
  rfl

end Placed

end Lettering
