import Mathlib
import Lettering.Proofs.Boxes

/-!
# Least boxes

A box is read as the set of points that it holds (`Box.region`), so boxes without a point are all
alike, on whichever axis they are inverted.  A box encloses a set of points if it is the least one
around them (`Box.Encloses`), which fixes its region.

The union of two boxes encloses what the two enclose together (`Box.Encloses.union`), so the laws of
unions of boxes are read off those of unions of sets.  A box around points encloses the points, and
the image of a box under an affine map encloses the image of its region, whether or not the map is
invertible (`Box.encloses_image`).
-/

namespace Lettering

variable {α : Type} [ExactScalar α]

namespace Box

/-- The points that a box holds. -/
def region (b : Box α) : Set (Point α) := {p | b.Holds p}

/-- The box is the least one around a set of points. -/
structure Encloses (b : Box α) (s : Set (Point α)) : Prop where
  holds : s ⊆ b.region
  least : ∀ c : Box α, s ⊆ c.region → b.region ⊆ c.region

variable {b c : Box α} {s t : Set (Point α)}

theorem region_eq_empty_iff : b.region = ∅ ↔ b.isEmpty = true := by
  rw [isEmpty_iff, Set.eq_empty_iff_forall_notMem]
  rfl

/-! ## Enclosed sets -/

theorem encloses_region (b : Box α) : b.Encloses b.region := ⟨subset_rfl, fun _ within => within⟩

theorem encloses_empty : (empty : Box α).Encloses ∅ := by
  have bare : (empty : Box α).region = ∅ := region_eq_empty_iff.mpr isEmpty_empty
  rw [← bare]
  exact encloses_region empty

/-- Two least boxes around a set hold the same points. -/
theorem Encloses.region_eq (left : b.Encloses s) (right : c.Encloses s) : b.region = c.region :=
  (left.least c right.holds).antisymm (right.least b left.holds)

theorem Encloses.union (left : b.Encloses s) (right : c.Encloses t) :
    (b.union c).Encloses (s ∪ t) := by
  constructor
  · refine Set.union_subset (fun p inside => ?_) fun p inside => ?_
    · exact Holds.union_left (left.holds inside) c
    · exact Holds.union_right (right.holds inside) b
  · intro d around
    obtain ⟨aroundLeft, aroundRight⟩ := Set.union_subset_iff.mp around
    exact union_within (left.least d aroundLeft) (right.least d aroundRight)

theorem encloses_ofPoints (points : List (Point α)) :
    (ofPoints points).Encloses {p | p ∈ points} :=
  ⟨fun _ member => holds_ofPoints member, fun _ around => ofPoints_within around⟩

theorem encloses_image (b : Box α) (t : Affine α) : (b.image t).Encloses (t.apply '' b.region) := by
  constructor
  · rintro q ⟨p, held, rfl⟩
    exact Holds.image held t
  · intro c around
    exact image_within fun p held => around (Set.mem_image_of_mem t.apply held)

/-! ## Unions as sets -/

theorem encloses_union (b c : Box α) : (b.union c).Encloses (b.region ∪ c.region) :=
  (encloses_region b).union (encloses_region c)

theorem region_union_comm (b c : Box α) : (b.union c).region = (c.union b).region := by
  have swapped := encloses_union c b
  rw [Set.union_comm] at swapped
  exact (encloses_union b c).region_eq swapped

theorem region_union_assoc (b c d : Box α) :
    ((b.union c).union d).region = (b.union (c.union d)).region := by
  have first := (encloses_union b c).union (encloses_region d)
  rw [Set.union_assoc] at first
  exact first.region_eq ((encloses_region b).union (encloses_union c d))

theorem region_union_self (b : Box α) : (b.union b).region = b.region := by
  have twice := encloses_union b b
  rw [Set.union_self] at twice
  exact twice.region_eq (encloses_region b)

theorem region_union_empty (b : Box α) : (b.union empty).region = b.region := by
  have grown := (encloses_region b).union encloses_empty
  rw [Set.union_empty] at grown
  exact grown.region_eq (encloses_region b)

/-- The operations on boxes make least boxes.  Of a box only the points that it holds count. -/
structure LeastOperations (α : Type) [ExactScalar α] : Prop where
  /-- A box is taken for empty exactly if it holds no point, on whichever axis it is inverted. -/
  isEmpty : ∀ b : Box α, b.isEmpty = true ↔ b.region = ∅
  union : ∀ b c : Box α, (b.union c).Encloses (b.region ∪ c.region)
  union_comm : ∀ b c : Box α, (b.union c).region = (c.union b).region
  union_assoc : ∀ b c d : Box α, ((b.union c).union d).region = (b.union (c.union d)).region
  union_self : ∀ b : Box α, (b.union b).region = b.region
  union_empty : ∀ b : Box α, (b.union empty).region = b.region ∧ (empty.union b).region = b.region
  ofPoints : ∀ points : List (Point α), (ofPoints points).Encloses {p | p ∈ points}
  /-- An image of a box, by whichever map, is the least box around the images of its points. -/
  image : ∀ (b : Box α) (t : Affine α), (b.image t).Encloses (t.apply '' b.region)

/-- **Unions, boxes around points and images of boxes are least boxes.** -/
theorem operations_least : LeastOperations α where
  isEmpty _ := region_eq_empty_iff.symm
  union := encloses_union
  union_comm := region_union_comm
  union_assoc := region_union_assoc
  union_self := region_union_self
  union_empty b := ⟨region_union_empty b, (region_union_comm empty b).trans (region_union_empty b)⟩
  ofPoints := encloses_ofPoints
  image := encloses_image

end Box

end Lettering
