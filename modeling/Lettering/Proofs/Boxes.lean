import Mathlib
import Lettering.Geometry.Outline
import Lettering.Proofs.ExactArithmetic

/-!
# Boxes in exact arithmetic

A box holds the points between its corners (`Box.Holds`), an empty one none.  Growing a box, moving
it and taking its image under an affine map keep the points that it held, at their new places, and
go no further than they have to: what is made so is within every box that holds the same
(`Box.ofPoints_within`, `Box.union_within`, `Box.image_within`).

An image is a box around four corners alone.  That it holds the image of every point is the one
argument about convexity here: over a box a linear form is least and greatest at corners
(`Box.exists_corner_le`, `Box.exists_le_corner`).
-/

namespace Lettering

variable {α : Type} [ExactScalar α]

/-- The point with its abscissa and its ordinate mapped. -/
def Point.mapAxes (p : Point α) (f g : α → α) : Point α := ⟨f p.x, g p.y⟩

namespace Box

structure Holds (b : Box α) (p : Point α) : Prop where
  left : b.lo.x ≤ p.x
  right : p.x ≤ b.hi.x
  below : b.lo.y ≤ p.y
  above : p.y ≤ b.hi.y

/-- Every point of one box is a point of the other. -/
def Within (b c : Box α) : Prop := ∀ p, b.Holds p → c.Holds p

variable {b c : Box α} {p q : Point α}

theorem isEmpty_eq_false : b.isEmpty = false ↔ b.lo.x ≤ b.hi.x ∧ b.lo.y ≤ b.hi.y := by
  rw [isEmpty, Bool.or_eq_false_iff, decide_eq_false_iff_not, decide_eq_false_iff_not, not_lt,
    not_lt]

theorem isEmpty_empty : (empty : Box α).isEmpty = true := by
  have inverted : -(ExactScalar.infinity : α) < ExactScalar.infinity :=
    neg_lt_self ExactScalar.infinity_pos
  rw [isEmpty, Bool.or_eq_true]
  exact .inl (decide_eq_true inverted)

theorem Holds.isEmpty (held : b.Holds p) : b.isEmpty = false :=
  isEmpty_eq_false.mpr ⟨held.left.trans held.right, held.below.trans held.above⟩

theorem holds_lo (nonempty : b.isEmpty = false) : b.Holds b.lo :=
  have ordered := isEmpty_eq_false.mp nonempty
  ⟨le_refl _, ordered.1, le_refl _, ordered.2⟩

theorem holds_hi (nonempty : b.isEmpty = false) : b.Holds b.hi :=
  have ordered := isEmpty_eq_false.mp nonempty
  ⟨ordered.1, le_refl _, ordered.2, le_refl _⟩

theorem within_of_holds (lo : c.Holds b.lo) (hi : c.Holds b.hi) : b.Within c := fun _ held =>
  ⟨lo.left.trans held.left, held.right.trans hi.right, lo.below.trans held.below,
    held.above.trans hi.above⟩

theorem isEmpty_iff : b.isEmpty = true ↔ ∀ p, ¬ b.Holds p := by
  constructor
  · intro bare p held
    rw [held.isEmpty] at bare
    cases bare
  · intro none
    cases found : b.isEmpty with
    | true => rfl
    | false => exact (none b.lo (holds_lo found)).elim

/-! ## Boxes around points -/

theorem holds_spanning_left (p q : Point α) : (spanning p q).Holds p := by
  simp only [spanning, Scalar.lesser_eq_min, Scalar.greater_eq_max]
  exact ⟨min_le_left _ _, le_max_left _ _, min_le_left _ _, le_max_left _ _⟩

theorem holds_spanning_right (p q : Point α) : (spanning p q).Holds q := by
  simp only [spanning, Scalar.lesser_eq_min, Scalar.greater_eq_max]
  exact ⟨min_le_right _ _, le_max_right _ _, min_le_right _ _, le_max_right _ _⟩

theorem holds_extend (b : Box α) (p : Point α) : (b.extend p).Holds p := by
  simp only [extend, Scalar.lesser_eq_min, Scalar.greater_eq_max]
  exact ⟨min_le_right _ _, le_max_right _ _, min_le_right _ _, le_max_right _ _⟩

theorem Holds.extend (held : b.Holds p) (q : Point α) : (b.extend q).Holds p := by
  simp only [Box.extend, Scalar.lesser_eq_min, Scalar.greater_eq_max]
  exact ⟨min_le_of_left_le held.left, le_max_of_le_left held.right, min_le_of_left_le held.below,
    le_max_of_le_left held.above⟩

theorem Holds.foldl_extend (held : b.Holds p) (points : List (Point α)) :
    (points.foldl Box.extend b).Holds p := by
  induction points generalizing b with
  | nil => exact held
  | cons q rest ih => exact ih (held.extend q)

theorem holds_foldl_extend (b : Box α) {points : List (Point α)} (member : p ∈ points) :
    (points.foldl extend b).Holds p := by
  induction points generalizing b with
  | nil => cases member
  | cons q rest ih =>
    rcases List.mem_cons.mp member with rfl | later
    · exact (holds_extend b p).foldl_extend rest
    · exact ih (b.extend q) later

theorem ofPoint_eq (p : Point α) : ofPoint p = ⟨p, p⟩ := by
  rw [ofPoint, if_pos (le_refl p.x), if_pos (le_refl p.y), if_pos (le_refl p.x),
    if_pos (le_refl p.y)]

theorem holds_ofPoint (p : Point α) : (ofPoint p).Holds p := by
  rw [ofPoint_eq]
  exact ⟨le_refl _, le_refl _, le_refl _, le_refl _⟩

theorem holds_ofPoints {points : List (Point α)} (member : p ∈ points) :
    (ofPoints points).Holds p := by
  cases points with
  | nil => cases member
  | cons q rest =>
    rcases List.mem_cons.mp member with rfl | later
    · exact (holds_ofPoint p).foldl_extend rest
    · exact holds_foldl_extend _ later

/-- Growing a box with a point goes no further than it has to.  An empty box may grow beyond the
point: one that is inverted on one axis only gets its extent on the other. -/
theorem extend_within (nonempty : b.isEmpty = false) (within : b.Within c) (held : c.Holds p) :
    (b.extend p).Within c := by
  have lo := within _ (holds_lo nonempty)
  have hi := within _ (holds_hi nonempty)
  refine within_of_holds ?_ ?_ <;>
    simp only [extend, Scalar.lesser_eq_min, Scalar.greater_eq_max]
  · exact ⟨le_min lo.left held.left, (min_le_left _ _).trans lo.right,
      le_min lo.below held.below, (min_le_left _ _).trans lo.above⟩
  · exact ⟨hi.left.trans (le_max_left _ _), max_le hi.right held.right,
      hi.below.trans (le_max_left _ _), max_le hi.above held.above⟩

theorem foldl_extend_within {points : List (Point α)} (nonempty : b.isEmpty = false)
    (within : b.Within c) (held : ∀ p ∈ points, c.Holds p) : (points.foldl extend b).Within c := by
  induction points generalizing b with
  | nil => exact within
  | cons p rest ih =>
    obtain ⟨here, others⟩ := List.forall_mem_cons.mp held
    exact ih (holds_extend b p).isEmpty (extend_within nonempty within here) others

theorem ofPoints_within {points : List (Point α)} (held : ∀ p ∈ points, c.Holds p) :
    (ofPoints points).Within c := by
  cases points with
  | nil => exact fun p inside => (isEmpty_iff.mp isEmpty_empty p inside).elim
  | cons p rest =>
    obtain ⟨here, others⟩ := List.forall_mem_cons.mp held
    have single : (ofPoint p).isEmpty = false := (holds_ofPoint p).isEmpty
    have within : (ofPoint p).Within c := by
      rw [ofPoint_eq]
      exact within_of_holds here here
    exact foldl_extend_within single within others

/-! ## Unions -/

theorem Holds.union_left (held : b.Holds p) (c : Box α) : (b.union c).Holds p := by
  unfold Box.union
  split
  · exact held
  · rw [held.isEmpty, if_neg Bool.false_ne_true]
    exact (held.extend _).extend _

theorem Holds.union_right (held : c.Holds p) (b : Box α) : (b.union c).Holds p := by
  rw [Box.union, held.isEmpty, if_neg Bool.false_ne_true]
  split
  · exact held
  · -- Both corners of `c` are held, and every point of `c` is between them.
    have lo := (holds_extend b c.lo).extend c.hi
    have hi := holds_extend (b.extend c.lo) c.hi
    exact within_of_holds lo hi p held

theorem union_within {d : Box α} (left : b.Within d) (right : c.Within d) :
    (b.union c).Within d := by
  unfold union
  split
  · exact left
  · next more =>
    split
    · exact right
    · next some =>
      rw [Bool.not_eq_true] at more some
      have lo := extend_within some left (right _ (holds_lo more))
      exact extend_within (holds_extend b c.lo).isEmpty lo (right _ (holds_hi more))

theorem isEmpty_union (b c : Box α) : (b.union c).isEmpty = (b.isEmpty && c.isEmpty) := by
  cases left : b.isEmpty with
  | false => rw [((holds_lo left).union_left c).isEmpty, Bool.false_and]
  | true =>
    rw [Bool.true_and, union, left, if_pos rfl]
    split
    · next right => rw [left, right]
    · rfl

theorem Holds.foldl_union (held : b.Holds p) (boxes : List (Box α)) :
    (boxes.foldl Box.union b).Holds p := by
  induction boxes generalizing b with
  | nil => exact held
  | cons c rest ih => exact ih (held.union_left c)

theorem within_unions {boxes : List (Box α)} (member : b ∈ boxes) : b.Within (unions boxes) := by
  have from_any (start : Box α) : b.Within (boxes.foldl union start) := by
    intro p held
    induction boxes generalizing start with
    | nil => cases member
    | cons c rest ih =>
      rcases List.mem_cons.mp member with rfl | later
      · exact (held.union_right start).foldl_union rest
      · exact ih later _
  exact from_any empty

theorem isEmpty_unions (boxes : List (Box α)) :
    (unions boxes).isEmpty = true ↔ ∀ b ∈ boxes, b.isEmpty = true := by
  have from_any (start : Box α) : (boxes.foldl union start).isEmpty = true ↔
      start.isEmpty = true ∧ ∀ b ∈ boxes, b.isEmpty = true := by
    induction boxes generalizing start with
    | nil => simp
    | cons c rest ih =>
      rw [List.foldl_cons, ih, isEmpty_union, Bool.and_eq_true, List.forall_mem_cons, and_assoc]
  rw [unions, from_any]
  exact and_iff_right isEmpty_empty

/-! ## Boxes mapped axis by axis -/

/-- The box with its abscissas and its ordinates mapped; an empty box stays as it is. -/
def mapAxes (b : Box α) (f g : α → α) : Box α :=
  if b.isEmpty then b else ⟨b.lo.mapAxes f g, b.hi.mapAxes f g⟩

section MapAxes

variable {f g : α → α}

theorem mapAxes_of_nonempty (nonempty : b.isEmpty = false) (f g : α → α) :
    b.mapAxes f g = ⟨b.lo.mapAxes f g, b.hi.mapAxes f g⟩ := by
  rw [mapAxes, nonempty, if_neg Bool.false_ne_true]

variable (across : StrictMono f) (along : StrictMono g)

include across along

theorem Holds.mapAxes (held : b.Holds p) : (b.mapAxes f g).Holds (p.mapAxes f g) := by
  rw [mapAxes_of_nonempty held.isEmpty]
  exact ⟨across.monotone held.left, across.monotone held.right, along.monotone held.below,
    along.monotone held.above⟩

theorem isEmpty_mapAxes (b : Box α) : (b.mapAxes f g).isEmpty = b.isEmpty := by
  cases found : b.isEmpty with
  | false => exact ((holds_lo found).mapAxes across along).isEmpty
  | true => rw [mapAxes, if_pos found, found]

theorem spanning_mapAxes (p q : Point α) :
    spanning (p.mapAxes f g) (q.mapAxes f g) = (spanning p q).mapAxes f g := by
  rw [mapAxes_of_nonempty (holds_spanning_left p q).isEmpty]
  simp only [spanning, Point.mapAxes, Scalar.lesser_eq_min, Scalar.greater_eq_max,
    across.monotone.map_min, across.monotone.map_max, along.monotone.map_min,
    along.monotone.map_max]

theorem extend_mapAxes (nonempty : b.isEmpty = false) (p : Point α) :
    (b.mapAxes f g).extend (p.mapAxes f g) = (b.extend p).mapAxes f g := by
  rw [mapAxes_of_nonempty nonempty, mapAxes_of_nonempty (holds_extend b p).isEmpty]
  simp only [extend, Point.mapAxes, Scalar.lesser_eq_min, Scalar.greater_eq_max,
    across.monotone.map_min, across.monotone.map_max, along.monotone.map_min,
    along.monotone.map_max]

theorem foldl_extend_mapAxes (nonempty : b.isEmpty = false) (points : List (Point α)) :
    (points.map fun p => p.mapAxes f g).foldl extend (b.mapAxes f g) =
      (points.foldl extend b).mapAxes f g := by
  induction points generalizing b with
  | nil => rfl
  | cons p rest ih =>
    rw [List.map_cons, List.foldl_cons, extend_mapAxes across along nonempty,
      ih (holds_extend b p).isEmpty, List.foldl_cons]

theorem ofPoints_mapAxes (points : List (Point α)) :
    ofPoints (points.map fun p => p.mapAxes f g) = (ofPoints points).mapAxes f g := by
  cases points with
  | nil => exact (if_pos isEmpty_empty).symm
  | cons p rest =>
    have single : (ofPoint p).isEmpty = false := (holds_ofPoint p).isEmpty
    have first : ofPoint (p.mapAxes f g) = (ofPoint p).mapAxes f g := by
      rw [mapAxes_of_nonempty single, ofPoint_eq, ofPoint_eq]
    show (rest.map _).foldl extend (ofPoint (p.mapAxes f g)) = _
    rw [first]
    exact foldl_extend_mapAxes across along single rest

theorem union_mapAxes (b c : Box α) :
    (b.mapAxes f g).union (c.mapAxes f g) = (b.union c).mapAxes f g := by
  rw [union, union, isEmpty_mapAxes across along, isEmpty_mapAxes across along]
  cases right : c.isEmpty with
  | true => rfl
  | false =>
    cases left : b.isEmpty with
    | true => rfl
    | false =>
      have corners : (c.mapAxes f g).lo = c.lo.mapAxes f g ∧
          (c.mapAxes f g).hi = c.hi.mapAxes f g := by
        rw [mapAxes_of_nonempty right]
        exact ⟨rfl, rfl⟩
      rw [if_neg Bool.false_ne_true, if_neg Bool.false_ne_true, if_neg Bool.false_ne_true,
        if_neg Bool.false_ne_true, corners.1, corners.2, extend_mapAxes across along left,
        extend_mapAxes across along (holds_extend b c.lo).isEmpty]

theorem unions_mapAxes (boxes : List (Box α)) :
    unions (boxes.map fun b => b.mapAxes f g) = (unions boxes).mapAxes f g := by
  have from_any (start : Box α) :
      (boxes.map fun b => b.mapAxes f g).foldl union (start.mapAxes f g) =
        (boxes.foldl union start).mapAxes f g := by
    induction boxes generalizing start with
    | nil => rfl
    | cons b rest ih =>
      rw [List.map_cons, List.foldl_cons, union_mapAxes across along, ih, List.foldl_cons]
  have bare : (empty : Box α).mapAxes f g = empty := if_pos isEmpty_empty
  rw [unions, unions, ← from_any, bare]

end MapAxes

/-! ## Moved boxes -/

theorem shift_of_nonempty (nonempty : b.isEmpty = false) (dx dy : α) :
    b.shift dx dy = ⟨b.lo.shift dx dy, b.hi.shift dx dy⟩ :=
  mapAxes_of_nonempty nonempty (· + dx) (· + dy)

theorem Holds.shift (held : b.Holds p) (dx dy : α) : (b.shift dx dy).Holds (p.shift dx dy) :=
  held.mapAxes add_left_strictMono add_left_strictMono

theorem shift_empty (dx dy : α) : (empty : Box α).shift dx dy = empty := if_pos isEmpty_empty

theorem isEmpty_shift (b : Box α) (dx dy : α) : (b.shift dx dy).isEmpty = b.isEmpty :=
  isEmpty_mapAxes add_left_strictMono add_left_strictMono b

theorem shift_shift (b : Box α) (dx dy ex ey : α) :
    (b.shift dx dy).shift ex ey = b.shift (dx + ex) (dy + ey) := by
  cases found : b.isEmpty with
  | true =>
    have unmoved (dx dy : α) : b.shift dx dy = b := if_pos found
    rw [unmoved, unmoved, unmoved]
  | false =>
    have moved : (b.shift dx dy).isEmpty = false := (isEmpty_shift b dx dy).trans found
    rw [shift_of_nonempty moved, shift_of_nonempty found, shift_of_nonempty found]
    simp only [Point.shift, add_assoc]

theorem shift_zero (b : Box α) : b.shift 0 0 = b := by
  simp only [shift, Point.shift, add_zero, ite_self]

theorem spanning_shift (p q : Point α) (dx dy : α) :
    spanning (p.shift dx dy) (q.shift dx dy) = (spanning p q).shift dx dy :=
  spanning_mapAxes add_left_strictMono add_left_strictMono p q

theorem unions_shift (boxes : List (Box α)) (dx dy : α) :
    unions (boxes.map fun b => b.shift dx dy) = (unions boxes).shift dx dy :=
  unions_mapAxes add_left_strictMono add_left_strictMono boxes

/-- The least value of a linear form over a box is at a corner. -/
theorem exists_corner_le (held : b.Holds p) (u v : α) :
    ∃ corner ∈ b.corners, u * corner.x + v * corner.y ≤ u * p.x + v * p.y := by
  have across : ∃ x, (x = b.lo.x ∨ x = b.hi.x) ∧ u * x ≤ u * p.x := by
    rcases le_total 0 u with positive | negative
    · exact ⟨_, .inl rfl, mul_le_mul_of_nonneg_left held.left positive⟩
    · exact ⟨_, .inr rfl, mul_le_mul_of_nonpos_left held.right negative⟩
  have along : ∃ y, (y = b.lo.y ∨ y = b.hi.y) ∧ v * y ≤ v * p.y := by
    rcases le_total 0 v with positive | negative
    · exact ⟨_, .inl rfl, mul_le_mul_of_nonneg_left held.below positive⟩
    · exact ⟨_, .inr rfl, mul_le_mul_of_nonpos_left held.above negative⟩
  obtain ⟨x, side, least⟩ := across
  obtain ⟨y, level, lowest⟩ := along
  refine ⟨⟨x, y⟩, ?_, add_le_add least lowest⟩
  rcases side with rfl | rfl <;> rcases level with rfl | rfl <;> simp [corners]

theorem exists_le_corner (held : b.Holds p) (u v : α) :
    ∃ corner ∈ b.corners, u * p.x + v * p.y ≤ u * corner.x + v * corner.y := by
  obtain ⟨corner, member, le⟩ := exists_corner_le held (-u) (-v)
  exact ⟨corner, member, by linarith⟩

/-- The image of a box holds the image of every point of the box, whatever the map is. -/
theorem Holds.image (held : b.Holds p) (t : Affine α) : (b.image t).Holds (t.apply p) := by
  have corner {q : Point α} (member : q ∈ b.corners) : (b.image t).Holds (t.apply q) := by
    rw [Box.image, held.isEmpty, if_neg Bool.false_ne_true]
    exact holds_ofPoints (List.mem_map_of_mem member)
  obtain ⟨left, leftIn, leftLe⟩ := exists_corner_le held t.a t.c
  obtain ⟨right, rightIn, rightLe⟩ := exists_le_corner held t.a t.c
  obtain ⟨bottom, bottomIn, bottomLe⟩ := exists_corner_le held t.b t.d
  obtain ⟨top, topIn, topLe⟩ := exists_le_corner held t.b t.d
  exact ⟨(corner leftIn).left.trans (add_le_add_left leftLe t.tx),
    (add_le_add_left rightLe t.tx).trans (corner rightIn).right,
    (corner bottomIn).below.trans (add_le_add_left bottomLe t.ty),
    (add_le_add_left topLe t.ty).trans (corner topIn).above⟩

/-- The image of a box is within every box that holds the images of its points. -/
theorem image_within {t : Affine α} (held : ∀ p, b.Holds p → c.Holds (t.apply p)) :
    (b.image t).Within c := by
  unfold image
  split
  · next bare => exact fun p inside => (isEmpty_iff.mp bare p inside).elim
  · next some =>
    rw [Bool.not_eq_true] at some
    refine ofPoints_within (List.forall_mem_map.mpr fun corner member => held corner ?_)
    have ordered := isEmpty_eq_false.mp some
    simp only [corners, List.mem_cons, List.not_mem_nil, or_false] at member
    rcases member with rfl | rfl | rfl | rfl
    · exact holds_lo some
    · exact ⟨ordered.1, le_refl _, le_refl _, ordered.2⟩
    · exact holds_hi some
    · exact ⟨le_refl _, ordered.1, ordered.2, le_refl _⟩

end Box

end Lettering
