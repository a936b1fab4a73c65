import Mathlib
import Lettering.Proofs.Batches
import Lettering.Proofs.Bounds
import Lettering.Proofs.Motions

/-!
# Compositions of maps

Taking the image of a block is functorial (`Block.image_functorial`).  The image under a composition
of two maps draws what the image of the image draws, and the batches of an image are the images of
the batches.

Boxes are the exception.  The box around the image of a box is larger than the image wherever the
map turns it, so a box that is mapped twice may have grown twice.  The box that is mapped once is
within it (`Box.image_andThen_within`), since it is the least one around what both hold.  From the
boxes of glyphs this goes up to those of runs, lines and the block, which are unions
(`Block.Tighter`).
-/

namespace Lettering

/-! ## Batches of an image -/

section Drawn

variable {α : Type}

/-- The batch with a function applied to every point. -/
def Batch.map (b : Batch α) (f : Point α → Point α) : Batch α :=
  { b with contours := b.contours.map (List.map f) }

theorem Batch.merge_map (f : Point α → Point α) (batches : List (Batch α)) :
    Batch.merge (batches.map (·.map f)) = (Batch.merge batches).map (·.map f) := by
  induction batches with
  | nil => rfl
  | cons b rest ih =>
    rw [List.map_cons, Batch.merge, Batch.merge, ih]
    cases Batch.merge rest with
    | nil => rfl
    | cons c more =>
      -- A map changes neither the kind nor the color, so the same neighbors are joined.
      have alike : (b.map f).alike (c.map f) = b.alike c := rfl
      simp only [List.map_cons, alike]
      split
      · simp only [List.map_cons, Batch.map, List.map_append]
      · simp only [List.map_cons]

theorem Outline.map_map (o : Outline α) (f g : Point α → Point α) :
    (o.map f).map g = o.map (g ∘ f) := by
  simp only [Outline.map, List.map_map, List.map_comp_map]

theorem Outline.isEmpty_map (o : Outline α) (f : Point α → Point α) :
    (o.map f).isEmpty = o.isEmpty := by
  simp only [Outline.isEmpty, Outline.map, List.all_map, Function.comp_def, List.isEmpty_map]

variable [Scalar α]

theorem Run.batches_image (r : Run α) (t : Affine α) :
    (r.image t).batches = r.batches.map (·.map t.apply) := by
  have inked : (fun g : PlacedGlyph α => !(g.image t).outline.isEmpty) =
      fun g => !g.outline.isEmpty := by
    funext g
    exact congrArg not (g.outline.isEmpty_map t.apply)
  simp only [Run.batches, Run.image, List.filter_map, Function.comp_def, inked, List.map_append,
    List.map_map]
  rfl

theorem Block.runs_image (b : Block α) (t : Affine α) :
    (b.image t).runs = b.runs.map fun r => r.image t := by
  rw [Block.image, Block.runs_refreshBounds, Block.runs, Block.runs, List.map_flatten,
    List.map_map, List.map_map]
  rfl

/-- The batches of an image are the images of the batches: as many, of the same kinds and colors,
with the same contours point for point. -/
theorem Block.batches_image (b : Block α) (t : Affine α) :
    (b.image t).batches = b.batches.map (·.map t.apply) := by
  rw [Block.batches, Block.batches, ← Batch.merge_map, Block.runs_image, List.map_flatten,
    List.map_map, List.map_map]
  congr 2
  exact List.map_congr_left fun r _ => r.batches_image t

end Drawn

variable {α : Type} [ExactScalar α]

/-! ## Boxes of an image -/

theorem Affine.apply_identity : (Affine.identity : Affine α).apply = id := by
  funext p
  simp only [Affine.apply, Affine.identity, one_mul, zero_mul, add_zero, zero_add, id_eq]

/-- Only the box that is mapped at once is sure to be the least one around its image. -/
theorem Box.image_andThen_within (b : Box α) (s t : Affine α) :
    (b.image (s.andThen t)).Within ((b.image s).image t) := by
  refine Box.image_within fun p held => ?_
  rw [Affine.apply_andThen]
  exact (held.image s).image t

theorem Box.image_identity (b : Box α) : b.image .identity = b := by
  unfold Box.image
  split
  · rfl
  · next some =>
    rw [Bool.not_eq_true, Box.isEmpty_eq_false] at some
    rw [Affine.apply_identity, List.map_id]
    simp only [Box.corners, Box.ofPoints, Box.ofPoint_eq, List.foldl_cons, List.foldl_nil,
      Box.extend, Scalar.lesser_eq_min, Scalar.greater_eq_max, min_eq_left some.1,
      min_eq_left some.2, max_eq_right some.1, max_eq_right some.2, min_self, max_self,
      max_eq_left some.1]

theorem Box.Within.union {b c d e : Box α} (left : b.Within d) (right : c.Within e) :
    (b.union c).Within (d.union e) :=
  Box.union_within (fun p held => (left p held).union_left e)
    fun p held => (right p held).union_right d

theorem Box.Within.unions {boxes others : List (Box α)}
    (within : List.Forall₂ Box.Within boxes others) : (unions boxes).Within (unions others) :=
  List.rel_foldl (fun _ _ left _ _ right => left.union right) (fun _ held => held) within

/-! ## Drawings in tighter boxes -/

/-- The glyph `g` is `h`, in a box that is within that of `h`. -/
structure PlacedGlyph.Tighter (g h : PlacedGlyph α) : Prop where
  char : g.char = h.char
  kind : g.kind = h.kind
  advance : g.advance = h.advance
  origin : g.origin = h.origin
  outline : g.outline = h.outline
  bounds : g.bounds.Within h.bounds

/-- The run `r` is `s` but for the boxes of the glyphs. -/
structure Run.Tighter (r s : Run α) : Prop where
  color : r.color = s.color
  size : r.size = s.size
  charAlignment : r.charAlignment = s.charAlignment
  startX : r.startX = s.startX
  width : r.width = s.width
  glyphs : List.Forall₂ PlacedGlyph.Tighter r.glyphs s.glyphs
  decorations : r.decorations = s.decorations

/-- The line `l` is `m` but for the boxes. -/
structure Line.Tighter (l m : Line α) : Prop where
  baseline : l.baseline = m.baseline
  advance : l.advance = m.advance
  maxSize : l.maxSize = m.maxSize
  startsParagraph : l.startsParagraph = m.startsParagraph
  runs : List.Forall₂ Run.Tighter l.runs m.runs
  bounds : l.bounds.Within m.bounds

/-- The block `b` is `c` but for the boxes: every box of `b` is within its counterpart. -/
structure Block.Tighter (b c : Block α) : Prop where
  height : b.height = c.height
  lines : List.Forall₂ Line.Tighter b.lines c.lines
  bounds : b.bounds.Within c.bounds
  diagnostics : b.diagnostics = c.diagnostics

theorem Run.Tighter.bounds {r s : Run α} (tighter : r.Tighter s) : r.bounds.Within s.bounds := by
  rw [Run.bounds, Run.bounds, tighter.decorations]
  refine Box.Within.unions (List.rel_append ?_ ?_)
  · exact List.rel_map (fun _ _ glyph => glyph.bounds) tighter.glyphs
  · exact List.forall₂_same.mpr fun _ _ _ held => held

variable (s t : Affine α)

theorem PlacedGlyph.tighter_image (g : PlacedGlyph α) :
    (g.image (s.andThen t)).Tighter ((g.image s).image t) := by
  refine ⟨rfl, rfl, rfl, Affine.apply_andThen s t g.origin, ?_, g.bounds.image_andThen_within s t⟩
  have composed : (s.andThen t).apply = t.apply ∘ s.apply := funext (Affine.apply_andThen s t)
  simp only [PlacedGlyph.image, Outline.map_map, composed]

theorem Decoration.image_andThen (d : Decoration α) :
    d.image (s.andThen t) = (d.image s).image t := by
  simp only [Decoration.image, Affine.apply_andThen]

theorem forall₂_map_map {β γ : Type} {R : γ → γ → Prop} {f g : β → γ}
    (related : ∀ x, R (f x) (g x)) (l : List β) : List.Forall₂ R (l.map f) (l.map g) := by
  rw [List.forall₂_map_left_iff, List.forall₂_map_right_iff]
  exact List.forall₂_same.mpr fun x _ => related x

theorem Run.tighter_image (r : Run α) :
    (r.image (s.andThen t)).Tighter ((r.image s).image t) := by
  refine ⟨rfl, rfl, rfl, rfl, rfl, ?_, ?_⟩
  · simp only [Run.image, List.map_map]
    exact forall₂_map_map (fun g => g.tighter_image s t) r.glyphs
  · simp only [Run.image, List.map_map, Function.comp_def, Decoration.image_andThen]

/-- The line with its geometry under a map and its box computed anew. -/
def Line.image (l : Line α) (t : Affine α) : Line α :=
  Line.refreshBounds { l with runs := l.runs.map fun r => r.image t }

theorem Line.tighter_image (l : Line α) :
    (l.image (s.andThen t)).Tighter ((l.image s).image t) := by
  have runs : List.Forall₂ Run.Tighter (l.image (s.andThen t)).runs
      ((l.image s).image t).runs := by
    simp only [Line.image, Line.refreshBounds, List.map_map]
    exact forall₂_map_map (fun r => r.tighter_image s t) l.runs
  refine ⟨rfl, rfl, rfl, rfl, runs, ?_⟩
  exact Box.Within.unions (List.rel_map (fun _ _ tighter => tighter.bounds) runs)

theorem Block.lines_image (b : Block α) : (b.image t).lines = b.lines.map fun l => l.image t := by
  rw [Block.image, Block.refreshBounds, List.map_map]
  rfl

theorem Block.tighter_image (b : Block α) :
    (b.image (s.andThen t)).Tighter ((b.image s).image t) := by
  have lines : List.Forall₂ Line.Tighter (b.image (s.andThen t)).lines
      ((b.image s).image t).lines := by
    rw [Block.lines_image, Block.lines_image, Block.lines_image, List.map_map]
    exact forall₂_map_map (fun l => l.tighter_image s t) b.lines
  refine ⟨rfl, lines, ?_, rfl⟩
  exact Box.Within.unions (List.rel_map (fun _ _ tighter => tighter.bounds) lines)

/-- The identity moves nothing; the boxes of lines and of the block are computed anew. -/
theorem Block.image_identity (b : Block α) : b.image .identity = b.refreshBounds := by
  have glyph (g : PlacedGlyph α) : g.image .identity = g := by
    simp only [PlacedGlyph.image, Outline.map, Affine.apply_identity, Box.image_identity,
      List.map_id_fun, List.map_id, id_eq]
  have decoration (d : Decoration α) : d.image .identity = d := by
    simp only [Decoration.image, Affine.apply_identity, id_eq]
  have run (r : Run α) : r.image .identity = r := by
    simp only [Run.image, glyph, decoration, List.map_id']
  simp only [Block.image, run, List.map_id']

/-- **Taking the image of a block is functorial.**  The batches of the image are the images of the
batches, for scalars of any kind.  In exact arithmetic the identity changes nothing but boxes that
were stale, and a composition of two maps gives what the two give one after the other, in boxes that
are within theirs. -/
theorem Block.image_functorial :
    (∀ (β : Type) [Scalar β] (b : Block β) (t : Affine β),
      (b.image t).batches = b.batches.map (·.map t.apply)) ∧
    ∀ (β : Type) [ExactScalar β] (b : Block β),
      b.image .identity = b.refreshBounds ∧
        ∀ s t : Affine β, (b.image (s.andThen t)).Tighter ((b.image s).image t) :=
  ⟨fun _ _ b t => b.batches_image t, fun _ _ b =>
    ⟨b.image_identity, fun s t => b.tighter_image s t⟩⟩

end Lettering
