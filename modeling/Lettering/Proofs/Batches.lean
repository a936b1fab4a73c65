import Lettering.Block
import Mathlib.Data.List.SplitBy

/-!
# Batches

A block draws a row of contours, each in a way and in a color: run by run, and in each run the
contours of the glyphs before the lines of the decorations (`Block.painted`).  Its batches are this
row, cut between neighbors that are not drawn alike and nowhere else (`Block.batches_eq_iff`).  So
no contour is lost, doubled or moved, and no batch could be joined with the next.

That a row can be cut in one such way only comes from `List.splitBy` (`Batch.Groups.map_painted`).
-/

namespace Lettering

variable {α : Type}

/-- A contour, with the way and the color in which it is drawn. -/
structure PaintedContour (α : Type) where
  kind : FontKind
  color : Rgb
  contour : List (Point α)

/-- Whether two contours are drawn alike. -/
def PaintedContour.alike (p q : PaintedContour α) : Bool := p.kind = q.kind && p.color = q.color

/-- The contours of a batch. -/
def Batch.painted (b : Batch α) : List (PaintedContour α) := b.contours.map (⟨b.kind, b.color, ·⟩)

/-- All contours of a glyph, if one of them has a point. -/
def PlacedGlyph.painted (g : PlacedGlyph α) (color : Rgb) : List (PaintedContour α) :=
  if ∃ contour ∈ g.outline.contours, contour ≠ [] then
    g.outline.contours.map (⟨g.kind, color, ·⟩)
  else []

/-- The line of a decoration. -/
def Decoration.painted (d : Decoration α) : PaintedContour α :=
  ⟨.stroke, d.color, [d.start, d.stop]⟩

/-- What a run draws: its glyphs in its own color, then its decorations in theirs. -/
def Run.painted (r : Run α) : List (PaintedContour α) :=
  r.glyphs.flatMap (·.painted r.color) ++ r.decorations.map Decoration.painted

/-- What a block draws: what the runs of its lines draw, in order. -/
def Block.painted (b : Block α) : List (PaintedContour α) :=
  (b.lines.flatMap Line.runs).flatMap Run.painted

/-- Batches that group a row of contours. -/
structure Batch.Groups (painted : List (PaintedContour α)) (batches : List (Batch α)) : Prop where
  /-- In order the contours of the batches are the row, each drawn as it is there. -/
  painted : batches.flatMap Batch.painted = painted
  filled : ∀ b ∈ batches, b.contours ≠ []
  /-- Neighbors are not drawn alike. -/
  apart : batches.IsChain fun b c => ¬(b.kind = c.kind ∧ b.color = c.color)

variable {painted : List (PaintedContour α)} {batches others : List (Batch α)} {b c : Batch α}

/-! ## One grouping only -/

theorem Batch.drawn_of_mem {p : PaintedContour α} (member : p ∈ b.painted) :
    p.kind = b.kind ∧ p.color = b.color := by
  obtain ⟨contour, -, rfl⟩ := List.mem_map.mp member
  exact ⟨rfl, rfl⟩

theorem Batch.alike_of_mem {p q : PaintedContour α} (first : p ∈ b.painted)
    (second : q ∈ c.painted) : p.alike q = true ↔ b.kind = c.kind ∧ b.color = c.color := by
  obtain ⟨kind, color⟩ := Batch.drawn_of_mem first
  obtain ⟨kind', color'⟩ := Batch.drawn_of_mem second
  rw [PaintedContour.alike, Bool.and_eq_true, decide_eq_true_iff, decide_eq_true_iff, kind, kind',
    color, color']

theorem Batch.contours_painted (b : Batch α) : b.painted.map (·.contour) = b.contours :=
  List.map_map.trans (List.map_id _)

/-- A batch that has a contour is known from what it draws. -/
theorem Batch.eq_of_painted (filled : b.contours ≠ []) (same : b.painted = c.painted) : b = c := by
  obtain ⟨contour, member⟩ := List.exists_mem_of_ne_nil _ filled
  have shared : (⟨b.kind, b.color, contour⟩ : PaintedContour α) ∈ c.painted :=
    same ▸ List.mem_map_of_mem member
  obtain ⟨kind, color⟩ : b.kind = c.kind ∧ b.color = c.color := Batch.drawn_of_mem shared
  have contours : b.contours = c.contours := by
    rw [← b.contours_painted, same, c.contours_painted]
  calc b = ⟨b.kind, b.color, b.contours⟩ := rfl
    _ = ⟨c.kind, c.color, c.contours⟩ := by rw [kind, color, contours]
    _ = c := rfl

/-- A grouping cuts its row between contours that are not drawn alike, and only there. -/
theorem Batch.Groups.map_painted (groups : Batch.Groups painted batches) :
    batches.map Batch.painted = painted.splitBy PaintedContour.alike := by
  have filled : ∀ b ∈ batches, b.painted ≠ [] := by
    intro b member none
    exact groups.filled b member (List.map_eq_nil_iff.mp none)
  rw [← groups.painted, List.flatMap_def, List.splitBy_flatten]
  · intro none
    obtain ⟨b, member, empty⟩ := List.mem_map.mp none
    exact filled b member empty
  · rintro row inside
    obtain ⟨b, -, rfl⟩ := List.mem_map.mp inside
    refine (List.pairwise_of_forall_mem_list fun p first q second => ?_).isChain
    exact (Batch.alike_of_mem first second).mpr ⟨rfl, rfl⟩
  · rw [List.isChain_map]
    refine groups.apart.imp_of_mem_imp fun b c before after apart => ?_
    refine ⟨filled b before, filled c after, Bool.eq_false_iff.mpr fun alike => apart ?_⟩
    exact (Batch.alike_of_mem (List.getLast_mem _) (List.head_mem _)).mp alike

theorem Batch.Groups.unique (first : Batch.Groups painted batches)
    (second : Batch.Groups painted others) : batches = others := by
  have rows : batches.map Batch.painted = others.map Batch.painted :=
    first.map_painted.trans second.map_painted.symm
  rw [← List.forall₂_eq_eq_eq, List.forall₂_map_left_iff, List.forall₂_map_right_iff] at rows
  rw [← List.forall₂_eq_eq_eq]
  refine ((List.forall₂_and_left _ _).mpr ⟨first.filled, rows⟩).imp ?_
  rintro b c ⟨filled, same⟩
  exact Batch.eq_of_painted filled same

/-! ## Joining neighbors -/

/-- A batch in front that is not drawn like the next stays by itself. -/
theorem Batch.Groups.cons (groups : Batch.Groups painted batches) (filled : b.contours ≠ [])
    (apart : ∀ c ∈ batches.head?, b.alike c = false) :
    Batch.Groups (b.painted ++ painted) (b :: batches) := by
  refine ⟨?_, List.forall_mem_cons.mpr ⟨filled, groups.filled⟩, groups.apart.cons ?_⟩
  · rw [List.flatMap_cons, groups.painted]
  · rintro c next ⟨kind, color⟩
    have differs := apart c next
    rw [Batch.alike, kind, color] at differs
    simp at differs

/-- A batch in front that is drawn like the next joins it. -/
theorem Batch.Groups.join (groups : Batch.Groups painted (c :: batches))
    (alike : b.alike c = true) :
    Batch.Groups (b.painted ++ painted)
      ({ c with contours := b.contours ++ c.contours } :: batches) := by
  obtain ⟨filled, others⟩ := List.forall_mem_cons.mp groups.filled
  obtain ⟨kind, color⟩ : b.kind = c.kind ∧ b.color = c.color := by
    simpa [Batch.alike] using alike
  have joined : Batch.painted { c with contours := b.contours ++ c.contours } =
      b.painted ++ c.painted := by
    rw [Batch.painted, Batch.painted, Batch.painted, List.map_append, kind, color]
  refine ⟨?_, List.forall_mem_cons.mpr ⟨List.append_ne_nil_of_right_ne_nil _ filled, others⟩, ?_⟩
  · rw [List.flatMap_cons, joined, List.append_assoc, ← groups.painted, List.flatMap_cons]
  · exact List.isChain_cons.mpr (List.isChain_cons.mp groups.apart)

/-- Joining neighbors that are drawn alike groups what the batches draw. -/
theorem Batch.groups_merge (filled : ∀ b ∈ batches, b.contours ≠ []) :
    Batch.Groups (batches.flatMap Batch.painted) (Batch.merge batches) := by
  induction batches with
  | nil => exact ⟨rfl, List.forall_mem_nil _, .nil⟩
  | cons b rest ih =>
    obtain ⟨here, others⟩ := List.forall_mem_cons.mp filled
    have merged := ih others
    rw [List.flatMap_cons, Batch.merge]
    cases front : Batch.merge rest with
    | nil =>
      rw [front] at merged
      exact merged.cons here nofun
    | cons c more =>
      rw [front] at merged
      dsimp only
      split
      · next alike => exact merged.join alike
      · next differs =>
        refine merged.cons here ?_
        rintro _ ⟨⟩
        exact Bool.eq_false_iff.mpr differs

/-! ## The batches of a block -/

theorem Outline.isEmpty_eq_false_iff {o : Outline α} :
    o.isEmpty = false ↔ ∃ contour ∈ o.contours, contour ≠ [] := by
  simp [Outline.isEmpty]

theorem PlacedGlyph.painted_eq (g : PlacedGlyph α) (color : Rgb) :
    g.painted color =
      if !g.outline.isEmpty then Batch.painted ⟨g.kind, color, g.outline.contours⟩ else [] := by
  rw [PlacedGlyph.painted]
  cases empty : g.outline.isEmpty with
  | true =>
    rw [if_neg]
    · rfl
    · rw [← Outline.isEmpty_eq_false_iff, empty]
      exact Bool.noConfusion
  | false =>
    rw [if_pos (Outline.isEmpty_eq_false_iff.mp empty)]
    rfl

theorem Run.painted_batches (r : Run α) : r.batches.flatMap Batch.painted = r.painted := by
  rw [Run.batches, Run.painted, List.flatMap_append, List.flatMap_map, List.flatMap_map]
  congr 1
  · induction r.glyphs with
    | nil => rfl
    | cons g rest ih =>
      rw [List.filter_cons, List.flatMap_cons, g.painted_eq, ← ih]
      split <;> rfl
  · exact List.map_eq_flatMap.symm

theorem Run.filled_batches (r : Run α) : ∀ b ∈ r.batches, b.contours ≠ [] := by
  intro b member
  rcases List.mem_append.mp member with glyph | decoration
  · obtain ⟨g, inside, rfl⟩ := List.mem_map.mp glyph
    have inked : g.outline.isEmpty = false := by simpa using (List.mem_filter.mp inside).2
    obtain ⟨contour, drawn, -⟩ := Outline.isEmpty_eq_false_iff.mp inked
    exact List.ne_nil_of_mem drawn
  · obtain ⟨d, -, rfl⟩ := List.mem_map.mp decoration
    exact List.cons_ne_nil _ _

/-- **The batches of a block are what it draws, grouped**: they, and no other batches, have its
contours in order, each drawn as the block draws it, none of them empty and no two neighbors drawn
alike. -/
theorem Block.batches_eq_iff (b : Block α) (batches : List (Batch α)) :
    b.batches = batches ↔ Batch.Groups b.painted batches := by
  have filled : ∀ c ∈ (b.runs.map Run.batches).flatten, c.contours ≠ [] := by
    intro c member
    obtain ⟨_, inside, here⟩ := List.mem_flatten.mp member
    obtain ⟨r, -, rfl⟩ := List.mem_map.mp inside
    exact r.filled_batches c here
  have painted : (b.runs.map Run.batches).flatten.flatMap Batch.painted = b.painted := by
    rw [← List.flatMap_def, List.flatMap_assoc, Block.painted, Block.runs, ← List.flatMap_def]
    exact List.flatMap_congr fun r _ => r.painted_batches
  have groups : Batch.Groups b.painted b.batches := painted ▸ Batch.groups_merge filled
  constructor
  · rintro rfl
    exact groups
  · exact groups.unique

end Lettering
