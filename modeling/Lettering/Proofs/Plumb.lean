import Lettering.Proofs.Abreast
import Lettering.Proofs.Makeup

/-!
# Lines right above each other

Twins close lines that stand at different heights and agree in everything else.  No law of
arithmetic is needed for that, since no abscissa of a layout is computed from an ordinate: two runs
with the same makeup and the same abscissas (`Run.Alike`) keep both when they are moved, one of them
higher than the other, and so do the lines that they stand on (`Line.Alike.align`).

The box of a glyph is the one exception.  A box that is empty is not moved, and whether it is empty
depends on its ordinates, so boxes have the same abscissas only while neither is empty.
-/

namespace Lettering

variable {α : Type}

def Outline.abscissas (o : Outline α) : List (List α) := o.contours.map fun c => c.map (·.x)

/-- Decorations right above each other. -/
structure Decoration.Plumb (d e : Decoration α) : Prop where
  start : e.start.x = d.start.x
  stop : e.stop.x = d.stop.x

variable [Scalar α]

/-- Boxes right above each other, unless one of them is empty. -/
def Box.Plumb (b c : Box α) : Prop :=
  b.isEmpty = false → c.isEmpty = false → c.lo.x = b.lo.x ∧ c.hi.x = b.hi.x

/-- Glyphs right above each other. -/
structure PlacedGlyph.Plumb (g h : PlacedGlyph α) : Prop where
  origin : h.origin.x = g.origin.x
  outline : h.outline.abscissas = g.outline.abscissas
  bounds : g.bounds.Plumb h.bounds

/-- Runs that agree in all but their ordinates. -/
structure Run.Alike (r s : Run α) : Prop where
  makeup : s.makeup = r.makeup
  startX : s.startX = r.startX
  glyphs : List.Forall₂ PlacedGlyph.Plumb r.glyphs s.glyphs
  decorations : List.Forall₂ Decoration.Plumb r.decorations s.decorations

/-- Lines that agree in all but their ordinates. -/
structure Line.Alike (l m : Line α) : Prop where
  startsParagraph : m.startsParagraph = l.startsParagraph
  advance : m.advance = l.advance
  maxSize : m.maxSize = l.maxSize
  runs : List.Forall₂ Run.Alike l.runs m.runs

/-! ## Moving -/

theorem Outline.abscissas_shift (o : Outline α) (dx dy : α) :
    (o.shift dx dy).abscissas = o.abscissas.map fun c => c.map (· + dx) := by
  simp only [Outline.abscissas, Outline.shift, Outline.map, List.map_map]
  exact List.map_congr_left fun c _ => by simp only [Function.comp_apply, List.map_map]; rfl

theorem Decoration.Plumb.shift {d e : Decoration α} (plumb : d.Plumb e) (dx dy dy' : α) :
    (d.shift dx dy).Plumb (e.shift dx dy') :=
  ⟨congrArg (· + dx) plumb.start, congrArg (· + dx) plumb.stop⟩

theorem Box.Plumb.shift {b c : Box α} (plumb : b.Plumb c) (dx dy dy' : α) :
    (b.shift dx dy).Plumb (c.shift dx dy') := by
  intro nonempty nonempty'
  -- An empty box stays as it is, so a box that is not empty now was not before.
  have before {b : Box α} {dy : α} (nonempty : (b.shift dx dy).isEmpty = false) :
      b.isEmpty = false := by
    cases found : b.isEmpty with
    | false => rfl
    | true =>
      rw [Box.shift, if_pos found, found] at nonempty
      cases nonempty
  have empty := before nonempty
  have empty' := before nonempty'
  obtain ⟨lo, hi⟩ := plumb empty empty'
  rw [Box.shift, Box.shift, empty, empty', if_neg Bool.false_ne_true, if_neg Bool.false_ne_true]
  exact ⟨congrArg (· + dx) lo, congrArg (· + dx) hi⟩

theorem PlacedGlyph.Plumb.shift {g h : PlacedGlyph α} (plumb : g.Plumb h) (dx dy dy' : α) :
    (g.shift dx dy).Plumb (h.shift dx dy') := by
  refine ⟨congrArg (· + dx) plumb.origin, ?_, plumb.bounds.shift dx dy dy'⟩
  show (h.outline.shift dx dy').abscissas = (g.outline.shift dx dy).abscissas
  rw [Outline.abscissas_shift, Outline.abscissas_shift, plumb.outline]

theorem Run.Alike.refl (r : Run α) : r.Alike r :=
  ⟨rfl, rfl, List.forall₂_same.mpr fun _ _ => ⟨rfl, rfl, fun _ _ => ⟨rfl, rfl⟩⟩,
    List.forall₂_same.mpr fun _ _ => ⟨rfl, rfl⟩⟩

theorem Run.Alike.shift {r s : Run α} (alike : r.Alike s) (dx dy dy' : α) :
    (r.shift dx dy).Alike (s.shift dx dy') := by
  refine ⟨?_, congrArg (· + dx) alike.startX, ?_, ?_⟩
  · rw [Run.makeup_shift, Run.makeup_shift, alike.makeup]
  · exact List.rel_map (fun _ _ plumb => plumb.shift dx dy dy') alike.glyphs
  · exact List.rel_map (fun _ _ plumb => plumb.shift dx dy dy') alike.decorations

theorem Run.Alike.width {r s : Run α} (alike : r.Alike s) : s.width = r.width :=
  congrArg Makeup.width alike.makeup

theorem Run.Alike.endX {r s : Run α} (alike : r.Alike s) : s.endX = r.endX := by
  rw [Run.endX, Run.endX, alike.startX, alike.width]

/-! ## Alignment -/

theorem map_eq_of_alike {β : Type} {f : Run α → β} (same : ∀ {r s}, r.Alike s → f s = f r)
    {runs runs' : List (Run α)} (alike : List.Forall₂ Run.Alike runs runs') :
    runs'.map f = runs.map f := by
  induction alike with
  | nil => rfl
  | cons first _ ih => rw [List.map_cons, List.map_cons, same first, ih]

/-- Where the content of a line ends is read off the ends of its runs. -/
theorem Line.contentEnd_eq (l : Line α) : l.contentEnd = match l.runs.map Run.endX with
    | [] => none
    | stop :: rest => some (rest.foldl Scalar.greater stop) := by
  unfold Line.contentEnd
  cases l.runs with
  | nil => rfl
  | cons r rest => exact congrArg some List.foldl_map.symm

theorem Line.contentEnd_congr {l m : Line α} (ends : m.runs.map Run.endX = l.runs.map Run.endX) :
    m.contentEnd = l.contentEnd := by
  rw [Line.contentEnd_eq, Line.contentEnd_eq, ends]

theorem spreadFrom_alike (gap pen : α) {runs runs' : List (Run α)}
    (alike : List.Forall₂ Run.Alike runs runs') :
    List.Forall₂ Run.Alike (spreadFrom gap pen runs) (spreadFrom gap pen runs') := by
  induction alike generalizing pen with
  | nil => exact .nil
  | cons first _ ih =>
    rw [spreadFrom, spreadFrom, first.startX, first.width]
    exact .cons (first.shift _ _ _) (ih _)

theorem Line.Alike.spreadRuns {l m : Line α} (alike : l.Alike m) (alignment : HorizontalAlignment)
    (frame : Frame α) :
    List.Forall₂ Run.Alike (l.spreadRuns alignment frame) (m.spreadRuns alignment frame) := by
  have widths := map_eq_of_alike Run.Alike.width alike.runs
  unfold Line.spreadRuns spread
  split
  · dsimp only
    rw [widths, ← alike.runs.length_eq]
    split
    · exact alike.runs
    · exact spreadFrom_alike _ _ alike.runs
  · exact alike.runs

theorem Line.Alike.align {l m : Line α} (alike : l.Alike m) (alignment : HorizontalAlignment)
    (frame : Frame α) : (l.align alignment frame).Alike (m.align alignment frame) := by
  have spread := alike.spreadRuns alignment frame
  unfold Line.align
  rw [Line.contentEnd_congr (map_eq_of_alike Run.Alike.endX alike.runs)]
  split
  · exact alike
  · refine ⟨alike.startsParagraph, alike.advance, alike.maxSize, ?_⟩
    dsimp only [Line.refreshBounds]
    split
    · exact List.rel_map (fun _ _ alike => alike.shift _ _ _) spread
    · exact spread

theorem Job.closes_alike (job : Job α) : job.ClosesAlike (fun _ _ => True) Line.Alike where
  related {p q} twin begun begun' _ := by
    have advance := twin.lineAdvance job begun begun'
    obtain ⟨column, incidents, rfl⟩ := twin.exists_behind
    have line : (p.cursor.line job.leading p.style.effectiveSize).Alike
        ((p.behind column incidents).cursor.line job.leading p.style.effectiveSize) := by
      refine ⟨rfl, advance, rfl, ?_⟩
      exact List.rel_map (fun _ _ alike => alike.shift 0 _ _)
        (List.forall₂_same.mpr fun r _ => Run.Alike.refl r)
    exact line.align p.paragraph.alignment (p.frame job)
  baseline _ := trivial

end Lettering
