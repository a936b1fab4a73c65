import Mathlib
import Lettering.Proofs.Frames

/-!
# Aligned lines

Alignment moves the runs of a line along it, each as one piece (`Run.Slid`), and changes nothing
else of the line.  Aligned to the left, the center or the right, the runs move by one distance,
which brings their start, their middle or their end to its place in the frame; spread, they fill
the frame from margin to margin with the same gap between any two neighbours (`Frame.FilledBy`).
`Line.align_aligned` says all of this of every line with a run, in whatever order and at whatever
distances its runs stand before.
-/

namespace Lettering

variable {α : Type} [ExactScalar α]

/-- The point moved along a line. -/
def Point.slide (dx : α) (p : Point α) : Point α := ⟨p.x + dx, p.y⟩

/-- The run `s` is `r` with all that it draws moved along the line by one distance. -/
structure Run.Slid (dx : α) (r s : Run α) : Prop where
  /-- Among others, the widths and the advances are those before. -/
  makeup : s.makeup = r.makeup
  startX : s.startX = r.startX + dx
  origins : s.glyphs.map (·.origin) = r.glyphs.map fun g => g.origin.slide dx
  outlines : s.glyphs.map (·.outline) = r.glyphs.map fun g => g.outline.map (Point.slide dx)
  starts : s.decorations.map (·.start) = r.decorations.map fun d => d.start.slide dx
  stops : s.decorations.map (·.stop) = r.decorations.map fun d => d.stop.slide dx

/-- Runs fill a frame from the start of its line to the right margin, with one gap between any two
neighbours. -/
structure Frame.FilledBy (frame : Frame α) (runs : List (Run α)) : Prop where
  start : runs.head?.map Run.startX = some frame.start
  gaps : ∃ gap, 0 < gap ∧ runs.IsChain fun r s => s.startX - r.endX = gap
  stop : ∃ usable, frame.usable = some usable ∧
    runs.getLast?.map Run.endX = some (frame.leftMargin + usable)

/-- The line `m` is `l` aligned in a frame.  Where lines do not wrap, the right margin is the
left one. -/
structure Line.Aligned (l : Line α) (alignment : HorizontalAlignment) (frame : Frame α)
    (m : Line α) : Prop where
  baseline : m.baseline = l.baseline
  advance : m.advance = l.advance
  maxSize : m.maxSize = l.maxSize
  startsParagraph : m.startsParagraph = l.startsParagraph
  /-- The runs keep their order, and each moves by a distance of its own. -/
  runs : List.Forall₂ (fun r s => ∃ dx, r.Slid dx s) l.runs m.runs
  bounds : m.bounds = .unions (m.runs.map Run.bounds)
  left : alignment = .left → m.runs = l.runs
  /-- The middle is that of the start of the line, moved along with the runs, and their greatest
  end. -/
  center : alignment = .center → ∃ dx stop, List.Forall₂ (Run.Slid dx) l.runs m.runs ∧
    IsGreatest {x | x ∈ m.runs.map Run.endX} stop ∧
      (frame.start + dx + stop) / 2 = frame.leftMargin + frame.usable.getD 0 / 2
  right : alignment = .right → ∃ dx, List.Forall₂ (Run.Slid dx) l.runs m.runs ∧
    IsGreatest {x | x ∈ m.runs.map Run.endX} (frame.leftMargin + frame.usable.getD 0)
  spread : frame.Spreads alignment l.runs → frame.FilledBy m.runs
  unspread : alignment = .distributed → ¬ frame.Spreads alignment l.runs → m.runs = l.runs

/-! ## Runs that move along their line -/

theorem Point.shift_zero_right (p : Point α) (dx : α) : p.shift dx 0 = p.slide dx := by
  rw [Point.shift, add_zero, Point.slide]

theorem Run.slid_shift (r : Run α) (dx : α) : r.Slid dx (r.shift dx 0) := by
  refine ⟨r.makeup_shift dx 0, rfl, ?_, ?_, ?_, ?_⟩ <;>
    simp only [Run.shift, PlacedGlyph.shift, Outline.shift, Decoration.shift, List.map_map,
      Function.comp_def, Point.shift_zero_right]

theorem Run.Slid.span {dx : α} {r s : Run α} (slid : r.Slid dx s) :
    s.span = (r.startX + dx, r.endX + dx) := by
  have width : s.width = r.width := congrArg Makeup.width slid.makeup
  rw [Run.span, Run.endX, slid.startX, width, Run.endX, add_right_comm]

theorem spans_of_slid {dx : α} {runs others : List (Run α)}
    (slid : List.Forall₂ (Run.Slid dx) runs others) : others.map Run.span = spansAt dx runs := by
  induction slid with
  | nil => rfl
  | cons first _ ih => rw [List.map_cons, first.span, ih]; rfl

/-- Alignment moves the runs by the offset of their frame, once they are spread. -/
theorem Line.align_slid {l : Line α} {stop : α} (ends : l.contentEnd = some stop)
    (alignment : HorizontalAlignment) (frame : Frame α) :
    List.Forall₂ (Run.Slid (frame.offset alignment stop)) (l.spreadRuns alignment frame)
      (l.align alignment frame).runs := by
  rw [Line.runs_align ends]
  exact List.forall₂_map_right_iff.mpr (List.forall₂_same.mpr fun r _ => r.slid_shift _)

/-- Lines that are aligned to the left or distributed are not moved as a whole. -/
theorem Line.runs_align_of_still {l : Line α} {stop : α} (ends : l.contentEnd = some stop)
    {alignment : HorizontalAlignment} (still : alignment = .left ∨ alignment = .distributed)
    (frame : Frame α) : (l.align alignment frame).runs = l.spreadRuns alignment frame := by
  have zero : frame.offset alignment stop = 0 := by
    rcases still with rfl | rfl <;> rfl
  simp only [Line.runs_align ends, zero, Run.shift_zero, List.map_id']

/-! ## Where aligned lines end -/

theorem Line.greatest_contentEnd {l : Line α} {stop : α} (ends : l.contentEnd = some stop) :
    IsGreatest {x | x ∈ l.runs.map Run.endX} stop :=
  List.max?_eq_some_iff.mp (l.contentEnd_eq_max?.symm.trans ends)

/-- A line whose runs move by one distance ends as much further. -/
theorem Line.greatest_of_slid {l m : Line α} {stop dx : α} (ends : l.contentEnd = some stop)
    (slid : List.Forall₂ (Run.Slid dx) l.runs m.runs) :
    IsGreatest {x | x ∈ m.runs.map Run.endX} (stop + dx) := by
  refine Line.greatest_contentEnd ?_
  rw [Line.contentEnd_of_spans (spans_of_slid slid), ends, Option.map_some]

theorem Frame.offset_right (frame : Frame α) (stop : α) :
    stop + frame.offset .right stop = frame.leftMargin + frame.usable.getD 0 := by
  unfold Frame.offset
  cases frame.usable with
  | none => simp
  | some usable => simp

/-! ## Spread runs -/

theorem head?_spreadFrom (gap pen : α) (r : Run α) (rest : List (Run α)) :
    (spreadFrom gap pen (r :: rest)).head?.map Run.startX = some pen :=
  congrArg some (add_sub_cancel r.startX pen)

/-- The last of the runs that are placed from a pen on ends by all their widths and the gaps between
them further. -/
theorem getLast?_spreadFrom (gap pen : α) (r : Run α) (rest : List (Run α)) :
    (spreadFrom gap pen (r :: rest)).getLast?.map Run.endX =
      some (pen + (((r :: rest).map (·.width)).sum + rest.length * gap)) := by
  induction rest generalizing pen r with
  | nil =>
    show some (r.startX + (pen - r.startX) + r.width) = _
    congr 1
    simp
  | cons s more ih =>
    have tail := ih (pen + (r.width + gap)) s
    rw [spreadFrom] at tail
    rw [spreadFrom, spreadFrom, List.getLast?_cons_cons, tail]
    congr 1
    simp only [List.map_cons, List.sum_cons, List.length_cons, Nat.cast_add, Nat.cast_one]
    ring

theorem Frame.Spreads.filledBy {l : Line α} {alignment : HorizontalAlignment} {frame : Frame α}
    (spreads : frame.Spreads alignment l.runs) :
    frame.FilledBy (l.spreadRuns alignment frame) := by
  obtain ⟨usable, gap, found, positive, room, runs⟩ := Line.spreadRuns_of_spreads spreads
  have several := spreads.several
  rw [runs]
  cases content : l.runs with
  | nil => simp [content] at several
  | cons r rest =>
    refine ⟨head?_spreadFrom _ _ _ _, ⟨gap, positive, isChain_spreadFrom _ _ _⟩, usable, found, ?_⟩
    -- Widths and gaps add up to the width between the indent and the right margin.
    rw [content, List.length_cons, Nat.cast_add, Nat.cast_one, add_sub_cancel_right] at room
    rw [getLast?_spreadFrom, room, Frame.start]
    congr 1
    ring

theorem spreadFrom_slid (gap pen : α) (runs : List (Run α)) :
    List.Forall₂ (fun r s => ∃ dx, r.Slid dx s) runs (spreadFrom gap pen runs) := by
  induction runs generalizing pen with
  | nil => exact .nil
  | cons r rest ih => exact .cons ⟨_, r.slid_shift _⟩ (ih _)

theorem Line.align_slides {l : Line α} {stop : α} (ends : l.contentEnd = some stop)
    (alignment : HorizontalAlignment) (frame : Frame α) :
    List.Forall₂ (fun r s => ∃ dx, r.Slid dx s) l.runs (l.align alignment frame).runs := by
  by_cases spreads : frame.Spreads alignment l.runs
  · obtain ⟨usable, gap, -, -, -, runs⟩ := Line.spreadRuns_of_spreads spreads
    rw [Line.runs_align_of_still ends (.inr spreads.distributed), runs]
    exact spreadFrom_slid _ _ _
  · have slid := Line.align_slid ends alignment frame
    rw [Line.spreadRuns_of_not_spreads spreads] at slid
    exact slid.imp fun r s slid => ⟨_, slid⟩

/-- **Alignment puts the runs of a line in their places**, whatever places they come from, and
leaves the rest of the line as it is. -/
theorem Line.align_aligned (l : Line α) (filled : l.runs ≠ []) (alignment : HorizontalAlignment)
    (frame : Frame α) : l.Aligned alignment frame (l.align alignment frame) := by
  obtain ⟨stop, ends⟩ := Line.exists_contentEnd filled
  obtain ⟨baseline, advance, maxSize, startsParagraph⟩ := l.align_measures alignment frame
  have slid := Line.align_slid ends alignment frame
  refine ⟨baseline, advance, maxSize, startsParagraph, Line.align_slides ends alignment frame,
    ?_, ?_, ?_, ?_, ?_, ?_⟩
  · rw [Line.align, ends]
    rfl
  · rintro rfl
    rw [Line.runs_align_of_still ends (.inl rfl)]
    rfl
  · rintro rfl
    refine ⟨_, _, slid, Line.greatest_of_slid ends slid, ?_⟩
    rw [frame.offset_center, Frame.middle, Scalar.half_eq_div_two]
    ring
  · rintro rfl
    refine ⟨_, slid, ?_⟩
    rw [← frame.offset_right stop]
    exact Line.greatest_of_slid ends slid
  · intro spreads
    rw [Line.runs_align_of_still ends (.inr spreads.distributed)]
    exact spreads.filledBy
  · intro distributed other
    rw [Line.runs_align_of_still ends (.inr distributed), Line.spreadRuns_of_not_spreads other]

/-- Two runs that overlap, the right one first, spread over a width. -/
theorem Line.align_aligned_crossed :
    let run (start width : ℝ) : Run ℝ := ⟨.white, 1, .bottom, start, width, [], []⟩
    let l : Line ℝ := ⟨0, 1, 1, true, [run 3 2, run 1 4], .empty⟩
    let frame : Frame ℝ := ⟨1, 2, some 12⟩
    l.runs ≠ [] ∧ frame.Spreads .distributed l.runs ∧
      l.Aligned .distributed frame (l.align .distributed frame) := by
  intro run l frame
  have filled : l.runs ≠ [] := List.cons_ne_nil _ _
  have room : (l.runs.map (·.width)).sum < 12 - frame.indent := by norm_num [l, run, frame]
  exact ⟨filled, ⟨rfl, le_refl 2, 12, rfl, room⟩, l.align_aligned filled .distributed frame⟩

end Lettering
