import Mathlib
import Lettering.Proofs.Bounds

/-!
# The spans of runs

A run takes an interval on its line, its *span*.  When a line closes all its spans move by one
distance (`Pass.spans_closedLine`), zero where the line is aligned to the left, unless distributed
alignment spreads the runs; and runs that are spread stand apart (`Pass.apart_closedLine`).
-/

namespace Lettering

variable {α : Type} [ExactScalar α]

/-- The interval that a run takes on its line. -/
def Run.span (r : Run α) : α × α := (r.startX, r.endX)

/-- No run starts before the end of the run before it. -/
def Apart (runs : List (Run α)) : Prop := runs.IsChain fun r s => r.endX ≤ s.startX

/-- The spans of runs that are moved by a distance. -/
def spansAt (dx : α) (runs : List (Run α)) : List (α × α) :=
  runs.map fun r => (r.startX + dx, r.endX + dx)

/-- The space in which the lines of a paragraph are aligned. -/
def Paragraph.frame (paragraph : Paragraph α) (width : α) (startsParagraph : Bool) : Frame α where
  leftMargin := paragraph.leftMargin
  indent := if startsParagraph then paragraph.indent else 0
  usable := paragraph.usableWidth width

/-- Distributed alignment spreads the runs of a line: there are two at least, and they leave room
between the margins. -/
structure Frame.Spreads (frame : Frame α) (alignment : HorizontalAlignment) (runs : List (Run α)) :
    Prop where
  distributed : alignment = .distributed
  several : 2 ≤ runs.length
  room : ∃ usable, frame.usable = some usable ∧
    (runs.map (·.width)).sum < usable - frame.indent

/-! ## Moved runs -/

theorem Run.span_shift (r : Run α) (dx dy : α) :
    (r.shift dx dy).span = (r.startX + dx, r.endX + dx) :=
  Prod.ext rfl (add_right_comm _ _ _)

theorem spansAt_zero (runs : List (Run α)) : spansAt 0 runs = runs.map Run.span := by
  simp only [spansAt, add_zero]
  rfl

theorem spans_shift (runs : List (Run α)) (dx : α) (dy : Run α → α) :
    (runs.map fun r => r.shift dx (dy r)).map Run.span = spansAt dx runs := by
  rw [List.map_map]
  exact List.map_congr_left fun r _ => r.span_shift dx (dy r)

/-- Spans that are moved depend on the spans alone. -/
theorem spansAt_congr {runs others : List (Run α)} (same : others.map Run.span = runs.map Run.span)
    (dx : α) : spansAt dx others = spansAt dx runs := by
  have moved := congrArg (List.map fun a : α × α => (a.1 + dx, a.2 + dx)) same
  rw [List.map_map, List.map_map] at moved
  exact moved

theorem exists_of_spansAt {runs others : List (Run α)} {dx : α} {i : Nat} {r : Run α}
    (spans : others.map Run.span = spansAt dx runs) (found : runs[i]? = some r) :
    ∃ s, others[i]? = some s ∧ s.startX = r.startX + dx ∧ s.endX = r.endX + dx := by
  have here := congrArg (·[i]?) spans
  simp only [spansAt, List.getElem?_map, found, Option.map_some] at here
  obtain ⟨s, inOthers, span⟩ := Option.map_eq_some_iff.mp here
  exact ⟨s, inOthers, congrArg Prod.fst span, congrArg Prod.snd span⟩

/-- Spans decide whether runs stand apart. -/
theorem apart_iff_spans (runs : List (Run α)) :
    Apart runs ↔ (runs.map Run.span).IsChain fun a b => a.2 ≤ b.1 :=
  (List.isChain_map (R := fun a b : α × α => a.2 ≤ b.1) Run.span).symm

theorem Apart.spansAt {runs : List (Run α)} (apart : Apart runs) (dx : α) :
    (spansAt dx runs).IsChain fun a b => a.2 ≤ b.1 :=
  (List.isChain_map _).mpr (apart.imp fun _ _ le => add_le_add_left le dx)

/-! ## Spread runs -/

/-- Neighbours among runs that are placed a gap apart are that far apart. -/
theorem isChain_spreadFrom (gap pen : α) (runs : List (Run α)) :
    (spreadFrom gap pen runs).IsChain fun r s => s.startX - r.endX = gap := by
  induction runs generalizing pen with
  | nil => exact .nil
  | cons r rest ih =>
    have tail := ih (pen + (r.width + gap))
    cases rest with
    | nil => exact .singleton _
    | cons s more =>
      refine .cons_cons ?_ tail
      show s.startX + (pen + (r.width + gap) - s.startX) -
        (r.startX + (pen - r.startX) + r.width) = gap
      ring

/-- Runs placed a gap apart stand apart. -/
theorem apart_spreadFrom {gap : α} (nonneg : 0 ≤ gap) (pen : α) (runs : List (Run α)) :
    Apart (spreadFrom gap pen runs) :=
  (isChain_spreadFrom gap pen runs).imp fun _ _ apart => sub_nonneg.mp (apart ▸ nonneg)

theorem Frame.Spreads.congr {frame : Frame α} {alignment : HorizontalAlignment}
    {runs others : List (Run α)} (same : others.map Run.makeup = runs.map Run.makeup)
    (spreads : frame.Spreads alignment runs) : frame.Spreads alignment others := by
  have widths : others.map (·.width) = runs.map (·.width) := by
    have images := congrArg (List.map Makeup.width) same
    rw [List.map_map, List.map_map] at images
    exact images
  have count : others.length = runs.length := by
    rw [← List.length_map (f := Run.makeup), same, List.length_map]
  exact ⟨spreads.distributed, count ▸ spreads.several, widths ▸ spreads.room⟩

/-- The gaps between runs that are spread take up the room that the runs leave. -/
theorem Line.spreadRuns_of_spreads {l : Line α} {alignment : HorizontalAlignment} {frame : Frame α}
    (spreads : frame.Spreads alignment l.runs) :
    ∃ usable gap, frame.usable = some usable ∧ 0 < gap ∧
      (l.runs.map (·.width)).sum + (l.runs.length - 1) * gap = usable - frame.indent ∧
      l.spreadRuns alignment frame = spreadFrom gap frame.start l.runs := by
  obtain ⟨rfl, several, usable, found, room⟩ := spreads
  have count : ((l.runs.length - 1 : Int) : α) = l.runs.length - 1 := by push_cast; rfl
  have positive : (0 : α) < l.runs.length - 1 := by
    rw [← count, Int.cast_pos]
    omega
  have content : Scalar.sum (l.runs.map (·.width)) = (l.runs.map (·.width)).sum :=
    Scalar.sum_eq_sum _
  refine ⟨usable, (usable - frame.indent - (l.runs.map (·.width)).sum) / (l.runs.length - 1), found,
    div_pos (sub_pos.mpr room) positive, ?_, ?_⟩
  · rw [mul_div_cancel₀ _ positive.ne']
    ring
  · simp only [Line.spreadRuns, found, spread, content]
    rw [if_neg (not_or.mpr ⟨several.not_gt, room.not_ge⟩), ← count]
    rfl

theorem Line.apart_spreadRuns {l : Line α} {alignment : HorizontalAlignment} {frame : Frame α}
    (spreads : frame.Spreads alignment l.runs) : Apart (l.spreadRuns alignment frame) := by
  obtain ⟨usable, gap, -, positive, -, runs⟩ := Line.spreadRuns_of_spreads spreads
  rw [runs]
  exact apart_spreadFrom positive.le _ _

theorem Line.spreadRuns_of_not_spreads {l : Line α} {alignment : HorizontalAlignment}
    {frame : Frame α} (unspread : ¬ frame.Spreads alignment l.runs) :
    l.spreadRuns alignment frame = l.runs := by
  unfold Line.spreadRuns
  split
  · next usable found =>
    rw [spread, Scalar.sum_eq_sum]
    refine if_pos (or_iff_not_imp_left.mpr fun several => not_lt.mp fun room => unspread ?_)
    exact ⟨rfl, not_lt.mp several, usable, found, room⟩
  · rfl

/-! ## Aligned lines -/

/-- Alignment spreads the runs of a line or moves all of them by the offset of its frame. -/
theorem Line.runs_align {l : Line α} {stop : α} (ends : l.contentEnd = some stop)
    (alignment : HorizontalAlignment) (frame : Frame α) :
    (l.align alignment frame).runs =
      (l.spreadRuns alignment frame).map fun r => r.shift (frame.offset alignment stop) 0 := by
  rw [Line.align, ends]
  show (if frame.offset alignment stop != 0 then _ else _ : List (Run α)) = _
  split
  · rfl
  · next still =>
    have zero : frame.offset alignment stop = 0 := by simpa using still
    simp only [zero, Run.shift_zero, List.map_id']

theorem Line.spans_align_of_contentEnd {l : Line α} {stop : α} (ends : l.contentEnd = some stop)
    (alignment : HorizontalAlignment) (frame : Frame α) :
    (l.align alignment frame).runs.map Run.span =
      spansAt (frame.offset alignment stop) (l.spreadRuns alignment frame) := by
  rw [Line.runs_align ends]
  exact spans_shift _ _ _

/-- Alignment moves all runs of a line by one distance, after it has spread them. -/
theorem Line.spans_align (l : Line α) (alignment : HorizontalAlignment) (frame : Frame α) :
    ∃ dx, (alignment = .left ∨ alignment = .distributed → dx = 0) ∧
      (l.align alignment frame).runs.map Run.span = spansAt dx (l.spreadRuns alignment frame) := by
  cases ends : l.contentEnd with
  | none =>
    have none : l.runs = [] := by
      unfold Line.contentEnd at ends
      split at ends
      · assumption
      · cases ends
    have unspread : ¬ frame.Spreads alignment l.runs := fun spreads => by
      have := spreads.several
      rw [none, List.length_nil] at this
      omega
    refine ⟨0, fun _ => rfl, ?_⟩
    rw [Line.spreadRuns_of_not_spreads unspread, spansAt_zero, Line.align, ends]
  | some stop =>
    refine ⟨frame.offset alignment stop, ?_, Line.spans_align_of_contentEnd ends _ _⟩
    rintro (rfl | rfl) <;> rfl

/-! ## Closed lines -/

variable {job : Job α} {p : Pass α}

/-- A line that closes is aligned in the frame of the paragraph in force. -/
theorem Pass.frame_eq (job : Job α) (p : Pass α) :
    p.frame job = p.paragraph.frame job.entity.width p.cursor.startsParagraph := rfl

/-- A line rises as it closes, which leaves the spans of its runs alone. -/
theorem Pass.spans_line (job : Job α) (p : Pass α) :
    (p.cursor.line job.leading p.style.effectiveSize).runs.map Run.span =
      p.cursor.runs.map Run.span :=
  (spans_shift _ _ _).trans (spansAt_zero _)

/-- What moves when a line closes: all spans by one distance, unless the runs are spread. -/
theorem Pass.spans_closedLine
    (unspread : ¬ (p.frame job).Spreads p.paragraph.alignment p.cursor.runs) :
    ∃ dx, (p.paragraph.alignment = .left ∨ p.paragraph.alignment = .distributed → dx = 0) ∧
      (p.closedLine job).runs.map Run.span = spansAt dx p.cursor.runs := by
  have raised : (p.cursor.line job.leading p.style.effectiveSize).runs.map Run.makeup =
      p.cursor.runs.map Run.makeup := shifts_makeups _ _ _
  obtain ⟨dx, still, spans⟩ := Line.spans_align (p.cursor.line job.leading p.style.effectiveSize)
    p.paragraph.alignment (p.frame job)
  rw [Line.spreadRuns_of_not_spreads fun spreads => unspread (spreads.congr raised.symm)] at spans
  exact ⟨dx, still, spans.trans (spansAt_congr (p.spans_line job) dx)⟩

/-- Runs that are spread when their line closes stand apart. -/
theorem Pass.apart_closedLine
    (spreads : (p.frame job).Spreads p.paragraph.alignment p.cursor.runs) :
    Apart (p.closedLine job).runs := by
  have raised : (p.cursor.line job.leading p.style.effectiveSize).runs.map Run.makeup =
      p.cursor.runs.map Run.makeup := shifts_makeups _ _ _
  obtain ⟨dx, -, spans⟩ := Line.spans_align (p.cursor.line job.leading p.style.effectiveSize)
    p.paragraph.alignment (p.frame job)
  rw [apart_iff_spans, Pass.closedLine, spans]
  exact (Line.apart_spreadRuns (spreads.congr raised)).spansAt dx

end Lettering
