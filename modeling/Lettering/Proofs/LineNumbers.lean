import Lettering.Proofs.Correspondence

/-!
# Line numbers

For each run of a block, in order, the number of the line on which it stands.  A run keeps the
number of the line that was open when it was emitted, so between two tokens the numbers only grow
at the end (`Pass.lineNumbers_place`).
-/

namespace Lettering

variable {α : Type}

/-- The numbers of the lines on which the runs stand, by the counts of runs of the lines. -/
def lineNumbersOf (counts : List Nat) : List Nat :=
  counts.zipIdx.flatMap fun e => List.replicate e.1 e.2

theorem lineNumbersOf_concat (counts : List Nat) (n : Nat) :
    lineNumbersOf (counts ++ [n]) = lineNumbersOf counts ++ List.replicate n counts.length := by
  rw [lineNumbersOf, List.zipIdx_append, List.flatMap_append, List.zipIdx_singleton,
    List.flatMap_singleton, Nat.zero_add, lineNumbersOf]

/-- The number of the line of each run, in the order of the runs. -/
def Block.lineNumbers (b : Block α) : List Nat :=
  lineNumbersOf (b.lines.map (·.runs.length))

/-- The numbers of the lines of the runs so far. -/
def Pass.lineNumbers (p : Pass α) : List Nat :=
  lineNumbersOf (p.sketches.map (·.runs.length))

theorem Pass.SameLines.lineNumbers {p q : Pass α} (same : p.SameLines q) :
    q.lineNumbers = p.lineNumbers := by
  rw [Pass.lineNumbers, same.sketches, Pass.lineNumbers]

variable [Scalar α]

/-- Content gets the number of the line that is open once it is placed. -/
theorem Pass.lineNumbers_place (job : Job α) (c : Content) (p : Pass α) :
    (p.place job c).lineNumbers = p.lineNumbers ++ [(p.place job c).lines.length] := by
  cases breaks : p.needsBreak job (job.contentWidth p.style c) with
  | true =>
    obtain ⟨lines, cursor⟩ := Pass.place_of_needsBreak breaks
    rw [Pass.lineNumbers, Pass.sketches, List.map_append, List.map_singleton,
      lineNumbersOf_concat, List.length_map, List.length_map, lines, cursor]
    rfl
  | false =>
    obtain ⟨-, cursor⟩ := Pass.place_of_fits breaks
    rw [Pass.lineNumbers, Pass.sketches, Pass.lines_place_of_fits breaks, cursor, List.map_append,
      List.map_singleton, lineNumbersOf_concat, List.length_map, List.length_map, Pass.lineNumbers,
      Pass.sketches, List.map_append, List.map_singleton, lineNumbersOf_concat, List.length_map,
      List.length_map, List.append_assoc, Sketch.push, List.length_append, List.length_singleton,
      List.replicate_succ']

theorem Pass.lineNumbers_breakParagraph (job : Job α) (p : Pass α) :
    (p.breakParagraph job).lineNumbers = p.lineNumbers := by
  rw [Pass.lineNumbers, Pass.breakParagraph_sketches, List.map_append, List.map_singleton,
    lineNumbersOf_concat, Pass.lineNumbers]
  exact List.append_nil _

/-- A layout numbers its runs as the pass after its stream does. -/
theorem Job.layout_lineNumbers (job : Job α) (tokens : List (Token α)) :
    (job.layout tokens).lineNumbers = (job.passAfter tokens).lineNumbers := by
  have counts (b : Block α) :
      b.lineNumbers = lineNumbersOf ((b.lines.map Line.sketch).map (·.runs.length)) := by
    rw [Block.lineNumbers, List.map_map]
    congr 1
    exact List.map_congr_left fun l _ => (List.length_map _).symm
  rw [counts, job.layout_sketches]
  split
  · next empty =>
    have bare : (job.passAfter tokens).cursor.sketch.runs = [] :=
      List.map_eq_nil_iff.mpr (List.isEmpty_iff.mp empty)
    rw [Pass.lineNumbers, Pass.sketches, List.map_append, List.map_singleton, lineNumbersOf_concat,
      bare]
    exact (List.append_nil _).symm
  · rfl

/-- A token numbers its own content and leaves all earlier numbers as they are. -/
theorem Pass.lineNumbers_step (job : Job α) (p : Pass α) (t : Token α) :
    (p.step job t).lineNumbers =
      p.lineNumbers ++ (t.content?.map fun _ => (p.step job t).lines.length).toList := by
  rcases t.kinds with ⟨c, found⟩ | rfl | quiet
  · rw [Pass.step_content found, Pass.lineNumbers_place, found]
    rfl
  · exact (Pass.lineNumbers_breakParagraph job p).trans (List.append_nil _).symm
  · rw [(Pass.SameLines.step_quiet quiet).lineNumbers, quiet.content]
    exact (List.append_nil _).symm

theorem Job.lineNumbers_prefix (job : Job α) (before after : List (Token α)) :
    (job.passAfter before).lineNumbers <+: (job.passAfter (before ++ after)).lineNumbers := by
  induction after using List.reverseRecOn with
  | nil => simp only [List.append_nil, List.prefix_rfl]
  | append_singleton after t ih =>
    rw [← List.append_assoc, job.passAfter_concat, Pass.lineNumbers_step]
    exact ih.trans (List.prefix_append _ _)

/-- There is one number for each content token. -/
theorem Job.length_lineNumbers (job : Job α) (tokens : List (Token α)) :
    (job.passAfter tokens).lineNumbers.length = (contentsOf tokens).length := by
  induction tokens using List.reverseRecOn with
  | nil => rfl
  | append_singleton tokens t ih =>
    rw [job.passAfter_concat, Pass.lineNumbers_step, contentsOf_concat, List.length_append,
      List.length_append, ih]
    cases t.content? <;> rfl

/-- The number of the line of a content token in a whole layout. -/
theorem Job.lineNumber_of_content (job : Job α) (before after : List (Token α)) {t : Token α}
    {c : Content} (found : t.content? = some c) :
    (job.layout (before ++ t :: after)).lineNumbers[(contentsOf before).length]? =
      some ((job.passAfter before).place job c).lines.length := by
  obtain ⟨later, numbers⟩ := job.lineNumbers_prefix (before ++ [t]) after
  rw [job.passAfter_concat, Pass.step_content found, Pass.lineNumbers_place, List.append_assoc,
    List.append_assoc, List.singleton_append] at numbers
  rw [job.layout_lineNumbers, ← List.singleton_append, ← numbers, ← job.length_lineNumbers]
  exact (List.getElem?_append_right (Nat.le_refl _)).trans (by rw [Nat.sub_self]; rfl)

end Lettering
