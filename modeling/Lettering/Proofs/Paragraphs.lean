import Lettering.Proofs.Correspondence
import Mathlib.Data.List.Pairwise
import Mathlib.Data.List.SplitBy

/-!
# Paragraphs of a block

A stream is cut at its paragraph breaks, the lines of its layout before each line that opens a
paragraph.  `Job.layout_paragraphs` says that the two cuts match: part by part the lines hold the
runs of the content between two breaks, and only a last part without content leaves no line.

The invariant is `Pass.Paragraphed`: with the open line counted as a line, there are always as
many paragraphs as parts of the stream so far, and each of them is well formed (`IsParagraph`).
-/

namespace Lettering

/-! ## Cutting lists -/

/-- An element that is no separator joins the last part. -/
theorem splitOnP_concat {β : Type} {isSep : β → Bool} {x : β} (inside : isSep x = false)
    (xs : List β) :
    ∃ earlier last, xs.splitOnP isSep = earlier ++ [last] ∧
      (xs ++ [x]).splitOnP isSep = earlier ++ [last ++ [x]] := by
  induction xs with
  | nil =>
    refine ⟨[], [], List.splitOnP_nil, ?_⟩
    exact List.splitOnP_eq_singleton fun y member => by
      rw [List.mem_singleton.mp member]
      exact inside
  | cons y rest ih =>
    obtain ⟨earlier, last, cut, grown⟩ := ih
    rw [List.cons_append, List.splitOnP_cons_eq_if_modifyHead, List.splitOnP_cons_eq_if_modifyHead,
      cut, grown]
    split
    · exact ⟨[] :: earlier, last, rfl, rfl⟩
    · cases earlier with
      | nil => exact ⟨[], y :: last, rfl, rfl⟩
      | cons first more => exact ⟨(y :: first) :: more, last, rfl, rfl⟩

theorem splitOnP_separator {β : Type} {isSep : β → Bool} {x : β} (separates : isSep x = true)
    (xs : List β) : (xs ++ [x]).splitOnP isSep = xs.splitOnP isSep ++ [[]] := by
  rw [List.splitOnP_append_cons xs [] separates, List.splitOnP_nil]

theorem map_splitOnP {β γ : Type} (isSep : γ → Bool) (f : β → γ) (xs : List β) :
    (xs.splitOnP fun x => isSep (f x)).map (List.map f) = (xs.map f).splitOnP isSep := by
  induction xs with
  | nil => rfl
  | cons x rest ih =>
    rw [List.map_cons, List.splitOnP_cons_eq_if_modifyHead, List.splitOnP_cons_eq_if_modifyHead,
      ← ih]
    split
    · rfl
    · cases rest.splitOnP fun x => isSep (f x) <;> rfl

/-- A cut of the images is the image of a cut. -/
theorem exists_flatten_of_map {β γ : Type} (f : β → γ) (parts : List (List γ)) {xs : List β}
    (images : xs.map f = parts.flatten) :
    ∃ cut : List (List β), cut.flatten = xs ∧ cut.map (List.map f) = parts := by
  induction parts generalizing xs with
  | nil => exact ⟨[], (List.map_eq_nil_iff.mp images).symm, rfl⟩
  | cons part rest ih =>
    obtain ⟨here, later, rfl, hereImages, laterImages⟩ := List.map_eq_append_iff.mp images
    obtain ⟨cut, flat, mapped⟩ := ih laterImages
    exact ⟨here :: cut, by rw [List.flatten_cons, flat], by rw [List.map_cons, hereImages, mapped]⟩

variable {α : Type}

/-! ## Paragraphs of lines and of tokens -/

/-- The lines of a block cut into paragraphs, before each line that opens one. -/
def Block.paragraphs (b : Block α) : List (List (Line α)) :=
  b.lines.splitBy fun _ next => !next.startsParagraph

/-- The parts of a stream between its paragraph breaks. -/
def segmentsOf (tokens : List (Token α)) : List (List (Token α)) :=
  tokens.splitOnP Token.isParagraphBreak

/-- The part of a stream after its last paragraph break. -/
def lastSegment (tokens : List (Token α)) : List (Token α) :=
  (segmentsOf tokens).getLastD []

/-- A well-formed paragraph: its first line opens it, no other line does, and a line without
runs is the only one. -/
def IsParagraph (part : List (Sketch α)) : Prop :=
  ∃ first rest, part = first :: rest ∧ first.startsParagraph = true ∧
    (∀ s ∈ rest, s.startsParagraph = false ∧ s.runs ≠ []) ∧ (first.runs = [] → rest = [])

theorem IsParagraph.single {s : Sketch α} (opens : s.startsParagraph = true) : IsParagraph [s] :=
  ⟨s, [], rfl, opens, by simp, fun _ => rfl⟩

/-- After a line with a run a paragraph goes on. -/
theorem IsParagraph.continue {before : List (Sketch α)} {s next : Sketch α}
    (part : IsParagraph (before ++ [s])) (filled : s.runs ≠ [])
    (continues : next.startsParagraph = false) (nextFilled : next.runs ≠ []) :
    IsParagraph (before ++ [s] ++ [next]) := by
  obtain ⟨first, rest, lines, opens, others, alone⟩ := part
  refine ⟨first, rest ++ [next], by rw [lines, List.cons_append], opens, ?_, ?_⟩
  · intro t member
    rcases List.mem_append.mp member with old | new
    · exact others t old
    · rw [List.mem_singleton.mp new]
      exact ⟨continues, nextFilled⟩
  · intro bare
    rw [alone bare] at lines
    have last : before = [] ∧ s = first := by
      cases before with
      | nil => exact ⟨rfl, (List.cons.inj lines).1⟩
      | cons b bs => simp at lines
    rw [last.2] at filled
    exact (filled bare).elim

/-- A paragraph may get more runs on its last line. -/
theorem IsParagraph.push {before : List (Sketch α)} {s : Sketch α}
    (part : IsParagraph (before ++ [s])) (m : Makeup α) :
    IsParagraph (before ++ [s.push m]) := by
  obtain ⟨first, rest, lines, opens, others, alone⟩ := part
  cases before with
  | nil =>
    obtain ⟨rfl, rfl⟩ := List.cons.inj lines
    exact .single opens
  | cons b bs =>
    obtain ⟨rfl, rfl⟩ := List.cons.inj lines
    refine ⟨b, bs ++ [s.push m], rfl, opens, ?_, ?_⟩
    · intro t member
      rcases List.mem_append.mp member with old | new
      · exact others t (List.mem_append_left _ old)
      · rw [List.mem_singleton.mp new]
        exact ⟨(others s (by simp)).1, by simp [Sketch.push]⟩
    · intro bare
      simp at alone
      exact (alone bare).elim

/-- Only a paragraph of one line has a last line without runs. -/
theorem IsParagraph.eq_nil_of_bare {before : List (Sketch α)} {s : Sketch α}
    (part : IsParagraph (before ++ [s])) (bare : s.runs = []) : before = [] := by
  obtain ⟨first, rest, lines, -, others, -⟩ := part
  cases before with
  | nil => rfl
  | cons b bs =>
    obtain ⟨rfl, rfl⟩ := List.cons.inj lines
    exact ((others s (by simp)).2 bare).elim

/-- Only the line that opens a paragraph can be without runs. -/
theorem IsParagraph.runs_of_continues {part : List (Sketch α)} {s : Sketch α}
    (wellFormed : IsParagraph part) (member : s ∈ part) (continues : s.startsParagraph = false) :
    s.runs ≠ [] := by
  obtain ⟨first, rest, rfl, opens, others, -⟩ := wellFormed
  rcases List.mem_cons.mp member with rfl | inRest
  · rw [opens] at continues
    cases continues
  · exact (others s inRest).2

theorem lastSegment_concat {t : Token α} (inside : t.isParagraphBreak = false)
    (tokens : List (Token α)) : lastSegment (tokens ++ [t]) = lastSegment tokens ++ [t] := by
  obtain ⟨earlier, last, cut, grown⟩ := splitOnP_concat inside tokens
  rw [lastSegment, segmentsOf, grown, List.getLastD_concat, lastSegment, segmentsOf, cut,
    List.getLastD_concat]

theorem lastSegment_paragraphBreak (tokens : List (Token α)) :
    lastSegment (tokens ++ [.paragraphBreak]) = [] := by
  rw [lastSegment, segmentsOf, splitOnP_separator rfl, List.getLastD_concat]

theorem length_segmentsOf (tokens : List (Token α)) :
    (segmentsOf tokens).length = tokens.countP Token.isParagraphBreak + 1 := by
  induction tokens with
  | nil => rfl
  | cons t rest ih =>
    rw [segmentsOf] at ih ⊢
    rw [List.splitOnP_cons_eq_if_modifyHead, List.countP_cons]
    split
    · rw [List.length_cons, ih]
    · rw [List.length_modifyHead, ih]

theorem getElem?_lastSegment (tokens : List (Token α)) :
    (segmentsOf tokens)[tokens.countP Token.isParagraphBreak]? = some (lastSegment tokens) := by
  have index : tokens.countP Token.isParagraphBreak = (segmentsOf tokens).length - 1 := by
    rw [length_segmentsOf]
    rfl
  have nonempty : segmentsOf tokens ≠ [] := List.splitOnP_ne_nil _ _
  rw [index, ← List.getLast?_eq_getElem?, lastSegment, List.getLastD_eq_getLast?,
    List.getLast?_eq_some_getLast nonempty]
  rfl

/-- Parts of which the first line alone opens a paragraph are what the lines are cut into. -/
theorem Block.paragraphs_eq {b : Block α} {cut : List (List (Line α))}
    (lines : b.lines = cut.flatten)
    (shape : ∀ part ∈ cut, ∃ first rest, part = first :: rest ∧ first.startsParagraph = true ∧
      ∀ l ∈ rest, l.startsParagraph = false) :
    b.paragraphs = cut := by
  rw [Block.paragraphs, lines]
  refine List.splitBy_flatten ?_ ?_ ?_
  · intro empty
    obtain ⟨first, rest, parted, -⟩ := shape [] empty
    cases parted
  · intro part member
    obtain ⟨first, rest, rfl, -, others⟩ := shape part member
    refine List.Pairwise.isChain (List.pairwise_cons.mpr ⟨?_, ?_⟩)
    · intro l inRest
      rw [others l inRest]
      rfl
    · refine List.pairwise_of_forall_mem_list fun l _ m inRest => ?_
      rw [others m inRest]
      rfl
  · refine List.Pairwise.isChain (List.pairwise_of_forall_mem_list fun part member next nextIn => ?_)
    obtain ⟨first, rest, rfl, -, -⟩ := shape part member
    obtain ⟨nextFirst, nextRest, rfl, opens, -⟩ := shape next nextIn
    refine ⟨List.cons_ne_nil _ _, List.cons_ne_nil _ _, ?_⟩
    rw [List.head_cons, opens]
    rfl

/-- Well-formed paragraphs are what the lines are cut into. -/
theorem Block.paragraphs_of_cut {b : Block α} {parts : List (List (Sketch α))}
    (lines : b.lines.map Line.sketch = parts.flatten)
    (wellFormed : ∀ part ∈ parts, IsParagraph part) :
    b.paragraphs.map (List.map Line.sketch) = parts := by
  obtain ⟨cut, flat, mapped⟩ := exists_flatten_of_map Line.sketch parts lines
  rw [Block.paragraphs_eq flat.symm, mapped]
  intro part member
  have image : part.map Line.sketch ∈ parts := by
    rw [← mapped]
    exact List.mem_map_of_mem member
  obtain ⟨first, rest, sketches, opens, others, -⟩ := wellFormed _ image
  obtain ⟨l, more, rfl, rfl, rfl⟩ := List.map_eq_cons_iff.mp sketches
  exact ⟨l, more, rfl, opens, fun m inRest => (others _ (List.mem_map_of_mem inRest)).1⟩

variable [Scalar α]

/-- The makeups of the content of a part of a styled stream. -/
def Job.contentMakeups (job : Job α) (stream : List (Style α × Token α)) : List (Makeup α) :=
  (styledContents stream).map fun e => job.contentMakeup e.1 e.2

theorem Job.contentMakeups_concat (job : Job α) (stream : List (Style α × Token α))
    (style : Style α) (t : Token α) :
    job.contentMakeups (stream ++ [(style, t)]) = job.contentMakeups stream ++
      (t.content?.map fun c => job.contentMakeup style c).toList := by
  rw [Job.contentMakeups, styledContents_concat, List.map_append]
  cases t.content? <;> rfl

/-- The parts of a text between its paragraph breaks, each token with the style in force. -/
def Job.segments (job : Job α) (tokens : List (Token α)) : List (List (Style α × Token α)) :=
  (job.styled tokens).splitOnP fun e => e.2.isParagraphBreak

/-- Content and quiet tokens join the last segment. -/
theorem Job.segments_concat (job : Job α) (tokens : List (Token α)) {t : Token α}
    (inside : t.isParagraphBreak = false) :
    ∃ earlier last, job.segments tokens = earlier ++ [last] ∧
      job.segments (tokens ++ [t]) =
        earlier ++ [last ++ [((job.passAfter tokens).style, t)]] := by
  rw [Job.segments, Job.segments, job.styled_concat]
  exact @splitOnP_concat _ (fun e : Style α × Token α => e.2.isParagraphBreak) _ inside _

/-- With the open line counted, the lines of a pass are the well-formed paragraphs `earlier` and
one that `current` begins, and these hold the content of the segments of the stream so far. -/
structure Pass.Paragraphed (job : Job α) (tokens : List (Token α)) (p : Pass α)
    (earlier : List (List (Sketch α))) (current : List (Sketch α)) : Prop where
  lines : p.lines.map Line.sketch = earlier.flatten ++ current
  wellFormed : ∀ part ∈ earlier, IsParagraph part
  last : IsParagraph (current ++ [p.cursor.sketch])
  runs : (earlier ++ [current ++ [p.cursor.sketch]]).map (List.flatMap Sketch.runs) =
    (job.segments tokens).map job.contentMakeups

variable {job : Job α} {tokens : List (Token α)} {t : Token α} {c : Content}
  {earlier : List (List (Sketch α))} {current grown : List (Sketch α)}

/-- A token inside a paragraph adds its content to the last part on both sides. -/
theorem Pass.Paragraphed.runs_concat
    (now : (job.passAfter tokens).Paragraphed job tokens earlier current)
    (inside : t.isParagraphBreak = false)
    (added : grown.flatMap Sketch.runs =
      (current ++ [(job.passAfter tokens).cursor.sketch]).flatMap Sketch.runs ++
        (t.content?.map fun c => job.contentMakeup (job.passAfter tokens).style c).toList) :
    (earlier ++ [grown]).map (List.flatMap Sketch.runs) =
      (job.segments (tokens ++ [t])).map job.contentMakeups := by
  obtain ⟨before, last, cut, cutGrown⟩ := job.segments_concat tokens inside
  have runs := now.runs
  rw [cut, List.map_append, List.map_append, List.map_singleton, List.map_singleton] at runs
  obtain ⟨runsEarlier, runsLast⟩ := List.append_inj' runs rfl
  rw [cutGrown, List.map_append, List.map_append, runsEarlier, List.map_singleton,
    List.map_singleton, added, (List.cons.inj runsLast).1, job.contentMakeups_concat]

theorem Pass.Paragraphed.place
    (now : (job.passAfter tokens).Paragraphed job tokens earlier current)
    (found : t.content? = some c) :
    ∃ current', ((job.passAfter tokens).place job c).Paragraphed job (tokens ++ [t])
      earlier current' := by
  have inside := Token.noBreak_of_content found
  cases breaks : (job.passAfter tokens).needsBreak job
      (job.contentWidth (job.passAfter tokens).style c) with
  | true =>
    obtain ⟨lines, cursor⟩ := Pass.place_of_needsBreak breaks
    have filled : (job.passAfter tokens).cursor.sketch.runs ≠ [] := fun bare =>
      Pass.runs_of_needsBreak breaks (List.map_eq_nil_iff.mp bare)
    refine ⟨current ++ [(job.passAfter tokens).cursor.sketch], ?_, now.wellFormed, ?_, ?_⟩
    · rw [lines, Pass.sketches, now.lines, List.append_assoc]
    · rw [cursor]
      exact now.last.continue filled rfl (by simp)
    · rw [cursor]
      exact now.runs_concat inside (by rw [List.flatMap_append, found]; rfl)
  | false =>
    obtain ⟨lines, cursor⟩ := Pass.place_of_fits breaks
    refine ⟨current, by rw [lines, now.lines], now.wellFormed, ?_, ?_⟩
    · rw [cursor]
      exact now.last.push _
    · rw [cursor]
      refine now.runs_concat inside ?_
      rw [List.flatMap_append, List.flatMap_append, List.flatMap_singleton,
        List.flatMap_singleton, List.append_assoc, found]
      rfl

/-- A paragraph break completes a paragraph and begins one without content. -/
theorem Pass.Paragraphed.breakParagraph
    (now : (job.passAfter tokens).Paragraphed job tokens earlier current) :
    ((job.passAfter tokens).breakParagraph job).Paragraphed job (tokens ++ [.paragraphBreak])
      (earlier ++ [current ++ [(job.passAfter tokens).cursor.sketch]]) [] := by
  constructor
  · show ((job.passAfter tokens).breakLine job true).lines.map Line.sketch = _
    rw [Pass.breakLine_lines, Pass.sketches, now.lines, List.flatten_append,
      List.flatten_singleton, List.append_nil, List.append_assoc]
  · intro part member
    rcases List.mem_append.mp member with old | new
    · exact now.wellFormed part old
    · rw [List.mem_singleton.mp new]
      exact now.last
  · exact .single rfl
  · rw [List.map_append, now.runs, Job.segments, Job.segments, job.styled_concat,
      splitOnP_separator rfl, List.map_append]
    rfl

theorem Pass.Paragraphed.step_quiet
    (now : (job.passAfter tokens).Paragraphed job tokens earlier current) (quiet : t.Quiet) :
    ((job.passAfter tokens).step job t).Paragraphed job (tokens ++ [t]) earlier current := by
  have same : (job.passAfter tokens).SameLines ((job.passAfter tokens).step job t) :=
    Pass.SameLines.step_quiet quiet
  have sketch : ((job.passAfter tokens).step job t).cursor.sketch =
      (job.passAfter tokens).cursor.sketch := by
    rw [Cursor.sketch, same.runs, same.startsParagraph, Cursor.sketch]
  refine ⟨by rw [same.lines, now.lines], now.wellFormed, by rw [sketch]; exact now.last, ?_⟩
  rw [sketch]
  exact now.runs_concat quiet.noBreak (by rw [quiet.content]; simp)

theorem Job.passAfter_paragraphed (job : Job α) (tokens : List (Token α)) :
    ∃ earlier current, (job.passAfter tokens).Paragraphed job tokens earlier current := by
  induction tokens using Job.passAfter_rec with
  | start => exact ⟨[], [], rfl, by simp, .single rfl, rfl⟩
  | content tokens t c ih found =>
    obtain ⟨earlier, current, now⟩ := ih
    exact ⟨earlier, now.place found⟩
  | paragraphBreak tokens ih =>
    obtain ⟨earlier, current, now⟩ := ih
    exact ⟨_, _, now.breakParagraph⟩
  | quiet tokens t ih quiet =>
    obtain ⟨earlier, current, now⟩ := ih
    exact ⟨_, _, now.step_quiet quiet⟩

/-! ## Paragraphs of a layout -/

theorem Job.map_snd_segments (job : Job α) (tokens : List (Token α)) :
    (job.segments tokens).map (List.map Prod.snd) = segmentsOf tokens := by
  have stream : (job.styled tokens).map Prod.snd = tokens := job.map_snd_styledFrom _ _
  rw [Job.segments, map_splitOnP Token.isParagraphBreak Prod.snd, stream, segmentsOf]

theorem Job.contentMakeups_eq_nil_iff (job : Job α) (stream : List (Style α × Token α)) :
    job.contentMakeups stream = [] ↔ contentsOf (stream.map Prod.snd) = [] := by
  rw [Job.contentMakeups, List.map_eq_nil_iff, ← map_snd_styledContents, List.map_eq_nil_iff]

/-- The last segment has content exactly if the last paragraph of the pass has a run. -/
theorem Pass.Paragraphed.lastSegment_eq_nil_iff
    (now : (job.passAfter tokens).Paragraphed job tokens earlier current) :
    contentsOf (lastSegment tokens) = [] ↔
      (current ++ [(job.passAfter tokens).cursor.sketch]).flatMap Sketch.runs = [] := by
  obtain ⟨before, last, parts⟩ : ∃ before last, job.segments tokens = before ++ [last] :=
    ⟨_, _, (List.dropLast_concat_getLast (List.splitOnP_ne_nil _ _)).symm⟩
  have runs := now.runs
  rw [parts, List.map_append, List.map_append, List.map_singleton, List.map_singleton] at runs
  obtain ⟨-, runsLast⟩ := List.append_inj' runs rfl
  have tokensLast : lastSegment tokens = last.map Prod.snd := by
    rw [lastSegment, ← job.map_snd_segments, parts, List.map_append, List.map_singleton,
      List.getLastD_concat]
  rw [tokensLast, ← job.contentMakeups_eq_nil_iff, (List.cons.inj runsLast).1]

/-- The open line has no run exactly while the last segment has no content. -/
theorem Pass.Paragraphed.runs_eq_nil_iff
    (now : (job.passAfter tokens).Paragraphed job tokens earlier current) :
    (job.passAfter tokens).cursor.runs = [] ↔ contentsOf (lastSegment tokens) = [] := by
  have sketch : (job.passAfter tokens).cursor.sketch.runs = [] ↔
      (job.passAfter tokens).cursor.runs = [] := List.map_eq_nil_iff
  rw [now.lastSegment_eq_nil_iff, ← sketch, List.flatMap_append, List.flatMap_singleton,
    List.append_eq_nil_iff]
  constructor
  · intro bare
    rw [now.last.eq_nil_of_bare bare]
    exact ⟨rfl, bare⟩
  · exact fun bare => bare.2

/-- The paragraphs of a layout, with the runs that they hold. -/
theorem Job.layout_cut (job : Job α) (tokens : List (Token α)) :
    (∀ part ∈ (job.layout tokens).paragraphs, IsParagraph (part.map Line.sketch)) ∧
      ((job.layout tokens).paragraphs.map fun part => (part.flatMap Line.runs).map Run.makeup) =
        if contentsOf (lastSegment tokens) = [] then
          ((job.segments tokens).map job.contentMakeups).dropLast
        else (job.segments tokens).map job.contentMakeups := by
  obtain ⟨earlier, current, now⟩ := job.passAfter_paragraphed tokens
  have runsOf (part : List (Line α)) :
      (part.flatMap Line.runs).map Run.makeup = (part.map Line.sketch).flatMap Sketch.runs := by
    rw [List.map_flatMap, List.flatMap_map]
    rfl
  have cut (parts : List (List (Sketch α)))
      (lines : (job.layout tokens).lines.map Line.sketch = parts.flatten)
      (wellFormed : ∀ part ∈ parts, IsParagraph part) :
      (∀ part ∈ (job.layout tokens).paragraphs, IsParagraph (part.map Line.sketch)) ∧
        ((job.layout tokens).paragraphs.map fun part => (part.flatMap Line.runs).map Run.makeup) =
          parts.map (List.flatMap Sketch.runs) := by
    have sketches := Block.paragraphs_of_cut lines wellFormed
    constructor
    · intro part member
      refine wellFormed _ ?_
      rw [← sketches]
      exact List.mem_map_of_mem member
    · simp only [runsOf]
      rw [← sketches, List.map_map]
      rfl
  have lines := job.layout_sketches tokens
  split at lines
  · next empty =>
    have bare : (job.passAfter tokens).cursor.sketch.runs = [] :=
      List.map_eq_nil_iff.mpr (List.isEmpty_iff.mp empty)
    have alone : current = [] := now.last.eq_nil_of_bare bare
    have noContent := now.runs_eq_nil_iff.mp (List.isEmpty_iff.mp empty)
    rw [if_pos noContent, ← now.runs, List.map_append, List.map_singleton, List.dropLast_concat]
    refine cut earlier ?_ now.wellFormed
    rw [lines, now.lines, alone, List.append_nil]
  · next filled =>
    have someContent : contentsOf (lastSegment tokens) ≠ [] := fun noContent =>
      filled (List.isEmpty_iff.mpr (now.runs_eq_nil_iff.mpr noContent))
    rw [if_neg someContent, ← now.runs]
    refine cut _ ?_ ?_
    · rw [lines, Pass.sketches, now.lines, List.flatten_append, List.flatten_singleton,
        List.append_assoc]
    · intro part member
      rcases List.mem_append.mp member with old | new
      · exact now.wellFormed part old
      · rw [List.mem_singleton.mp new]
        exact now.last

theorem Job.flatten_paragraphs (job : Job α) (tokens : List (Token α)) :
    (job.layout tokens).paragraphs.flatten = (job.layout tokens).lines :=
  List.flatten_splitBy _ _

/-- A line of a layout has a run unless it opens a paragraph. -/
theorem Job.runs_of_not_startsParagraph {job : Job α} {tokens : List (Token α)} {l : Line α}
    (member : l ∈ (job.layout tokens).lines) (continues : l.startsParagraph = false) :
    l.runs ≠ [] := by
  rw [← job.flatten_paragraphs] at member
  obtain ⟨part, inParts, inPart⟩ := List.mem_flatten.mp member
  have wellFormed := (job.layout_cut tokens).1 part inParts
  exact fun bare => wellFormed.runs_of_continues (List.mem_map_of_mem inPart) continues
    (List.map_eq_nil_iff.mpr bare)

/-- A paragraph of a layout, line by line. -/
theorem Job.paragraph_shape {job : Job α} {tokens : List (Token α)} {part : List (Line α)}
    (member : part ∈ (job.layout tokens).paragraphs) :
    ∃ l rest, part = l :: rest ∧ l.startsParagraph = true ∧
      (∀ m ∈ rest, m.startsParagraph = false ∧ m.runs ≠ []) ∧ (l.runs = [] → rest = []) := by
  obtain ⟨first, others, sketches, opens, continued, alone⟩ := (job.layout_cut tokens).1 part member
  obtain ⟨l, rest, rfl, rfl, rfl⟩ := List.map_eq_cons_iff.mp sketches
  refine ⟨l, rest, rfl, opens, fun m inRest => ?_, fun bare => ?_⟩
  · obtain ⟨flag, filled⟩ := continued _ (List.mem_map_of_mem inRest)
    exact ⟨flag, fun bare => filled (List.map_eq_nil_iff.mpr bare)⟩
  · exact List.map_eq_nil_iff.mp (alone (List.map_eq_nil_iff.mpr bare))

theorem Job.length_paragraphs (job : Job α) (tokens : List (Token α)) :
    (job.layout tokens).paragraphs.length = tokens.countP Token.isParagraphBreak +
      if contentsOf (lastSegment tokens) = [] then 0 else 1 := by
  have segments : (job.segments tokens).length = tokens.countP Token.isParagraphBreak + 1 := by
    rw [← length_segmentsOf, ← job.map_snd_segments, List.length_map]
  have length := congrArg List.length (job.layout_cut tokens).2
  rw [List.length_map] at length
  rw [length]
  split
  · rw [List.length_dropLast, List.length_map, segments]
    omega
  · rw [List.length_map, segments]

/-- The paragraph of an index holds the content of the segment of that index. -/
theorem Job.makeups_paragraph {job : Job α} {tokens : List (Token α)} {k : Nat}
    {part : List (Line α)} (found : (job.layout tokens).paragraphs[k]? = some part) :
    ∃ segment, (job.segments tokens)[k]? = some segment ∧
      (segmentsOf tokens)[k]? = some (segment.map Prod.snd) ∧
      (part.flatMap Line.runs).map Run.makeup = job.contentMakeups segment := by
  have image := congrArg (·[k]?) (job.layout_cut tokens).2
  simp only [List.getElem?_map, found, Option.map_some] at image
  have inAll : ((job.segments tokens).map job.contentMakeups)[k]? =
      some ((part.flatMap Line.runs).map Run.makeup) := by
    split at image
    · rw [List.getElem?_dropLast] at image
      split at image
      · exact image.symm
      · cases image
    · exact image.symm
  rw [List.getElem?_map] at inAll
  obtain ⟨segment, inSegments, makeups⟩ := Option.map_eq_some_iff.mp inAll
  refine ⟨segment, inSegments, ?_, makeups.symm⟩
  rw [← job.map_snd_segments, List.getElem?_map, inSegments, Option.map_some]

/-- A paragraph with a bare line is that line, and its segment has no content. -/
theorem Job.paragraph_of_bare {job : Job α} {tokens : List (Token α)} {k : Nat}
    {part : List (Line α)} {l : Line α}
    (found : (job.layout tokens).paragraphs[k]? = some part) (member : l ∈ part)
    (bare : l.runs = []) :
    part = [l] ∧ ∃ segment, (segmentsOf tokens)[k]? = some segment ∧ contentsOf segment = [] := by
  obtain ⟨first, rest, rfl, -, continued, alone⟩ :=
    Job.paragraph_shape (List.mem_of_getElem? found)
  obtain ⟨segment, -, inSegments, makeups⟩ := Job.makeups_paragraph found
  rcases List.mem_cons.mp member with rfl | inRest
  · rw [alone bare, List.flatMap_singleton, bare, List.map_nil, eq_comm,
      job.contentMakeups_eq_nil_iff] at makeups
    exact ⟨by rw [alone bare], _, inSegments, makeups⟩
  · exact ((continued l inRest).2 bare).elim

/-- The lines of a layout cut before each line that opens a paragraph, beside its stream cut at
the paragraph breaks. -/
structure Job.ParagraphsMatch (job : Job α) (tokens : List (Token α)) : Prop where
  /-- The first line opens a paragraph. -/
  first : ∀ l ∈ (job.layout tokens).lines.head?, l.startsParagraph = true
  /-- Each part starts at a line that opens a paragraph, and holds no other such line; every
  other line has a run. -/
  parts : ∀ part ∈ (job.layout tokens).paragraphs, ∃ l rest, part = l :: rest ∧
    l.startsParagraph = true ∧ ∀ m ∈ rest, m.startsParagraph = false
  continued : ∀ l ∈ (job.layout tokens).lines, l.startsParagraph = false → l.runs ≠ []
  /-- There are as many segments as breaks, and one more. -/
  segments : (segmentsOf tokens).length = tokens.countP Token.isParagraphBreak + 1
  /-- There is one part for each break, and one more if there is content after the last one. -/
  count : (job.layout tokens).paragraphs.length = tokens.countP Token.isParagraphBreak +
    if contentsOf (lastSegment tokens) = [] then 0 else 1
  /-- The runs of a part are, in order, those of the content tokens of its segment. -/
  runs : ∀ (k : Nat) part, (job.layout tokens).paragraphs[k]? = some part →
    ∃ segment, (job.segments tokens)[k]? = some segment ∧
      (segmentsOf tokens)[k]? = some (segment.map Prod.snd) ∧
      (part.flatMap Line.runs).map Run.makeup = job.contentMakeups segment
  /-- A line without runs is alone: its segment has no content and ends with a break. -/
  alone : ∀ (k : Nat) part, (job.layout tokens).paragraphs[k]? = some part → ∀ l ∈ part, l.runs = [] →
    part = [l] ∧ k < tokens.countP Token.isParagraphBreak ∧
      ∀ segment, (segmentsOf tokens)[k]? = some segment → contentsOf segment = []

/-- **The paragraphs of a block are those of its stream.** -/
theorem Job.layout_paragraphs (job : Job α) (tokens : List (Token α)) :
    job.ParagraphsMatch tokens := by
  constructor
  · intro l member
    rw [← job.flatten_paragraphs] at member
    cases parts : (job.layout tokens).paragraphs with
    | nil =>
      rw [parts] at member
      cases member
    | cons part others =>
      have foremost : part ∈ (job.layout tokens).paragraphs := by
        rw [parts]
        exact List.mem_cons_self
      obtain ⟨first, rest, rfl, opens, -, -⟩ := Job.paragraph_shape foremost
      rw [parts] at member
      cases member
      exact opens
  · intro part member
    obtain ⟨l, rest, lines, opens, continued, -⟩ := Job.paragraph_shape member
    exact ⟨l, rest, lines, opens, fun m inRest => (continued m inRest).1⟩
  · exact fun l member continues => Job.runs_of_not_startsParagraph member continues
  · exact length_segmentsOf tokens
  · exact job.length_paragraphs tokens
  · exact fun k part found => Job.makeups_paragraph found
  · intro k part found l member bare
    obtain ⟨lines, segment, inSegments, noContent⟩ := Job.paragraph_of_bare found member bare
    refine ⟨lines, ?_, ?_⟩
    · have bound := (List.getElem?_eq_some_iff.mp found).1
      rw [job.length_paragraphs] at bound
      split at bound
      · exact bound
      · -- The part at the end has content here, so it is not the one without.
        next someContent =>
        refine Nat.lt_of_le_of_ne (Nat.le_of_lt_succ bound) fun atEnd => someContent ?_
        rw [atEnd, getElem?_lastSegment] at inSegments
        rw [Option.some.inj inSegments]
        exact noContent
    · intro other inOther
      rw [inSegments] at inOther
      rw [← Option.some.inj inOther]
      exact noContent

end Lettering
