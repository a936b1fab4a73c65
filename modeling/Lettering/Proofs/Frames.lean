import Mathlib
import Lettering.Font.BoxFonts
import Lettering.Proofs.Closing
import Lettering.Proofs.Plumb
import Lettering.Proofs.Spans
import Lettering.Proofs.Wrapping

/-!
# The frame of a line

A line is begun by the first token that moves its pen (`Job.Begins`): the pen starts at the left
margin, and at the indent where the line opens a paragraph.  Margin and indent are read again when
the line closes, for the frame that it is aligned in.  `Job.layout_frames` says what comes of the
two readings: the frame starts where a line of the paragraph starts that is in force at the end of
the line, so it starts with the pen if no paragraph command comes between, and else it misses the
pen by what the commands have changed (`Job.frame_misses_pen`).

A centered line is centered about the space between the start of its frame and its end, so it stands
off the middle by half of what the frame misses.
-/

namespace Lettering

section Lawless

variable {α : Type} [Scalar α]

/-- Where the lines of a paragraph start: its first line at the indent. -/
def Paragraph.lineStart (paragraph : Paragraph α) (opens : Bool) : α :=
  paragraph.leftMargin + if opens then paragraph.indent else 0

theorem Pass.start_frame (job : Job α) (p : Pass α) :
    (p.frame job).start = p.paragraph.lineStart p.cursor.startsParagraph := rfl

/-- Where on the plane the pen stands when a token comes to move it. -/
def Pass.penBefore (job : Job α) (t : Token α) (p : Pass α) : α :=
  match t.content? with
  | some c => (p.ready job c).penX
  | none => p.beginContent.penX

/-- A token begins a line: it is the first of its paragraph that moves the pen, and the line opens
the paragraph, or it is content that has to go to a new line. -/
inductive Job.Begins (job : Job α) (before : List (Token α)) (t : Token α) : Bool → Prop
  | paragraph (moves : t.movesPen = true) (first : lastMove before = none) :
    Job.Begins job before t true
  | wrap {c : Content} (content : t.content? = some c) (must : job.MustWrap before c) :
    Job.Begins job before t false

/-- A line behind others closes when a part of a stream is read: at the next token, or at the end
of the stream. -/
structure Job.Closes (job : Job α) (tokens upto : List (Token α)) (earlier : List (Line α))
    (l : Line α) : Prop where
  earlier : (job.passAfter upto).lines = earlier
  line : (job.passAfter upto).closedLine job = l
  next : upto = tokens ∨ ∃ t rest, tokens = upto ++ t :: rest ∧
    (job.passAfter (upto ++ [t])).lines = (job.passAfter upto).lines ++ [l]

/-! ## Where lines close -/

variable {job : Job α} {tokens upto before within : List (Token α)} {t : Token α}
  {earlier later : List (Line α)} {l : Line α}

theorem Job.exists_closing_step (lines : (job.passAfter tokens).lines = earlier ++ l :: later) :
    ∃ upto t rest, tokens = upto ++ t :: rest ∧ (job.passAfter upto).lines = earlier ∧
      (job.passAfter upto).closedLine job = l ∧
      (job.passAfter (upto ++ [t])).lines = earlier ++ [l] := by
  induction tokens using List.reverseRecOn generalizing later with
  | nil => exact (List.append_ne_nil_of_right_ne_nil _ (List.cons_ne_nil _ _) lines.symm).elim
  | append_singleton tokens t ih =>
    have older (later : List (Line α))
        (lines : (job.passAfter tokens).lines = earlier ++ l :: later) :
        ∃ upto u rest, tokens ++ [t] = upto ++ u :: rest ∧ (job.passAfter upto).lines = earlier ∧
          (job.passAfter upto).closedLine job = l ∧
          (job.passAfter (upto ++ [u])).lines = earlier ++ [l] := by
      obtain ⟨upto, u, rest, rfl, facts⟩ := ih lines
      exact ⟨upto, u, rest ++ [t], by rw [List.append_assoc, List.cons_append], facts⟩
    rw [job.passAfter_concat] at lines
    rcases (job.passAfter tokens).lines_step job t with same | closed
    · rw [same] at lines
      exact older later lines
    · rw [closed] at lines
      rcases concat_eq_append_cons lines with ⟨done, line⟩ | ⟨later, known⟩
      · refine ⟨tokens, t, [], rfl, done, line, ?_⟩
        rw [job.passAfter_concat, closed, done, line]
      · exact older later known

/-- Every line of a layout closes somewhere in the stream or at its end. -/
theorem Job.exists_closes (lines : (job.layout tokens).lines = earlier ++ l :: later) :
    ∃ upto, job.Closes tokens upto earlier l := by
  have closed (later : List (Line α))
      (lines : (job.passAfter tokens).lines = earlier ++ l :: later) :
      ∃ upto, job.Closes tokens upto earlier l := by
    obtain ⟨upto, t, rest, stream, before, line, after⟩ := Job.exists_closing_step lines
    exact ⟨upto, before, line, .inr ⟨t, rest, stream, before ▸ after⟩⟩
  rw [job.layout_lines_closed] at lines
  split at lines
  · rw [List.append_nil] at lines
    exact closed later lines
  · rcases concat_eq_append_cons lines with ⟨done, line⟩ | ⟨later, known⟩
    · exact ⟨tokens, done, line, .inl rfl⟩
    · exact closed later known

theorem Job.Closes.startsParagraph (closes : job.Closes tokens upto earlier l) :
    l.startsParagraph = (job.passAfter upto).cursor.startsParagraph := by
  rw [← closes.line]
  exact congrArg Sketch.startsParagraph (Pass.sketch_closedLine job _)

/-! ## Where lines begin -/

/-- The open line was begun by a token, or nothing is on it yet. -/
inductive Job.Opened (job : Job α) (tokens : List (Token α)) : Prop
  | fresh (still : lastMove tokens = none)
    (opens : (job.passAfter tokens).cursor.startsParagraph = true)
  | begun (before : List (Token α)) (t : Token α) (within : List (Token α))
    (stream : tokens = before ++ t :: within)
    (inside : ∀ u ∈ within, u.isParagraphBreak = false)
    (begins : job.Begins before t (job.passAfter tokens).cursor.startsParagraph)
    (lines : (job.passAfter (before ++ [t])).lines = (job.passAfter tokens).lines)

/-- A token that keeps the lines begins the open line, or the open line stays as it was. -/
theorem Job.Opened.concat (opened : job.Opened tokens) (inside : t.isParagraphBreak = false)
    (lines : (job.passAfter (tokens ++ [t])).lines = (job.passAfter tokens).lines)
    (flag : (job.passAfter (tokens ++ [t])).cursor.startsParagraph =
      (job.passAfter tokens).cursor.startsParagraph) : job.Opened (tokens ++ [t]) := by
  cases opened with
  | fresh still opens =>
    cases moves : t.movesPen with
    | true =>
      refine .begun tokens t [] rfl (List.forall_mem_nil _) ?_ rfl
      rw [flag, opens]
      exact .paragraph moves still
    | false => exact .fresh (by rw [lastMove_concat_still inside moves, still]) (flag.trans opens)
  | begun before u within stream inner begins first =>
    refine .begun before u (within ++ [t]) ?_ ?_ (flag ▸ begins) (first.trans lines.symm)
    · rw [← List.cons_append, ← List.append_assoc, ← stream]
    · exact List.forall_mem_append.mpr ⟨inner, List.forall_mem_singleton.mpr inside⟩

theorem Job.passAfter_opened (job : Job α) (tokens : List (Token α)) : job.Opened tokens := by
  induction tokens using List.reverseRecOn with
  | nil => exact .fresh rfl rfl
  | append_singleton tokens t ih =>
    have step := job.passAfter_concat tokens t
    rcases t.kinds with ⟨c, found⟩ | rfl | quiet
    · rw [Pass.step_content found] at step
      cases breaks : (job.passAfter tokens).needsBreak job
          (job.contentWidth (job.passAfter tokens).style c) with
      | true =>
        have flag : (job.passAfter (tokens ++ [t])).cursor.startsParagraph = false := by
          rw [step]
          exact congrArg Sketch.startsParagraph (Pass.place_of_needsBreak breaks).2
        refine .begun tokens t [] rfl (List.forall_mem_nil _) ?_ rfl
        rw [flag]
        exact .wrap found ((job.needsBreak_iff_mustWrap tokens c).mp breaks)
      | false =>
        refine ih.concat (Token.noBreak_of_content found) ?_ ?_
        · rw [step, Pass.lines_place_of_fits breaks]
        · rw [step]
          exact congrArg Sketch.startsParagraph (Pass.place_of_fits breaks).2
    · refine .fresh ?_ (by rw [step]; rfl)
      rw [lastMove, lastSegment_paragraphBreak]
      rfl
    · have same : (job.passAfter tokens).SameLines (job.passAfter (tokens ++ [t])) := by
        rw [step]
        exact .step_quiet quiet
      exact ih.concat quiet.noBreak same.lines same.startsParagraph

/-- A paragraph in which nothing has moved the pen has no run. -/
theorem Job.runs_of_still (still : lastMove tokens = none) :
    (job.passAfter tokens).cursor.runs = [] := by
  refine (job.runs_passAfter_eq_nil_iff tokens).mpr ?_
  refine List.filterMap_eq_nil_iff.mpr fun t member => Token.content?_of_still ?_
  rw [lastMove, List.getLast?_eq_none_iff, List.filter_eq_nil_iff] at still
  exact Bool.eq_false_iff.mpr (still t member)

/-- A line with a run was begun by a token. -/
theorem Job.Opened.exists_begins (opened : job.Opened tokens)
    (filled : (job.passAfter tokens).cursor.runs ≠ []) :
    ∃ before t within, tokens = before ++ t :: within ∧
      (∀ u ∈ within, u.isParagraphBreak = false) ∧
      job.Begins before t (job.passAfter tokens).cursor.startsParagraph ∧
      (job.passAfter (before ++ [t])).lines = (job.passAfter tokens).lines := by
  cases opened with
  | fresh still opens => exact (filled (Job.runs_of_still still)).elim
  | begun before t within stream inside begins lines =>
    exact ⟨before, t, within, stream, inside, begins, lines⟩

theorem Job.Begins.movesPen {opens : Bool} (begins : job.Begins before t opens) :
    t.movesPen = true := by
  cases begins with
  | paragraph moves first => exact moves
  | wrap content must =>
    cases still : t.movesPen with
    | true => rfl
    | false =>
      rw [Token.content?_of_still still] at content
      cases content

theorem Job.Begins.inside {opens : Bool} (begins : job.Begins before t opens) :
    t.isParagraphBreak = false := Token.noBreak_of_movesPen begins.movesPen

/-- The pen of a line starts where a line starts of the paragraph in force at the token that begins
it. -/
theorem Job.Begins.penBefore {opens : Bool} (begins : job.Begins before t opens) :
    (job.passAfter before).penBefore job t = (job.paragraphAt before).lineStart opens := by
  rw [← job.paragraph_passAfter]
  cases begins with
  | paragraph moves first =>
    have fresh : (job.passAfter before).phase = .atParagraphBreak := by
      rw [job.phase_passAfter, first]
      rfl
    have bare : (job.passAfter before).cursor.isLineEmpty = true :=
      List.isEmpty_iff.mpr (Job.runs_of_still first)
    have begun : (job.passAfter before).beginContent.penX =
        (job.passAfter before).paragraph.lineStart true := by
      rw [Pass.beginContent, if_pos ⟨fresh, bare⟩]
      rfl
    rw [Pass.penBefore]
    cases t.content? with
    | none => exact begun
    | some c =>
      have fits : (job.passAfter before).needsBreak job
          (job.contentWidth (job.passAfter before).style c) = false := by
        simp [Pass.needsBreak, fresh]
      show ((job.passAfter before).ready job c).penX = _
      rw [Pass.ready_of_fits fits]
      exact begun
  | wrap content must =>
    have breaks := (job.needsBreak_iff_mustWrap before _).mpr must
    rw [Pass.penBefore, content]
    show ((job.passAfter before).ready job _).penX = _
    rw [Pass.penX_ready, Pass.ready_of_needsBreak breaks]
    rfl

/-- Without a paragraph command a paragraph stays as it is up to its end. -/
theorem Job.paragraphAt_append (inside : ∀ t ∈ within, t.isParagraphBreak = false)
    (noCommand : ∀ change, Token.format (.paragraph change) ∉ within) :
    job.paragraphAt (before ++ within) = job.paragraphAt before := by
  induction within using List.reverseRecOn with
  | nil => rw [List.append_nil]
  | append_singleton within t ih =>
    rw [← List.append_assoc, job.paragraphAt_concat,
      ih (fun u member => inside u (List.mem_append_left _ member))
        fun change member => noCommand change (List.mem_append_left _ member)]
    refine job.paragraphAfter_of_inside _ (inside t List.mem_concat_self) fun change command => ?_
    exact noCommand change (command ▸ List.mem_concat_self)

/-- A line that closes with a run had one while it was open. -/
theorem Pass.runs_of_closedLine (p : Pass α) (closes : p.closedLine job = l)
    (filled : l.runs ≠ []) : p.cursor.runs ≠ [] := by
  intro bare
  have makeups : l.runs.map Run.makeup = p.cursor.runs.map Run.makeup := by
    rw [← closes]
    exact congrArg Sketch.runs (p.sketch_closedLine job)
  rw [bare] at makeups
  exact filled (List.map_eq_nil_iff.mp makeups)

/-- A line with a run from the token that begins it to where it closes.  `before` is the stream up
to that token, `within` what comes after it on the line. -/
structure Job.Extent (job : Job α) (tokens : List (Token α)) (earlier : List (Line α)) (l : Line α)
    (before : List (Token α)) (t : Token α) (within : List (Token α)) : Prop where
  filled : l.runs ≠ []
  closes : job.Closes tokens (before ++ t :: within) earlier l
  begins : job.Begins before t l.startsParagraph
  opened : (job.passAfter (before ++ [t])).lines = earlier
  /-- The pen starts by the paragraph in force where the line begins. -/
  pen : (job.passAfter before).penBefore job t =
    (job.paragraphAt before).lineStart l.startsParagraph
  /-- The frame starts by the paragraph in force where the line closes. -/
  frame : ((job.passAfter (before ++ t :: within)).frame job).start =
    (job.paragraphAt (before ++ t :: within)).lineStart l.startsParagraph
  /-- They start together if no paragraph command comes in between. -/
  steady : (∀ change, Token.format (.paragraph change) ∉ within) →
    ((job.passAfter (before ++ t :: within)).frame job).start =
      (job.passAfter before).penBefore job t

theorem Job.Closes.extent (closes : job.Closes tokens (before ++ t :: within) earlier l)
    (filled : l.runs ≠ []) (inside : ∀ u ∈ within, u.isParagraphBreak = false)
    (begins : job.Begins before t l.startsParagraph)
    (opened : (job.passAfter (before ++ [t])).lines = earlier) :
    job.Extent tokens earlier l before t within := by
  have frame : ((job.passAfter (before ++ t :: within)).frame job).start =
      (job.paragraphAt (before ++ t :: within)).lineStart l.startsParagraph := by
    rw [Pass.start_frame, job.paragraph_passAfter, closes.startsParagraph]
  refine ⟨filled, closes, begins, opened, begins.penBefore, frame, fun noCommand => ?_⟩
  have steady : job.paragraphAt (before ++ t :: within) = job.paragraphAt before := by
    refine Job.paragraphAt_append (List.forall_mem_cons.mpr ⟨begins.inside, inside⟩) ?_
    intro change member
    rcases List.mem_cons.mp member with command | later
    · have moves := begins.movesPen
      rw [← command] at moves
      cases moves
    · exact noCommand change later
  rw [frame, begins.penBefore, steady]

/-- Every line with a run reaches from a token that begins it to where it closes. -/
theorem Job.exists_extent (lines : (job.layout tokens).lines = earlier ++ l :: later)
    (filled : l.runs ≠ []) : ∃ before t within, job.Extent tokens earlier l before t within := by
  obtain ⟨upto, closes⟩ := Job.exists_closes lines
  have pending := (job.passAfter upto).runs_of_closedLine closes.line filled
  obtain ⟨before, t, within, rfl, inside, begins, opened⟩ :=
    (job.passAfter_opened upto).exists_begins pending
  rw [← closes.startsParagraph] at begins
  exact ⟨before, t, within, closes.extent filled inside begins (opened.trans closes.earlier)⟩

end Lawless

variable {α : Type} [ExactScalar α]

/-! ## Centered lines -/

/-- The middle between the margins, the left margin where lines do not wrap. -/
def Frame.middle (frame : Frame α) : α :=
  frame.leftMargin + Scalar.half (frame.usable.getD 0)

theorem Frame.offset_center (frame : Frame α) (stop : α) :
    frame.offset .center stop = frame.middle - (frame.start + stop) / 2 := by
  rw [Frame.middle]
  unfold Frame.offset
  cases frame.usable with
  | none => simp [Scalar.half_eq_div_two]
  | some usable => simp [Scalar.half_eq_div_two]

theorem Line.contentEnd_eq_max? (l : Line α) : l.contentEnd = (l.runs.map Run.endX).max? := by
  have greater : (Scalar.greater : α → α → α) = max := funext₂ Scalar.greater_eq_max
  rw [Line.contentEnd_eq, greater]
  cases l.runs.map Run.endX with
  | nil => rfl
  | cons stop rest => exact List.max?_cons'.symm

theorem Line.exists_contentEnd {l : Line α} (filled : l.runs ≠ []) :
    ∃ stop, l.contentEnd = some stop := by
  rw [l.contentEnd_eq_max?]
  refine Option.isSome_iff_exists.mp (List.isSome_max?_iff.mpr ?_)
  exact mt List.map_eq_nil_iff.mp filled

/-- The content of a line that is moved ends as much further. -/
theorem Line.contentEnd_of_spans {l m : Line α} {dx : α}
    (spans : m.runs.map Run.span = spansAt dx l.runs) :
    m.contentEnd = l.contentEnd.map (· + dx) := by
  have ends : m.runs.map Run.endX = (l.runs.map Run.endX).map (· + dx) := by
    have seconds := congrArg (List.map Prod.snd) spans
    rw [spansAt, List.map_map, List.map_map] at seconds
    rw [List.map_map]
    exact seconds
  rw [Line.contentEnd_eq, Line.contentEnd_eq, ends]
  cases l.runs with
  | nil => rfl
  | cons r rest =>
    exact congrArg some (Scalar.foldl_greater_map add_left_strictMono.monotone r.endX _)

/-- A centered line moves so that its middle, from the start of its frame, comes to the middle
between the margins. -/
theorem Pass.center_closedLine (job : Job α) {p : Pass α} (filled : p.cursor.runs ≠ [])
    (centered : p.paragraph.alignment = .center) :
    ∃ dx stop, (p.closedLine job).runs.map Run.span = spansAt dx p.cursor.runs ∧
      (p.closedLine job).contentEnd = some stop ∧
      ((p.frame job).start + dx + stop) / 2 = (p.frame job).middle := by
  have level := p.spans_line job
  obtain ⟨stop, ends⟩ :
      ∃ stop, (p.cursor.line job.leading p.style.effectiveSize).contentEnd = some stop :=
    Line.exists_contentEnd (mt List.map_eq_nil_iff.mp filled)
  let dx := (p.frame job).offset .center stop
  have spans : (p.closedLine job).runs.map Run.span =
      spansAt dx (p.cursor.line job.leading p.style.effectiveSize).runs := by
    rw [Pass.closedLine, centered]
    exact Line.spans_align_of_contentEnd ends _ _
  refine ⟨dx, stop + dx, spans.trans (spansAt_congr level dx), ?_, ?_⟩
  · rw [Line.contentEnd_of_spans spans, ends]
    rfl
  · have offset : dx = (p.frame job).middle - ((p.frame job).start + stop) / 2 :=
      Frame.offset_center _ _
    rw [offset]
    ring

/-- **A line is aligned in the frame of the paragraph in force where it closes**, while its pen
starts by the paragraph in force where it begins.  So a centered line is off the middle by half of
what its frame misses the pen by. -/
theorem Job.layout_frames {β : Type} [Scalar β] (job : Job β) (tokens : List (Token β)) :
    (∀ earlier l later, (job.layout tokens).lines = earlier ++ l :: later → l.runs ≠ [] →
      ∃ before t within, job.Extent tokens earlier l before t within) ∧
    ∀ {α : Type} [ExactScalar α] (job : Job α) (tokens : List (Token α)) (earlier : List (Line α))
      (l : Line α) (before : List (Token α)) (t : Token α) (within : List (Token α)),
      job.Extent tokens earlier l before t within →
      (job.paragraphAt (before ++ t :: within)).alignment = .center →
        let closing := job.passAfter (before ++ t :: within)
        let pen := (job.passAfter before).penBefore job t
        ∃ dx stop, l.runs.map Run.span = spansAt dx closing.cursor.runs ∧
          l.contentEnd = some stop ∧
          (pen + dx + stop) / 2 =
            (closing.frame job).middle + (pen - (closing.frame job).start) / 2 := by
  constructor
  · intro earlier l later lines filled
    exact Job.exists_extent lines filled
  · intro α _ job tokens earlier l before t within extent centered closing pen
    have line := extent.closes.line
    rw [← job.paragraph_passAfter] at centered
    obtain ⟨dx, stop, spans, ends, middle⟩ :=
      closing.center_closedLine job (closing.runs_of_closedLine line extent.filled) centered
    rw [line] at spans ends
    refine ⟨dx, stop, spans, ends, ?_⟩
    rw [← middle]
    ring

/-! ## One word between two commands -/

/-- One word with a paragraph command on either side makes one line, of one run, which starts with
the pen until the line is aligned. -/
theorem Job.layout_single (job : Job α) (text : WordText) (inked : text.isEmpty = false)
    (change change' : ParagraphChange α) :
    let before : List (Token α) := [.format (.paragraph change)]
    let within : List (Token α) := [.format (.paragraph change')]
    let tokens := before ++ .word text :: within
    ∃ l r, (job.layout tokens).lines = [l] ∧ l.runs = [r] ∧ l.startsParagraph = true ∧
      job.Extent tokens [] l before (.word text) within ∧
      (job.passAfter tokens).cursor.runs.map Run.startX =
        [(job.passAfter before).penBefore job (.word text)] := by
  intro before within tokens
  have fits : (job.passAfter before).needsBreak job
      (job.contentWidth (job.passAfter before).style (.word text)) = false := rfl
  have placed : job.passAfter (before ++ [.word text]) =
      (job.passAfter before).place job (.word text) := by
    rw [job.passAfter_concat, Pass.step_content (Token.content?_word inked)]
  have after : job.passAfter tokens =
      ((job.passAfter before).place job (.word text)).step job (.format (.paragraph change')) := by
    rw [← placed, ← job.passAfter_concat, List.append_assoc]
    rfl
  have opened : (job.passAfter (before ++ [.word text])).lines = [] := by
    rw [placed, Pass.lines_place_of_fits fits]
    rfl
  have bare : (job.passAfter tokens).lines = [] := by
    rw [after, ← opened, placed]
    rfl
  have begins : job.Begins before (.word text) true :=
    .paragraph (by simpa [Token.movesPen] using inked) rfl
  have runs : (job.passAfter tokens).cursor.runs =
      [job.contentRun (job.passAfter before).style (.word text)
        ((job.passAfter before).paragraph.leftMargin +
          (job.passAfter before).beginContent.cursor.pen)] := by
    rw [after]
    exact Pass.runs_place_of_fits fits
  have start : (job.passAfter before).paragraph.leftMargin +
      (job.passAfter before).beginContent.cursor.pen =
        (job.passAfter before).penBefore job (.word text) := by
    rw [begins.penBefore, ← job.paragraph_passAfter]
    rfl
  rw [start] at runs
  let l := (job.passAfter tokens).closedLine job
  have makeups : l.runs.map Run.makeup = (job.passAfter tokens).cursor.runs.map Run.makeup :=
    congrArg Sketch.runs (Pass.sketch_closedLine job _)
  rw [runs, List.map_singleton] at makeups
  obtain ⟨r, rest, lineRuns, -, none⟩ := List.map_eq_cons_iff.mp makeups
  rw [List.map_eq_nil_iff.mp none] at lineRuns
  have opens : l.startsParagraph = true := by
    refine (congrArg Sketch.startsParagraph (Pass.sketch_closedLine job _)).trans ?_
    rw [after]
    exact congrArg Sketch.startsParagraph (Pass.place_of_fits fits).2
  have closes : job.Closes tokens tokens [] l := ⟨bare, rfl, .inl rfl⟩
  refine ⟨l, r, ?_, lineRuns, opens, closes.extent ?_ ?_ (opens ▸ begins) opened, ?_⟩
  · rw [job.layout_lines_closed, bare, Cursor.isLineEmpty, runs]
    rfl
  · rw [lineRuns]
    exact List.cons_ne_nil _ _
  · exact List.forall_mem_singleton.mpr rfl
  · rw [runs, List.map_singleton, Resources.startX_contentRun]

/-- A word set in from a margin, on a centered line. -/
theorem Job.layout_frames_indented :
    let job : Job ℝ :=
      { fonts := BoxFonts.standard.source
        palette := fun _ => none
        colors := {}
        settings := Settings.standard
        entity := Entity.standard }
    let before : List (Token ℝ) :=
      [.format (.paragraph { alignment := some .center, left := some 1, indent := some 2 })]
    let within : List (Token ℝ) := [.format (.paragraph {})]
    let tokens := before ++ .word (.text "ab") :: within
    ∃ l, ((job.layout tokens).lines = [] ++ l :: [] ∧ l.runs ≠ [] ∧
        ∃ before t within, job.Extent tokens [] l before t within) ∧
      job.Extent tokens [] l before (.word (.text "ab")) within ∧
      (job.paragraphAt tokens).alignment = .center ∧
      ∃ dx stop, l.runs.map Run.span = spansAt dx (job.passAfter tokens).cursor.runs ∧
        l.contentEnd = some stop ∧
        ((job.passAfter before).penBefore job (.word (.text "ab")) + dx + stop) / 2 =
          ((job.passAfter tokens).frame job).middle +
            ((job.passAfter before).penBefore job (.word (.text "ab")) -
              ((job.passAfter tokens).frame job).start) / 2 := by
  intro job before within tokens
  obtain ⟨l, r, lines, -, -, extent, -⟩ := job.layout_single (.text "ab") rfl
    { alignment := some .center, left := some 1, indent := some 2 } {}
  obtain ⟨extents, centers⟩ := job.layout_frames tokens
  exact ⟨l, ⟨lines, extent.filled, extents [] l [] lines extent.filled⟩, extent, rfl,
    centers job tokens [] l before _ within extent rfl⟩

/-- An indent that comes behind the only word of a centered line: the pen starts at 0 and the frame
at 2, and the word stands about -1 where the margin is 0. -/
theorem Job.frame_misses_pen :
    let job : Job ℝ :=
      { fonts := BoxFonts.standard.source
        palette := fun _ => none
        colors := {}
        settings := Settings.standard
        entity := Entity.standard }
    let before : List (Token ℝ) := [.format (.paragraph { alignment := some .center })]
    let within : List (Token ℝ) := [.format (.paragraph { indent := some 2 })]
    let tokens := before ++ .word (.text "ab") :: within
    ∃ l r, (job.layout tokens).lines = [l] ∧ l.runs = [r] ∧
      job.Extent tokens [] l before (.word (.text "ab")) within ∧
      (job.passAfter before).penBefore job (.word (.text "ab")) = 0 ∧
      ((job.passAfter tokens).frame job).start = 2 ∧
      ((job.passAfter tokens).frame job).middle = 0 ∧ (r.startX + r.endX) / 2 = -1 := by
  intro job before within tokens
  obtain ⟨l, r, lines, runs, opens, extent, starts⟩ := job.layout_single (.text "ab") rfl
    { alignment := some .center } { indent := some 2 }
  have pen : (job.passAfter before).penBefore job (.word (.text "ab")) = 0 := by
    rw [extent.pen, opens]
    exact add_zero (0 : ℝ)
  have start : ((job.passAfter tokens).frame job).start = 2 := by
    rw [extent.frame, opens]
    exact zero_add (2 : ℝ)
  have middle : ((job.passAfter tokens).frame job).middle = 0 := by
    have unbounded : ((job.passAfter tokens).frame job).usable = none := if_neg (lt_irrefl (0 : ℝ))
    rw [Frame.middle, unbounded]
    show (0 : ℝ) + Scalar.half 0 = 0
    norm_num [Scalar.half_eq_div_two]
  have pending := (job.passAfter tokens).runs_of_closedLine extent.closes.line extent.filled
  obtain ⟨dx, stop, spans, ends, centered⟩ := Pass.center_closedLine job pending rfl
  rw [show (job.passAfter tokens).closedLine job = l from extent.closes.line] at spans ends
  have startX : r.startX = dx := by
    have firsts := congrArg (List.map Prod.fst) spans
    have moved : (spansAt dx (job.passAfter tokens).cursor.runs).map Prod.fst =
        ((job.passAfter tokens).cursor.runs.map Run.startX).map (· + dx) := by
      rw [spansAt, List.map_map, List.map_map]
      rfl
    rw [moved, starts, pen, runs] at firsts
    exact (List.cons.inj firsts).1.trans (zero_add dx)
  have endX : r.endX = stop := by
    rw [Line.contentEnd, runs] at ends
    exact Option.some.inj ends
  refine ⟨l, r, lines, runs, extent, pen, start, middle, ?_⟩
  rw [start, middle] at centered
  rw [startX, endX]
  linarith

end Lettering
