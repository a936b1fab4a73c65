import Lettering.Proofs.Content

/-!
# Formatting commands

What a command does, component by component.  `Job.restyle` is what it does to the active style
and `Job.restack` what it does to the stack of styles; neither looks at the paragraph or at the
incidents (`Job.styles_apply`).

`Job.styled` pairs every token of a stream with the style in force when it is reached, from the
formatting commands alone: `Job.styles_passAfter` says that the pass is in this style there.  What a
stream adds to the incidents is what there is to report about each token in the style in force
(`Pass.incidents_run`).
-/

namespace Lettering

variable {α : Type}

/-- The content tokens among styled tokens. -/
def styledContents (stream : List (Style α × Token α)) : List (Style α × Content) :=
  stream.filterMap fun e => e.2.content?.map (e.1, ·)

theorem styledContents_concat (stream : List (Style α × Token α)) (style : Style α)
    (t : Token α) :
    styledContents (stream ++ [(style, t)]) =
      styledContents stream ++ (t.content?.map (style, ·)).toList := by
  rw [styledContents, List.filterMap_append]
  rfl

theorem map_snd_styledContents (stream : List (Style α × Token α)) :
    (styledContents stream).map Prod.snd = contentsOf (stream.map Prod.snd) := by
  induction stream with
  | nil => rfl
  | cons e rest ih =>
    rw [styledContents, contentsOf, List.map_cons, List.filterMap_cons, List.filterMap_cons]
    cases e.2.content? with
    | none => exact ih
    | some c => exact congrArg (c :: ·) ih

/-- Every style of a stack, active or saved, has a property. -/
structure StyleStack.All (P : Style α → Prop) (styles : StyleStack α) : Prop where
  active : P styles.active
  saved : ∀ s ∈ styles.saved, P s

variable [Scalar α]

/-! ## Commands, component by component -/

/-- What a command does to the active style. -/
def Job.restyle (job : Job α) (s : Style α) : Command α → Style α
  | .font name bold italic => s.setFont (job.resolveFont name s.fontKind) bold italic
  | .color request => { s with color := job.resolveColor request }
  | .widthFactor scale => s.setWidthFactor job scale
  | .height scale => s.setHeight scale
  | .tracking scale => s.setTracking scale
  | .oblique angle => s.setOblique angle
  | .underline on => { s with underline := on }
  | .overline on => { s with overline := on }
  | .strikeThrough on => { s with strikeThrough := on }
  | .charAlignment alignment => { s with charAlignment := alignment }
  | .groupOpen | .groupClose | .paragraph _ | .unknown _ => s

/-- What a command does to the styles of all open groups. -/
def Job.restack (job : Job α) (styles : StyleStack α) : Command α → StyleStack α
  | .groupOpen => styles.push
  | .groupClose => styles.pop
  | command => styles.modify fun s => job.restyle s command

theorem Job.styles_apply (job : Job α) (f : Formatting α) (command : Command α) :
    (job.apply f command).styles = job.restack f.styles command := by
  cases command <;> rfl

/-! ## The style in force -/

/-- The formatting after a token: commands act on it, nothing else does. -/
def Job.formatted (job : Job α) (f : Formatting α) : Token α → Formatting α
  | .format command => job.apply f command
  | _ => f

/-- The tokens of a stream, each with the style in force when it is reached. -/
def Job.styledFrom (job : Job α) : Formatting α → List (Token α) → List (Style α × Token α)
  | _, [] => []
  | f, t :: rest => (f.style, t) :: job.styledFrom (job.formatted f t) rest

/-- The tokens of a whole text, each with the style in force when it is reached. -/
def Job.styled (job : Job α) (tokens : List (Token α)) : List (Style α × Token α) :=
  job.styledFrom job.baseFormatting tokens

theorem Job.styledFrom_concat (job : Job α) (f : Formatting α) (tokens : List (Token α))
    (t : Token α) :
    job.styledFrom f (tokens ++ [t]) =
      job.styledFrom f tokens ++ [((tokens.foldl job.formatted f).style, t)] := by
  induction tokens generalizing f with
  | nil => rfl
  | cons u rest ih => rw [List.cons_append, Job.styledFrom, ih]; rfl

theorem Job.map_snd_styledFrom (job : Job α) (f : Formatting α) (tokens : List (Token α)) :
    (job.styledFrom f tokens).map Prod.snd = tokens := by
  induction tokens generalizing f with
  | nil => rfl
  | cons t rest ih => rw [Job.styledFrom, List.map_cons, ih]

/-! ## Passes keep to the style in force -/

/-- A token acts on the styles by its command alone. -/
theorem Pass.styles_step (job : Job α) (p : Pass α) (t : Token α) :
    (p.step job t).formatting.styles = (job.formatted p.formatting t).styles := by
  cases found : t.content? with
  | some c =>
    have unformatted : job.formatted p.formatting t = p.formatting := by
      cases t with
      | format command => cases found
      | _ => rfl
    rw [Pass.step_content found, unformatted, Pass.formatting_place]
    rfl
  | none =>
    cases t with
    | word text =>
      rw [Pass.step_emptyWord found]
      rfl
    | stack e => cases found
    | space | nonBreakingSpace | tab =>
      exact congrArg Formatting.styles p.formatting_beginContent
    | paragraphBreak => rfl
    | format command => rfl

theorem Job.styles_formatted {f g : Formatting α} (job : Job α) (same : f.styles = g.styles)
    (t : Token α) : (job.formatted f t).styles = (job.formatted g t).styles := by
  cases t with
  | format command =>
    show (job.apply f command).styles = (job.apply g command).styles
    rw [Job.styles_apply, Job.styles_apply, same]
  | _ => exact same

/-- After a stream the pass has the styles that the commands of the stream leave. -/
theorem Job.styles_passAfter (job : Job α) (tokens : List (Token α)) :
    (job.passAfter tokens).formatting.styles =
      (tokens.foldl job.formatted job.baseFormatting).styles := by
  induction tokens using List.reverseRecOn with
  | nil => rfl
  | append_singleton tokens t ih =>
    rw [job.passAfter_concat, Pass.styles_step, List.foldl_append]
    exact job.styles_formatted ih t

/-- The styles in force depend on the styles at the start alone. -/
theorem Job.styledFrom_congr {f g : Formatting α} (job : Job α) (same : f.styles = g.styles)
    (tokens : List (Token α)) : job.styledFrom f tokens = job.styledFrom g tokens := by
  induction tokens generalizing f g with
  | nil => rfl
  | cons t rest ih =>
    have style : f.style = g.style := congrArg StyleStack.active same
    rw [Job.styledFrom, Job.styledFrom, style, ih (job.styles_formatted same t)]

theorem Job.styled_concat (job : Job α) (tokens : List (Token α)) (t : Token α) :
    job.styled (tokens ++ [t]) = job.styled tokens ++ [((job.passAfter tokens).style, t)] := by
  have style :
      (job.passAfter tokens).style = (tokens.foldl job.formatted job.baseFormatting).style :=
    congrArg StyleStack.active (job.styles_passAfter tokens)
  rw [Job.styled, Job.styledFrom_concat, style]
  rfl

section Contents

variable {tokens : List (Token α)} {t : Token α} {c : Content}

theorem Job.styledContents_silent (job : Job α) (silent : t.content? = none) :
    styledContents (job.styled (tokens ++ [t])) = styledContents (job.styled tokens) := by
  rw [job.styled_concat, styledContents_concat, silent]
  exact List.append_nil _

theorem Job.styledContents_content (job : Job α) (found : t.content? = some c) :
    styledContents (job.styled (tokens ++ [t])) =
      styledContents (job.styled tokens) ++ [((job.passAfter tokens).style, c)] := by
  rw [job.styled_concat, styledContents_concat, found]
  rfl

end Contents

/-! ## The paragraph in force -/

/-- The paragraph properties after a token: a break brings back the plain ones. -/
def Job.paragraphAfter (job : Job α) (paragraph : Paragraph α) : Token α → Paragraph α
  | .paragraphBreak => .plain job.entity.attachment.alignment
  | .format (.paragraph change) => paragraph.apply change
  | _ => paragraph

/-- The paragraph properties that a stream leaves. -/
def Job.paragraphAt (job : Job α) (tokens : List (Token α)) : Paragraph α :=
  tokens.foldl job.paragraphAfter (.plain job.entity.attachment.alignment)

theorem Job.paragraphAt_concat (job : Job α) (tokens : List (Token α)) (t : Token α) :
    job.paragraphAt (tokens ++ [t]) = job.paragraphAfter (job.paragraphAt tokens) t :=
  List.foldl_append

/-- Only commands and breaks change paragraph properties. -/
theorem Job.paragraphAfter_of_inside {t : Token α} (job : Job α) (paragraph : Paragraph α)
    (inside : t.isParagraphBreak = false) (noCommand : ∀ change, t ≠ .format (.paragraph change)) :
    job.paragraphAfter paragraph t = paragraph := by
  cases t with
  | paragraphBreak => cases inside
  | format command =>
    cases command with
    | paragraph change => exact (noCommand change rfl).elim
    | _ => rfl
  | _ => rfl

theorem Pass.paragraph_place (job : Job α) (c : Content) (p : Pass α) :
    (p.place job c).paragraph = p.paragraph := by
  rw [Pass.paragraph, p.formatting_place job c]
  rfl

theorem Pass.penX_ready (job : Job α) (c : Content) (p : Pass α) :
    (p.ready job c).penX = p.paragraph.leftMargin + (p.ready job c).cursor.pen := by
  rw [← p.paragraph_place job c]
  rfl

/-- Content that fits starts at the pen, from the left margin in force. -/
theorem Pass.runs_place_of_fits {job : Job α} {c : Content} {p : Pass α}
    (fits : p.needsBreak job (job.contentWidth p.style c) = false) :
    (p.place job c).cursor.runs = p.cursor.runs ++
      [job.contentRun p.style c (p.paragraph.leftMargin + p.beginContent.cursor.pen)] := by
  rw [Pass.runs_place, Pass.penX_ready, Pass.ready_of_fits fits]
  exact congrArg (· ++ _) (Pass.SameLines.beginContent p).runs

/-- Content that has to go to a new line starts at the left margin in force. -/
theorem Pass.runs_place_of_needsBreak {job : Job α} {c : Content} {p : Pass α}
    (breaks : p.needsBreak job (job.contentWidth p.style c) = true) :
    (p.place job c).cursor.runs = [job.contentRun p.style c (p.paragraph.leftMargin + 0)] := by
  rw [Pass.runs_place, Pass.penX_ready, Pass.ready_of_needsBreak breaks]
  rfl

/-- A token acts on the paragraph properties as a command or as a break. -/
theorem Pass.paragraph_step (job : Job α) (p : Pass α) (t : Token α) :
    (p.step job t).paragraph = job.paragraphAfter p.paragraph t := by
  cases t with
  | word text =>
    cases found : (Token.word text : Token α).content? with
    | some c =>
      rw [Pass.step_content found, Pass.paragraph_place]
      rfl
    | none =>
      rw [Pass.step_emptyWord found]
      rfl
  | stack e => exact p.paragraph_place job (.stack e)
  | space | nonBreakingSpace | tab => exact congrArg Formatting.paragraph p.formatting_beginContent
  | paragraphBreak => rfl
  | format command => cases command <;> rfl

theorem Job.paragraph_passAfter (job : Job α) (tokens : List (Token α)) :
    (job.passAfter tokens).paragraph = job.paragraphAt tokens := by
  induction tokens using List.reverseRecOn with
  | nil => rfl
  | append_singleton tokens t ih =>
    rw [job.passAfter_concat, Pass.paragraph_step, ih, job.paragraphAt_concat]

/-! ## Incidents -/

/-- What there is to report about a token in a style. -/
def Job.incidentsAt (job : Job α) (style : Style α) : Token α → List Incident
  | .format (.font name bold italic) => job.fontCommandIncidents name bold italic style.fontKind
  | t => (t.content?.map (job.contentIncidents style)).getD []

theorem Job.incidentsAt_content {t : Token α} {c : Content} (job : Job α) (style : Style α)
    (found : t.content? = some c) : job.incidentsAt style t = job.contentIncidents style c := by
  cases t with
  | format command => cases found
  | _ =>
    rw [Job.incidentsAt, found]
    · rfl
    · exact nofun

/-- A token adds what there is to report about it in the style in force, and nothing else. -/
theorem Pass.incidents_step (job : Job α) (p : Pass α) (t : Token α) :
    (p.step job t).formatting.incidents =
      p.formatting.incidents ++ job.incidentsAt p.style t := by
  cases found : t.content? with
  | some c =>
    rw [Pass.step_content found, Pass.formatting_place, job.incidentsAt_content p.style found]
    rfl
  | none =>
    have silent (nothing : job.incidentsAt p.style t = [])
        (kept : (p.step job t).formatting.incidents = p.formatting.incidents) :
        (p.step job t).formatting.incidents =
          p.formatting.incidents ++ job.incidentsAt p.style t := by
      rw [nothing, kept, List.append_nil]
    cases t with
    | word text =>
      refine silent ?_ (by rw [Pass.step_emptyWord found])
      rw [Job.incidentsAt, found]
      · rfl
      · exact nofun
    | stack e => cases found
    | space | nonBreakingSpace | tab =>
      exact silent rfl (congrArg Formatting.incidents p.formatting_beginContent)
    | paragraphBreak => exact silent rfl rfl
    | format command =>
      cases command with
      | font name bold italic => rfl
      | _ => exact silent rfl rfl

/-- A stream adds what there is to report about its tokens, each in the style in force there. -/
theorem Pass.incidents_run (job : Job α) (p : Pass α) (tokens : List (Token α)) :
    (p.run job tokens).formatting.incidents = p.formatting.incidents ++
      (job.styledFrom p.formatting tokens).flatMap fun e => job.incidentsAt e.1 e.2 := by
  induction tokens generalizing p with
  | nil => exact (List.append_nil _).symm
  | cons t rest ih =>
    show ((p.step job t).run job rest).formatting.incidents = _
    rw [ih, Pass.incidents_step, job.styledFrom_congr (p.styles_step job t) rest,
      List.append_assoc, Job.styledFrom, List.flatMap_cons]
    rfl

/-- The diagnostics of a layout count the incidents of its pass. -/
theorem Job.diagnostics_layout (job : Job α) (tokens : List (Token α)) :
    (job.layout tokens).diagnostics = .ofIncidents (job.passAfter tokens).formatting.incidents := by
  show Diagnostics.ofIncidents ((job.passAfter tokens).flush job).formatting.incidents = _
  unfold Pass.flush
  split <;> rfl

/-! ## Properties of all styles -/

theorem StyleStack.All.restack {P : Style α → Prop} {job : Job α} {styles : StyleStack α}
    (now : styles.All P) (command : Command α) (kept : P (job.restyle styles.active command)) :
    (job.restack styles command).All P := by
  cases command with
  | groupOpen => exact ⟨now.active, List.forall_mem_cons.mpr ⟨now.active, now.saved⟩⟩
  | groupClose =>
    obtain ⟨active, saved⟩ := styles
    cases saved with
    | nil => exact now
    | cons s rest =>
      obtain ⟨innermost, others⟩ := List.forall_mem_cons.mp now.saved
      exact ⟨innermost, others⟩
  | _ => exact ⟨kept, now.saved⟩

/-- What holds of the base style and is kept by every command holds of all styles of a pass. -/
theorem Job.styles_all {P : Style α → Prop} (job : Job α) (base : P job.baseStyle)
    (restyle : ∀ s command, P s → P (job.restyle s command)) (tokens : List (Token α)) :
    (job.passAfter tokens).formatting.styles.All P := by
  induction tokens using List.reverseRecOn with
  | nil => exact ⟨base, fun _ member => nomatch member⟩
  | append_singleton tokens t ih =>
    rw [job.passAfter_concat, Pass.styles_step]
    cases t with
    | format command =>
      show (job.apply _ command).styles.All P
      rw [job.styles_apply]
      exact ih.restack command (restyle _ command ih.active)
    | _ => exact ih

/-- What holds of the style in force between any two tokens holds of every style of a styled text. -/
theorem Job.styled_all {P : Style α → Prop} (job : Job α)
    (holds : ∀ before, P (job.passAfter before).style) (tokens : List (Token α)) :
    ∀ e ∈ job.styled tokens, P e.1 := by
  induction tokens using List.reverseRecOn with
  | nil => exact List.forall_mem_nil _
  | append_singleton tokens t ih =>
    rw [job.styled_concat]
    exact List.forall_mem_append.mpr ⟨ih, List.forall_mem_singleton.mpr (holds tokens)⟩

end Lettering
