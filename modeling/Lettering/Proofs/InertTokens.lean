import Lettering.Placement
import Lettering.Proofs.Groups

/-!
# Inert tokens

Some tokens leave no trace wherever they stand: words without characters, commands that the layout
does not know, and group closes without an open group (`Token.isInert`).  And only the characters of
a word count, not the pieces that it comes in.  `tidy` leaves such tokens out of a stream and joins
the pieces of its words; the pass after the tidy stream is the pass after the stream itself
(`Pass.run_tidyFrom`), so the two have the same layout.
-/

namespace Lettering

variable {α : Type}

/-! ## Tidy streams -/

/-- How many groups are open after a token, `depth` being open before. -/
def Token.depthAfter (depth : Nat) : Token α → Nat
  | .format command => command.depthAfter depth
  | _ => depth

/-- How many groups a stream leaves open. -/
def openGroups (tokens : List (Token α)) : Nat := tokens.foldl Token.depthAfter 0

/-- Whether a token leaves no trace where `depth` groups are open. -/
def Token.isInert (depth : Nat) : Token α → Bool
  | .word text => text.isEmpty
  | .format (.unknown _) => true
  | .format .groupClose => depth = 0
  | _ => false

/-- A word in one piece. -/
def WordText.whole : WordText → WordText
  | .text s => .text s
  | .parts pieces => .text (String.join pieces)

/-- A token, in one piece if it is a word. -/
def Token.whole : Token α → Token α
  | .word text => .word text.whole
  | t => t

/-- The rest of a stream without inert tokens, its words in one piece, `depth` groups being open. -/
def tidyFrom : Nat → List (Token α) → List (Token α)
  | _, [] => []
  | depth, t :: rest =>
    if t.isInert depth then tidyFrom (t.depthAfter depth) rest
    else t.whole :: tidyFrom (t.depthAfter depth) rest

/-- A stream without inert tokens, its words in one piece. -/
def tidy (tokens : List (Token α)) : List (Token α) := tidyFrom 0 tokens

/-- No token of a stream is inert where it stands, and no word is in pieces. -/
def IsTidy (tokens : List (Token α)) : Prop :=
  ∀ before t after, tokens = before ++ t :: after →
    t.isInert (openGroups before) = false ∧ ∀ pieces, t ≠ .word (.parts pieces)

theorem WordText.chars_whole (w : WordText) : w.whole.chars = w.chars := by
  cases w with
  | text s => rfl
  | parts pieces => exact String.toList_join.trans List.flatMap_def

theorem Token.depthAfter_of_isInert {depth : Nat} {t : Token α} (inert : t.isInert depth = true) :
    t.depthAfter depth = depth := by
  cases t with
  | format command =>
    cases command with
    | groupClose =>
      have bottom : depth = 0 := of_decide_eq_true inert
      rw [bottom]
      rfl
    | groupOpen => cases inert
    | _ => rfl
  | _ => rfl

theorem Token.depthAfter_whole (depth : Nat) (t : Token α) :
    t.whole.depthAfter depth = t.depthAfter depth := by
  cases t <;> rfl

theorem Token.isInert_whole (depth : Nat) (t : Token α) :
    t.whole.isInert depth = t.isInert depth := by
  cases t with
  | word text => exact congrArg List.isEmpty text.chars_whole
  | _ => rfl

theorem Token.whole_ne_parts (t : Token α) (pieces : List String) :
    t.whole ≠ .word (.parts pieces) := by
  cases t with
  | word text => cases text <;> rintro ⟨⟩
  | _ => rintro ⟨⟩

/-- What is left of a stream is tidy, whatever groups are open before it. -/
theorem tidyFrom_left {tokens before after : List (Token α)} {depth : Nat} {t : Token α}
    (left : tidyFrom depth tokens = before ++ t :: after) :
    t.isInert (before.foldl Token.depthAfter depth) = false ∧
      ∀ pieces, t ≠ .word (.parts pieces) := by
  induction tokens generalizing depth before with
  | nil => exact (List.append_ne_nil_of_right_ne_nil _ (List.cons_ne_nil _ _) left.symm).elim
  | cons u rest ih =>
    rw [tidyFrom] at left
    split at left
    · next inert =>
      rw [Token.depthAfter_of_isInert inert] at left
      exact ih left
    · next lasting =>
      cases before with
      | nil =>
        obtain ⟨rfl, -⟩ := List.cons.inj left
        refine ⟨?_, u.whole_ne_parts⟩
        show u.whole.isInert depth = false
        rw [Token.isInert_whole, Bool.eq_false_iff]
        exact lasting
      | cons v before =>
        obtain ⟨rfl, later⟩ := List.cons.inj left
        rw [List.foldl_cons, Token.depthAfter_whole]
        exact ih later

theorem isTidy_tidy (tokens : List (Token α)) : IsTidy (tidy tokens) :=
  fun _ _ _ left => tidyFrom_left left

variable [Scalar α] {job : Job α}

theorem Pass.depth_step (job : Job α) (p : Pass α) (t : Token α) :
    (p.step job t).formatting.styles.depth = t.depthAfter p.formatting.styles.depth := by
  rw [Pass.styles_step]
  cases t with
  | format command => exact job.depth_apply p.formatting command
  | _ => rfl

theorem Pass.step_of_isInert (job : Job α) {p : Pass α} {t : Token α}
    (inert : t.isInert p.formatting.styles.depth = true) : p.step job t = p := by
  cases t with
  | word text => exact if_pos inert
  | format command =>
    have unmoved : job.apply p.formatting command = p.formatting := by
      cases command with
      | unknown code => rfl
      | groupClose => exact job.apply_of_unmatched (of_decide_eq_true inert) rfl
      | _ => cases inert
    exact congrArg (fun f => { p with formatting := f }) unmoved
  | _ => cases inert

/-- A word counts by its characters alone. -/
theorem Pass.step_whole (job : Job α) (p : Pass α) (t : Token α) :
    p.step job t.whole = p.step job t := by
  cases t with
  | word text =>
    show p.addWord job text.whole = p.addWord job text
    rw [Pass.addWord, Pass.addWord, WordText.isEmpty, WordText.isEmpty, text.chars_whole]
  | _ => rfl

theorem Pass.run_tidyFrom (job : Job α) (p : Pass α) (tokens : List (Token α)) :
    p.run job (tidyFrom p.formatting.styles.depth tokens) = p.run job tokens := by
  induction tokens generalizing p with
  | nil => rfl
  | cons t rest ih =>
    have later := ih (p.step job t)
    rw [Pass.depth_step] at later
    rw [tidyFrom]
    split
    · next inert =>
      rw [Pass.step_of_isInert job inert] at later
      rw [later]
      show p.run job rest = (p.step job t).run job rest
      rw [Pass.step_of_isInert job inert]
    · show (p.step job t.whole).run job _ = (p.step job t).run job rest
      rw [Pass.step_whole, later]

theorem Job.depth_passAfter (job : Job α) (tokens : List (Token α)) :
    (job.passAfter tokens).formatting.styles.depth = openGroups tokens := by
  induction tokens using List.reverseRecOn with
  | nil => rfl
  | append_singleton tokens t ih =>
    rw [job.passAfter_concat, Pass.depth_step, ih, openGroups, openGroups, List.foldl_append]
    rfl

/-- What a pass makes of the tokens up to some place is all that counts for the layout. -/
theorem Job.layout_congr {before before' : List (Token α)}
    (same : job.passAfter before' = job.passAfter before) (after : List (Token α)) :
    job.layout (before' ++ after) = job.layout (before ++ after) := by
  show ((job.passAfter (before' ++ after)).flush job).block = _
  rw [job.passAfter_append, same, ← job.passAfter_append]
  rfl

/-- A layout and the block placed in the drawing are those of the tidy stream. -/
structure Job.Tidies (job : Job α) (tokens : List (Token α)) : Prop where
  tidy : IsTidy (tidy tokens)
  layout : job.layout (Lettering.tidy tokens) = job.layout tokens
  render : job.render (Lettering.tidy tokens) = job.render tokens
  /-- Each inert token may be left out on its own, -/
  inert : ∀ before t after, tokens = before ++ t :: after →
    t.isInert (openGroups before) = true → job.layout (before ++ after) = job.layout tokens
  /-- and the pieces of each word joined. -/
  whole : ∀ before t after, tokens = before ++ t :: after →
    job.layout (before ++ t.whole :: after) = job.layout tokens

/-- **Inert tokens leave no trace**, wherever they stand. -/
theorem Job.layout_tidy (job : Job α) (tokens : List (Token α)) : job.Tidies tokens := by
  have pass : job.passAfter (tidy tokens) = job.passAfter tokens :=
    Pass.run_tidyFrom job (Pass.start job) tokens
  have layout := Job.layout_congr pass []
  rw [List.append_nil, List.append_nil] at layout
  refine ⟨isTidy_tidy tokens, layout, ?_, ?_, ?_⟩
  · rw [Job.render, Job.render, layout]
  · rintro before t after rfl inert
    rw [← job.depth_passAfter] at inert
    rw [List.append_cons]
    refine Job.layout_congr ?_ after
    rw [job.passAfter_concat, Pass.step_of_isInert job inert]
  · rintro before t after rfl
    rw [List.append_cons before t.whole, List.append_cons before t]
    refine Job.layout_congr ?_ after
    rw [job.passAfter_concat, job.passAfter_concat, Pass.step_whole]

end Lettering
