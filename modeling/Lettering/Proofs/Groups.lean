import Lettering.Proofs.Commands

/-!
# Groups

Group commands are brackets around the commands that change the style.  `Job.applyAll` applies a
sequence of commands; `Job.groups_bracket` says that a close without an open group may as well be
left out, that a balanced sequence inside a group leaves no trace in the styles, and that groups
have no say in the paragraph.

The saved styles of the groups that were open before a sequence stay at the bottom of the stack as
long as the sequence closes no more groups than it has opened (`Job.saved_applyAll`).
-/

namespace Lettering

variable {α : Type}

/-! ## Sequences of commands -/

def Command.opensGroup : Command α → Bool
  | .groupOpen => true
  | _ => false

def Command.closesGroup : Command α → Bool
  | .groupClose => true
  | _ => false

/-- The paragraph properties that a command changes, `none` if it is no paragraph command. -/
def Command.paragraphChange? : Command α → Option (ParagraphChange α)
  | .paragraph change => some change
  | _ => none

/-- How many groups are open after a command, `depth` being open before. -/
def Command.depthAfter (depth : Nat) : Command α → Nat
  | .groupOpen => depth + 1
  | .groupClose => depth - 1
  | _ => depth

/-- The commands without each close that finds no open group, `depth` groups being open before. -/
def matchedFrom : Nat → List (Command α) → List (Command α)
  | _, [] => []
  | depth, command :: rest =>
    if depth = 0 ∧ command.closesGroup then matchedFrom 0 rest
    else command :: matchedFrom (command.depthAfter depth) rest

/-- Commands whose groups are all closed, none of them before it was opened. -/
structure Balanced (commands : List (Command α)) : Prop where
  opened : ∀ first, first <+: commands →
    first.countP Command.closesGroup ≤ first.countP Command.opensGroup
  closed : commands.countP Command.closesGroup = commands.countP Command.opensGroup

variable [Scalar α] {job : Job α} {f : Formatting α} {commands : List (Command α)}

/-- The formatting after a sequence of commands. -/
def Job.applyAll (job : Job α) (f : Formatting α) (commands : List (Command α)) : Formatting α :=
  commands.foldl job.apply f

/-! ## One command -/

theorem Job.paragraph_apply (job : Job α) (f : Formatting α) (command : Command α) :
    (job.apply f command).paragraph =
      command.paragraphChange?.elim f.paragraph f.paragraph.apply := by
  cases command <;> rfl

theorem Job.depth_apply (job : Job α) (f : Formatting α) (command : Command α) :
    (job.apply f command).styles.depth = command.depthAfter f.styles.depth := by
  cases command with
  | groupClose =>
    show f.styles.pop.depth = f.styles.depth - 1
    unfold StyleStack.pop StyleStack.depth
    split
    · next none => rw [none, List.length_nil]
    · next some => rw [some, List.length_cons, Nat.add_sub_cancel]
  | _ => rfl

/-- A close without an open group does nothing at all. -/
theorem Job.apply_of_unmatched (job : Job α) {command : Command α} (bottom : f.styles.depth = 0)
    (closes : command.closesGroup = true) : job.apply f command = f := by
  cases command with
  | groupClose =>
    have none : f.styles.saved = [] := List.length_eq_zero_iff.mp bottom
    show { f with styles := f.styles.pop } = f
    rw [StyleStack.pop, none]
  | _ => cases closes

/-- A command saves one style on top, takes the top one off, or leaves the saved styles alone; it
does not reach the styles below unless it closes a group with none above. -/
theorem Job.saved_apply (job : Job α) {above below : List (Style α)} (command : Command α)
    (saved : f.styles.saved = above ++ below)
    (matched : command.closesGroup = true → above ≠ []) :
    ∃ above', (job.apply f command).styles.saved = above' ++ below ∧
      above'.length + (if command.closesGroup then 1 else 0) =
        above.length + if command.opensGroup then 1 else 0 := by
  cases command with
  | groupOpen => exact ⟨f.styles.active :: above, congrArg (f.styles.active :: ·) saved, rfl⟩
  | groupClose =>
    obtain ⟨style, rest, rfl⟩ := List.exists_cons_of_ne_nil (matched rfl)
    refine ⟨rest, ?_, rfl⟩
    show f.styles.pop.saved = rest ++ below
    rw [StyleStack.pop, saved]
    rfl
  | _ => exact ⟨above, saved, rfl⟩

/-! ## Sequences -/

theorem Job.applyAll_cons (job : Job α) (f : Formatting α) (command : Command α)
    (rest : List (Command α)) :
    job.applyAll f (command :: rest) = job.applyAll (job.apply f command) rest := rfl

theorem Job.applyAll_matchedFrom (job : Job α) (f : Formatting α) (commands : List (Command α)) :
    job.applyAll f (matchedFrom f.styles.depth commands) = job.applyAll f commands := by
  induction commands generalizing f with
  | nil => rfl
  | cons command rest ih =>
    rw [matchedFrom, applyAll_cons]
    split
    · next unmatched =>
      rw [job.apply_of_unmatched unmatched.1 unmatched.2, ← unmatched.1, ih]
    · rw [applyAll_cons, ← job.depth_apply, ih]

example : matchedFrom 0 [.groupClose, .groupOpen, .groupClose, .groupClose, .underline true] =
    ([.groupOpen, .groupClose, .underline true] : List (Command Nat)) := rfl

theorem Job.paragraph_applyAll (job : Job α) (f : Formatting α) (commands : List (Command α)) :
    (job.applyAll f commands).paragraph =
      (commands.filterMap Command.paragraphChange?).foldl Paragraph.apply f.paragraph := by
  induction commands generalizing f with
  | nil => rfl
  | cons command rest ih =>
    rw [applyAll_cons, ih, paragraph_apply, List.filterMap_cons]
    cases command.paragraphChange? <;> rfl

/-- The styles at the bottom of the stack stay there, as long as no more groups are closed than
stand above them. -/
theorem Job.saved_applyAll (job : Job α) {above below : List (Style α)}
    (saved : f.styles.saved = above ++ below)
    (matched : ∀ first, first <+: commands → first.countP Command.closesGroup ≤
      above.length + first.countP Command.opensGroup) :
    ∃ above', (job.applyAll f commands).styles.saved = above' ++ below ∧
      above'.length + commands.countP Command.closesGroup =
        above.length + commands.countP Command.opensGroup := by
  induction commands generalizing f above with
  | nil => exact ⟨above, saved, rfl⟩
  | cons command rest ih =>
    obtain ⟨above₁, saved₁, count₁⟩ := job.saved_apply command saved fun closes bare => by
      have here := matched [command] (List.cons_prefix_cons.mpr ⟨rfl, List.nil_prefix⟩)
      rw [List.countP_singleton, if_pos closes, bare, List.countP_singleton] at here
      cases command with
      | groupClose => simp [Command.opensGroup] at here
      | _ => cases closes
    have later (first : List (Command α)) (isPrefix : first <+: rest) :
        first.countP Command.closesGroup ≤
          above₁.length + first.countP Command.opensGroup := by
      have whole := matched (command :: first) (List.cons_prefix_cons.mpr ⟨rfl, isPrefix⟩)
      rw [List.countP_cons, List.countP_cons] at whole
      omega
    obtain ⟨above', saved', count⟩ := ih saved₁ later
    refine ⟨above', saved', ?_⟩
    rw [List.countP_cons, List.countP_cons]
    omega

/-- A balanced sequence leaves the saved styles as they were. -/
theorem Job.saved_applyAll_balanced (job : Job α) (f : Formatting α)
    (balanced : Balanced commands) : (job.applyAll f commands).styles.saved = f.styles.saved := by
  have bottom : f.styles.saved = [] ++ f.styles.saved := rfl
  obtain ⟨above, saved, count⟩ := job.saved_applyAll bottom fun first isPrefix => by
    rw [List.length_nil, Nat.zero_add]
    exact balanced.opened first isPrefix
  have none : above = [] := by
    rw [balanced.closed, List.length_nil] at count
    exact List.length_eq_zero_iff.mp (by omega)
  rw [saved, none, List.nil_append]

/-- A group around a balanced sequence brings back all styles. -/
theorem Job.styles_group (job : Job α) (f : Formatting α) (balanced : Balanced commands) :
    (job.applyAll f (.groupOpen :: (commands ++ [.groupClose]))).styles = f.styles := by
  have saved := job.saved_applyAll_balanced (job.apply f .groupOpen) balanced
  rw [applyAll_cons, Job.applyAll, List.foldl_append]
  show (job.applyAll (job.apply f .groupOpen) commands).styles.pop = f.styles
  rw [StyleStack.pop, saved]
  rfl

/-! ## Bracket semantics -/

/-- Group commands among others are brackets. -/
structure Job.Brackets (job : Job α) (f : Formatting α) (commands : List (Command α)) : Prop where
  /-- Leaving out each close that finds no open group changes nothing. -/
  unmatched : job.applyAll f (matchedFrom f.styles.depth commands) = job.applyAll f commands
  /-- A group around the commands brings back the active and all saved styles, if it is the group
  that its close matches. -/
  restores : Balanced commands →
    (job.applyAll f (.groupOpen :: (commands ++ [.groupClose]))).styles = f.styles
  /-- The paragraph is that of the paragraph commands alone. -/
  paragraph : (job.applyAll f commands).paragraph =
    (commands.filterMap Command.paragraphChange?).foldl Paragraph.apply f.paragraph

/-- **Group commands obey bracket semantics**, whatever commands stand between them. -/
theorem Job.groups_bracket (job : Job α) (f : Formatting α) (commands : List (Command α)) :
    job.Brackets f commands :=
  ⟨job.applyAll_matchedFrom f commands, fun balanced => job.styles_group f balanced,
    job.paragraph_applyAll f commands⟩

end Lettering
