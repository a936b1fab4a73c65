import Mathlib
import Lettering.Proofs.ExactArithmetic
import Lettering.Proofs.Wrapping

/-!
# Rows of tokens

A row is a part of a stream, each token with the style in force.  `Job.rowAdvance` is how far a row
moves the pen, and `Job.starts` are the places of the pen before its contents: each content starts
where the tokens before it have taken the pen (`Job.getElem?_starts`).  A token that does not move
the pen is *still*; it is no content and adds nothing.
-/

namespace Lettering

theorem styledContents_still {α : Type} {row : List (Style α × Token α)}
    (still : ∀ e ∈ row, e.2.movesPen = false) : styledContents row = [] :=
  List.filterMap_eq_nil_iff.mpr fun e inRow => by
    rw [Token.content?_of_still (still e inRow)]
    rfl

variable {α : Type} [ExactScalar α]

/-- How far a token moves the pen in a style.  A tab is left out: it takes the pen to a place. -/
def Job.tokenAdvance (job : Job α) (style : Style α) : Token α → α
  | .word text => totalAdvance (job.shapeText style text.chars)
  | .stack e => (job.layoutStack style e).width + style.blankWidth
  | .space | .nonBreakingSpace => style.blankWidth * style.wordSpace
  | .tab | .paragraphBreak | .format _ => 0

/-- How far a row of tokens moves the pen. -/
def Job.rowAdvance (job : Job α) (row : List (Style α × Token α)) : α :=
  (row.map fun e => job.tokenAdvance e.1 e.2).sum

/-- The places of the pen before the contents of a row, the row starting at a pen. -/
def Job.starts (job : Job α) : α → List (Style α × Token α) → List α
  | _, [] => []
  | pen, (style, t) :: rest =>
    (t.content?.map fun _ => pen).toList ++ job.starts (pen + job.tokenAdvance style t) rest

variable (job : Job α) {style : Style α} {t : Token α} {c : Content}

theorem Job.tokenAdvance_content (found : t.content? = some c) :
    job.tokenAdvance style t = job.contentAdvance style c := by
  cases t with
  | word text =>
    simp only [Token.content?] at found
    split at found
    · cases found
    · cases found
      rfl
  | stack e => cases found; rfl
  | _ => cases found

theorem Job.tokenAdvance_still (still : t.movesPen = false) : job.tokenAdvance style t = 0 := by
  cases t with
  | word text =>
    have empty : text.chars = [] := by
      simpa [Token.movesPen, WordText.isEmpty] using still
    rw [Job.tokenAdvance, empty]
    rfl
  | paragraphBreak | format => rfl
  | space | nonBreakingSpace | tab | stack => cases still

theorem Job.rowAdvance_append (before after : List (Style α × Token α)) :
    job.rowAdvance (before ++ after) = job.rowAdvance before + job.rowAdvance after := by
  rw [Job.rowAdvance, List.map_append, List.sum_append]
  rfl

theorem Job.rowAdvance_concat (row : List (Style α × Token α)) (style : Style α) (t : Token α) :
    job.rowAdvance (row ++ [(style, t)]) = job.rowAdvance row + job.tokenAdvance style t := by
  rw [job.rowAdvance_append]
  exact congrArg _ (List.sum_singleton)

theorem Job.rowAdvance_still {row : List (Style α × Token α)}
    (still : ∀ e ∈ row, e.2.movesPen = false) : job.rowAdvance row = 0 := by
  refine List.sum_eq_zero fun a member => ?_
  obtain ⟨e, inRow, rfl⟩ := List.mem_map.mp member
  exact job.tokenAdvance_still (still e inRow)

theorem Job.starts_append (pen : α) (before after : List (Style α × Token α)) :
    job.starts pen (before ++ after) =
      job.starts pen before ++ job.starts (pen + job.rowAdvance before) after := by
  induction before generalizing pen with
  | nil =>
    have zero : job.rowAdvance [] = 0 := rfl
    rw [zero, add_zero]
    rfl
  | cons e rest ih =>
    obtain ⟨style, t⟩ := e
    have total : job.rowAdvance ((style, t) :: rest) =
        job.tokenAdvance style t + job.rowAdvance rest := List.sum_cons
    rw [List.cons_append, Job.starts, ih, Job.starts, total, List.append_assoc, add_assoc]

theorem Job.starts_concat (pen : α) (row : List (Style α × Token α)) (style : Style α)
    (t : Token α) : job.starts pen (row ++ [(style, t)]) =
      job.starts pen row ++ (t.content?.map fun _ => pen + job.rowAdvance row).toList := by
  rw [job.starts_append]
  exact congrArg _ (List.append_nil _)

theorem Job.length_starts (pen : α) (row : List (Style α × Token α)) :
    (job.starts pen row).length = (styledContents row).length := by
  induction row generalizing pen with
  | nil => rfl
  | cons e rest ih =>
    obtain ⟨style, t⟩ := e
    rw [Job.starts, List.length_append, ih, styledContents, styledContents, List.filterMap_cons]
    cases t.content? with
    | none => exact Nat.zero_add _
    | some c => exact Nat.add_comm _ _

/-- Content starts where the tokens before it have taken the pen. -/
theorem Job.getElem?_starts (pen : α) (before after : List (Style α × Token α))
    (found : t.content? = some c) :
    (job.starts pen (before ++ (style, t) :: after))[(styledContents before).length]? =
      some (pen + job.rowAdvance before) := by
  rw [job.starts_append, ← job.length_starts pen, List.getElem?_append_right (le_refl _),
    Nat.sub_self, Job.starts, found]
  rfl

theorem Job.starts_still (pen : α) {row : List (Style α × Token α)}
    (still : ∀ e ∈ row, e.2.movesPen = false) : job.starts pen row = [] := by
  rw [← List.length_eq_zero_iff, job.length_starts, styledContents_still still, List.length_nil]

theorem Job.contentMakeups_still {row : List (Style α × Token α)} (still : t.movesPen = false)
    (style : Style α) : job.contentMakeups (row ++ [(style, t)]) = job.contentMakeups row := by
  rw [job.contentMakeups_concat, Token.content?_of_still still]
  exact List.append_nil _

end Lettering
