import Mathlib
import Lettering.Proofs.Binary64Order
import Lettering.Proofs.Clearance

/-!
# Tab stops

The tab stops of a paragraph are sorted whenever a command sets them, so they are sorted in every
paragraph that commands leave, and the first stop that is found after the pen is the least
(`Paragraph.searches_of_sorted`).  Sorting and comparing need not be the same order for this: in
binary64 zeros are sorted by their signs, and a value that is not a number is sorted last.

In exact arithmetic a tab takes the pen on, to the next stop or, where there is none, to the next
multiple of the default distance, and of two pens the one behind stays behind (`Job.tabs_land`).
-/

namespace Lettering

section Sorted

variable {α : Type} [Scalar α]

/-- Scalars that are sorted in the order in which they compare, if they are numbers: a number is
what compares with itself. -/
class Scalar.Sortable (α : Type) [Scalar α] : Prop where
  trans : ∀ a b c : α, Scalar.precedes a b → Scalar.precedes b c → Scalar.precedes a c
  total : ∀ a b : α, Scalar.precedes a b || Scalar.precedes b a
  ascending : ∀ a b : α, a ≤ a → b ≤ b → Scalar.precedes a b → a ≤ b
  number : ∀ pen a : α, pen < a → a ≤ a

instance : Scalar.Sortable Float where
  trans a b c first second :=
    decide_eq_true ((of_decide_eq_true first).trans (of_decide_eq_true second))
  total a b := by
    rw [Bool.or_eq_true]
    exact (Nat.le_total (Binary64.orderKey a) (Binary64.orderKey b)).imp decide_eq_true
      decide_eq_true
  ascending a b first second sorted :=
    (Binary64.le_iff (Binary64.isNumber_of_le_self first)
      (Binary64.isNumber_of_le_self second)).mpr
        (Binary64.signedBits_mono (of_decide_eq_true sorted))
  number pen a past := by
    have number := Binary64.isNumber_of_lt past
    exact (Binary64.le_iff number number).mpr (le_refl _)

instance {α : Type} [ExactScalar α] : Scalar.Sortable α where
  trans a b c first second :=
    decide_eq_true ((of_decide_eq_true first).trans (of_decide_eq_true second))
  total a b := by
    rw [Bool.or_eq_true]
    exact (le_total a b).imp decide_eq_true decide_eq_true
  ascending a b _ _ sorted := of_decide_eq_true sorted
  number _ a _ := le_refl a

namespace Paragraph

/-- The tab stops stand in the order that they are sorted by. -/
def TabsSorted (p : Paragraph α) : Prop :=
  p.tabs.Pairwise fun a b => Scalar.precedes a b

/-- A paragraph whose tab stops ascend, and which finds the next one from every pen. -/
structure Searches (p : Paragraph α) : Prop where
  sorted : p.TabsSorted
  /-- Stops that are numbers ascend. -/
  ascending : p.tabs.Pairwise fun a b => a ≤ a → b ≤ b → a ≤ b
  next : ∀ pen stop, p.nextTab pen = some stop →
    stop ∈ p.tabs ∧ pen < stop ∧ ∀ s ∈ p.tabs, pen < s → stop ≤ s
  none : ∀ pen, p.nextTab pen = none ↔ ∀ s ∈ p.tabs, ¬ pen < s

variable [Scalar.Sortable α] {p : Paragraph α}

theorem searches_of_sorted (sorted : p.TabsSorted) : p.Searches := by
  have ascending : p.tabs.Pairwise fun a b => a ≤ a → b ≤ b → a ≤ b :=
    sorted.imp fun before first second => Scalar.Sortable.ascending _ _ first second before
  refine ⟨sorted, ascending, fun pen stop found => ?_, fun pen => ?_⟩
  · obtain ⟨past, before, after, tabs, behind⟩ := List.find?_eq_some_iff_append.mp found
    have past : pen < stop := of_decide_eq_true past
    refine ⟨List.mem_of_find?_eq_some found, past, fun s member ahead => ?_⟩
    have number : stop ≤ stop := Scalar.Sortable.number pen stop past
    rw [tabs] at member ascending
    rcases List.mem_append.mp member with passed | later
    · have notPast := behind s passed
      rw [decide_eq_true ahead] at notPast
      cases notPast
    · rcases List.mem_cons.mp later with rfl | later
      · exact number
      · have rest := (List.pairwise_append.mp ascending).2.1
        exact (List.pairwise_cons.mp rest).1 s later number (Scalar.Sortable.number pen s ahead)
  · rw [Paragraph.nextTab, List.find?_eq_none]
    simp only [decide_eq_true_eq]

theorem tabsSorted_apply (sorted : p.TabsSorted) (change : ParagraphChange α) :
    (p.apply change).TabsSorted := by
  unfold TabsSorted Paragraph.apply
  cases change.tabs with
  | none => exact sorted
  | some stops =>
    exact List.pairwise_mergeSort Scalar.Sortable.trans Scalar.Sortable.total stops

/-- Changes of a plain paragraph leave one that finds its tab stops. -/
theorem searches_changes (alignment : HorizontalAlignment) (changes : List (ParagraphChange α)) :
    (changes.foldl Paragraph.apply (.plain alignment)).Searches :=
  searches_of_sorted <| List.foldlRecOn changes Paragraph.apply .nil
    fun _ sorted change _ => tabsSorted_apply sorted change

end Paragraph

/-- The paragraph in force finds its tab stops after every stream. -/
theorem Job.searches_passAfter [Scalar.Sortable α] (job : Job α) (tokens : List (Token α)) :
    (job.passAfter tokens).paragraph.Searches := by
  rw [job.paragraph_passAfter]
  refine Paragraph.searches_of_sorted <| List.foldlRecOn tokens job.paragraphAfter .nil
    fun p sorted t _ => ?_
  cases t with
  | paragraphBreak => exact .nil
  | format command =>
    cases command with
    | paragraph change => exact Paragraph.tabsSorted_apply sorted change
    | _ => exact sorted
  | _ => exact sorted

end Sorted

variable {α : Type} [ExactScalar α]

/-- A tab takes every pen on: to the next tab stop, past the last one to the next multiple of the
default distance. -/
structure Pass.LandsTabs (job : Job α) (p : Pass α) : Prop where
  searches : p.paragraph.Searches
  /-- The tab moves the pen from where content would begin. -/
  moved : (p.step job .tab).cursor.pen = p.tabTarget job p.beginContent.cursor.pen
  stop : ∀ pen, (∃ s ∈ p.paragraph.tabs, pen < s) →
    IsLeast {s | s ∈ p.paragraph.tabs ∧ pen < s} (p.tabTarget job pen)
  grid : ∀ pen, (¬ ∃ s ∈ p.paragraph.tabs, pen < s) →
    IsLeast {x | pen < x ∧ ∃ n : ℤ, x = n * (job.settings.tabSize * p.style.blankWidth)}
      (p.tabTarget job pen)
  advances : ∀ pen, pen < p.tabTarget job pen
  mono : Monotone (p.tabTarget job)

theorem Pass.landsTabs {job : Job α} {p : Pass α} (searches : p.paragraph.Searches)
    (distance : 0 < job.settings.tabSize * p.style.blankWidth) : p.LandsTabs job := by
  have stop (pen : α) (ahead : ∃ s ∈ p.paragraph.tabs, pen < s) :
      IsLeast {s | s ∈ p.paragraph.tabs ∧ pen < s} (p.tabTarget job pen) := by
    unfold Pass.tabTarget
    cases found : p.paragraph.nextTab pen with
    | none =>
      obtain ⟨s, member, past⟩ := ahead
      exact ((searches.none pen).mp found s member past).elim
    | some stop =>
      obtain ⟨member, past, least⟩ := searches.next pen stop found
      exact ⟨⟨member, past⟩, fun s beyond => least s beyond.1 beyond.2⟩
  have grid (pen : α) (passed : ¬ ∃ s ∈ p.paragraph.tabs, pen < s) :
      IsLeast {x | pen < x ∧ ∃ n : ℤ, x = n * (job.settings.tabSize * p.style.blankWidth)}
        (p.tabTarget job pen) := by
    have none : p.paragraph.nextTab pen = none :=
      (searches.none pen).mpr fun s member past => passed ⟨s, member, past⟩
    unfold Pass.tabTarget
    rw [none]
    dsimp only
    rw [if_pos distance]
    exact isLeast_nextMultiple distance pen
  refine ⟨searches, ?_, stop, grid, fun pen => ?_, fun _ _ => p.tabTarget_mono job⟩
  · show p.beginContent.tabTarget job _ = p.tabTarget job _
    rw [Pass.tabTarget, Pass.style, Pass.paragraph, p.formatting_beginContent]
    rfl
  · by_cases ahead : ∃ s ∈ p.paragraph.tabs, pen < s
    · exact (stop pen ahead).1.2
    · exact (grid pen ahead).1.1

/-- Changes of a plain paragraph leave tab stops that are found, in binary64 as in exact arithmetic,
and tabs land on them. -/
structure Job.LandsTabs (job : Job α) : Prop where
  binary64 : ∀ alignment (changes : List (ParagraphChange Float)),
    (changes.foldl Paragraph.apply (.plain alignment)).Searches
  exact : ∀ alignment (changes : List (ParagraphChange α)),
    (changes.foldl Paragraph.apply (.plain alignment)).Searches
  pass : ∀ tokens, (job.passAfter tokens).LandsTabs job

/-- **Tabs land on the next stop and always advance**: stops are found in the order in which they
ascend, and past the last one tabs land on the multiples of the default distance. -/
theorem Job.tabs_land (job : Job α) (positive : 0 < job.settings.tabSize) : job.LandsTabs where
  binary64 := Paragraph.searches_changes
  exact := Paragraph.searches_changes
  pass tokens := Pass.landsTabs (job.searches_passAfter tokens)
    (mul_pos positive (job.blankWidth_pos tokens))

/-- By the settings that are standard, tabs advance by four blanks where there are no stops. -/
theorem Job.tabs_land_standard :
    let job : Job ℝ :=
      { fonts := BoxFonts.standard.source
        palette := fun _ => none
        colors := {}
        settings := Settings.standard
        entity := Entity.standard }
    0 < job.settings.tabSize ∧ job.LandsTabs := by
  intro job
  have positive : 0 < job.settings.tabSize := by
    show (0 : ℝ) < ((4 : ℤ) : ℝ)
    norm_num
  exact ⟨positive, job.tabs_land positive⟩

end Lettering
