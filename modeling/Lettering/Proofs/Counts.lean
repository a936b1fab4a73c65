import Lettering.Diagnostics
import Mathlib.Data.List.Induction
import Mathlib.Data.Prod.Lex
import Mathlib.Data.String.Basic

/-!
# Counts

A tally keeps its keys in ascending order, so every key has one entry at most, and counting a key
adds one to its count and leaves the counts of other keys alone (`Tally.count_bump`).  The
diagnostics of a list of incidents therefore count each incident as often as the list has it
(`Diagnostics.counts_ofIncidents`), and the counts of two lists add up (`Diagnostics.isSum_append`).
Nothing is counted exactly if there is no incident (`Diagnostics.isClean_ofIncidents`).
-/

namespace Lettering

namespace Tally

variable {κ β : Type} [DecidableEq κ] [LinearOrder β] {before : κ → κ → Bool} {rank : κ → β}
  {t : Tally κ}

/-- The order of keys is that of their ranks, and no two keys have the same rank. -/
structure Ranks (before : κ → κ → Bool) (rank : κ → β) : Prop where
  before_iff : ∀ a b, before a b = true ↔ rank a < rank b
  injective : Function.Injective rank

/-- Every key stands before the keys of later entries. -/
def Ascending (rank : κ → β) (t : Tally κ) : Prop := t.Pairwise fun a b => rank a.1 < rank b.1

theorem count_cons (k : κ) (n : Nat) (t : Tally κ) (key : κ) :
    count ((k, n) :: t) key = if key = k then n else count t key := by
  rw [count, List.lookup_cons]
  by_cases same : key = k
  · rw [if_pos same, beq_iff_eq.mpr same]
    rfl
  · rw [if_neg same, beq_eq_false_iff_ne.mpr same]
    rfl

theorem count_eq_zero {key : κ} (absent : ∀ e ∈ t, key ≠ e.1) : count t key = 0 := by
  induction t with
  | nil => rfl
  | cons e rest ih =>
    obtain ⟨here, later⟩ := List.forall_mem_cons.mp absent
    rw [count_cons, if_neg here, ih later]

theorem mem_bump {key : κ} {e : κ × Nat} (member : e ∈ bump before key t) :
    e.1 = key ∨ ∃ old ∈ t, e.1 = old.1 := by
  induction t with
  | nil => exact .inl (congrArg Prod.fst (List.mem_singleton.mp member))
  | cons entry rest ih =>
    obtain ⟨k, n⟩ := entry
    rw [bump] at member
    split at member
    · next same =>
      rcases List.mem_cons.mp member with rfl | later
      · exact .inl same.symm
      · exact .inr ⟨e, List.mem_cons_of_mem _ later, rfl⟩
    · split at member
      · rcases List.mem_cons.mp member with rfl | old
        · exact .inl rfl
        · exact .inr ⟨e, old, rfl⟩
      · rcases List.mem_cons.mp member with rfl | later
        · exact .inr ⟨_, List.mem_cons_self, rfl⟩
        · rcases ih later with new | ⟨old, inRest, same⟩
          · exact .inl new
          · exact .inr ⟨old, List.mem_cons_of_mem _ inRest, same⟩

theorem Ascending.bump (ascending : t.Ascending rank) (ranks : Ranks before rank) (key : κ) :
    (bump before key t).Ascending rank := by
  induction t with
  | nil => exact List.pairwise_singleton _ _
  | cons entry rest ih =>
    obtain ⟨k, n⟩ := entry
    obtain ⟨least, others⟩ := List.pairwise_cons.mp ascending
    rw [Tally.bump]
    split
    · exact List.pairwise_cons.mpr ⟨least, others⟩
    · next other =>
      split
      · next first =>
        have below := (ranks.before_iff key k).mp first
        refine List.pairwise_cons.mpr ⟨fun e member => ?_, ascending⟩
        rcases List.mem_cons.mp member with rfl | later
        · exact below
        · exact below.trans (least e later)
      · next notFirst =>
        have above : rank k < rank key := by
          refine lt_of_le_of_ne (not_lt.mp fun below => notFirst ?_) ?_
          · exact (ranks.before_iff key k).mpr below
          · exact fun same => other (ranks.injective same).symm
        refine List.pairwise_cons.mpr ⟨fun e member => ?_, ih others⟩
        rcases mem_bump member with new | ⟨old, inRest, same⟩
        · rw [new]
          exact above
        · rw [same]
          exact least old inRest

theorem count_bump (ascending : t.Ascending rank) (ranks : Ranks before rank) (key k : κ) :
    count (bump before key t) k = count t k + if k = key then 1 else 0 := by
  induction t with
  | nil => exact (count_cons key 1 [] k).trans (Nat.zero_add _).symm
  | cons entry rest ih =>
    obtain ⟨first, n⟩ := entry
    obtain ⟨least, others⟩ := List.pairwise_cons.mp ascending
    rw [bump]
    split
    · next same =>
      subst same
      rw [count_cons, count_cons]
      split <;> rfl
    · next other =>
      split
      · next before =>
        rw [count_cons]
        split
        · next same =>
          -- The new key stands before all others, so it was not counted.
          subst same
          have below := (ranks.before_iff _ _).mp before
          rw [count_eq_zero]
          intro e member same
          rcases List.mem_cons.mp member with rfl | later
          · exact other same
          · exact (below.trans (least e later)).ne (congrArg rank same)
        · rfl
      · rw [count_cons, count_cons, ih others]
        split
        · next same =>
          rw [if_neg fun again => other (again.symm.trans same)]
          rfl
        · rfl

omit [DecidableEq κ] in
theorem Ascending.nodup (ascending : t.Ascending rank) : (t.map Prod.fst).Nodup :=
  List.Pairwise.map _ (fun _ _ below same => below.ne (congrArg rank same)) ascending

theorem bump_ne_nil (key : κ) : bump before key t ≠ [] := by
  cases t with
  | nil => exact List.cons_ne_nil _ _
  | cons entry rest =>
    rw [bump]
    split
    · exact List.cons_ne_nil _ _
    · split <;> exact List.cons_ne_nil _ _

theorem pos_bump (positive : ∀ e ∈ t, 0 < e.2) (key : κ) : ∀ e ∈ bump before key t, 0 < e.2 := by
  induction t with
  | nil => exact List.forall_mem_singleton.mpr Nat.one_pos
  | cons entry rest ih =>
    obtain ⟨first, others⟩ := List.forall_mem_cons.mp positive
    rw [bump]
    split
    · exact List.forall_mem_cons.mpr ⟨Nat.succ_pos _, others⟩
    · split
      · exact List.forall_mem_cons.mpr ⟨Nat.one_pos, positive⟩
      · exact List.forall_mem_cons.mpr ⟨first, ih others⟩

end Tally

namespace Diagnostics

theorem ranks_glyphBefore :
    Tally.Ranks glyphBefore (fun key : String × Char => toLex (key.1, key.2)) where
  before_iff a b := by
    rw [glyphBefore, Prod.Lex.toLex_lt_toLex, Bool.or_eq_true, Bool.and_eq_true,
      decide_eq_true_iff, beq_iff_eq, decide_eq_true_iff]
  injective _ _ same := toLex_inj.mp same

theorem ranks_fonts : Tally.Ranks (fun a b : String => decide (a < b)) id where
  before_iff _ _ := decide_eq_true_iff
  injective := Function.injective_id

/-- Both tallies have their keys in order. -/
structure Ordered (d : Diagnostics) : Prop where
  missingGlyphs : d.missingGlyphs.Ascending fun key => toLex (key.1, key.2)
  missingFonts : d.missingFonts.Ascending id

theorem Ordered.record {d : Diagnostics} (ordered : d.Ordered) (incident : Incident) :
    (d.record incident).Ordered := by
  cases incident with
  | missingGlyph font c =>
    exact ⟨ordered.missingGlyphs.bump ranks_glyphBefore _, ordered.missingFonts⟩
  | missingFont requested used =>
    exact ⟨ordered.missingGlyphs, ordered.missingFonts.bump ranks_fonts _⟩
  | imitatedStyle => exact ⟨ordered.missingGlyphs, ordered.missingFonts⟩

/-- Whether an incident is that a font of a name was not available. -/
def lacksFont (name : String) : Incident → Bool
  | .missingFont requested _ => requested = name
  | _ => false

/-- The diagnostics count each incident as often as a list has it. -/
structure Counts (d : Diagnostics) (incidents : List Incident) : Prop where
  missingGlyphs : ∀ font c,
    Tally.count d.missingGlyphs (font, c) = incidents.count (.missingGlyph font c)
  missingFonts : ∀ name, Tally.count d.missingFonts name = incidents.countP (lacksFont name)
  imitatedStyles : d.imitatedStyles = incidents.count .imitatedStyle

theorem Counts.record {d : Diagnostics} {incidents : List Incident} (counts : d.Counts incidents)
    (ordered : d.Ordered) (incident : Incident) :
    (d.record incident).Counts (incidents ++ [incident]) := by
  constructor
  · intro font c
    rw [List.count_append, ← counts.missingGlyphs]
    cases incident with
    | missingGlyph f e =>
      rw [Diagnostics.record, Tally.count_bump ordered.missingGlyphs ranks_glyphBefore,
        List.count_singleton]
      refine congrArg _ (if_congr ?_ rfl rfl)
      rw [beq_iff_eq, Incident.missingGlyph.injEq, Prod.mk.injEq, @eq_comm _ font, @eq_comm _ c]
    | _ => rfl
  · intro name
    rw [List.countP_append, ← counts.missingFonts]
    cases incident with
    | missingFont requested used =>
      rw [Diagnostics.record, Tally.count_bump ordered.missingFonts ranks_fonts,
        List.countP_singleton]
      refine congrArg _ (if_congr ?_ rfl rfl)
      rw [lacksFont, decide_eq_true_iff, eq_comm]
    | _ => rfl
  · rw [List.count_append, ← counts.imitatedStyles]
    cases incident <;> rfl

theorem counts_ofIncidents (incidents : List Incident) :
    (ofIncidents incidents).Ordered ∧ (ofIncidents incidents).Counts incidents := by
  induction incidents using List.reverseRecOn with
  | nil => exact ⟨⟨.nil, .nil⟩, fun _ _ => rfl, fun _ => rfl, rfl⟩
  | append_singleton incidents incident ih =>
    rw [ofIncidents, List.foldl_append]
    exact ⟨ih.1.record incident, ih.2.record ih.1 incident⟩

/-- No stored count is zero. -/
structure Positive (d : Diagnostics) : Prop where
  missingGlyphs : ∀ e ∈ d.missingGlyphs, 0 < e.2
  missingFonts : ∀ e ∈ d.missingFonts, 0 < e.2

theorem Positive.record {d : Diagnostics} (positive : d.Positive) (incident : Incident) :
    (d.record incident).Positive := by
  cases incident with
  | missingGlyph font c => exact ⟨Tally.pos_bump positive.missingGlyphs _, positive.missingFonts⟩
  | missingFont requested used =>
    exact ⟨positive.missingGlyphs, Tally.pos_bump positive.missingFonts _⟩
  | imitatedStyle => exact ⟨positive.missingGlyphs, positive.missingFonts⟩

theorem positive_ofIncidents (incidents : List Incident) : (ofIncidents incidents).Positive := by
  induction incidents using List.reverseRecOn with
  | nil => exact ⟨fun _ member => (nomatch member), fun _ member => nomatch member⟩
  | append_singleton incidents incident ih =>
    rw [ofIncidents, List.foldl_append]
    exact ih.record incident

theorem isClean_record (d : Diagnostics) (incident : Incident) :
    (d.record incident).isClean = false := by
  refine Bool.eq_false_iff.mpr fun clean => ?_
  rw [isClean, Bool.and_eq_true, Bool.and_eq_true, List.isEmpty_iff, List.isEmpty_iff,
    beq_iff_eq] at clean
  cases incident with
  | missingGlyph font c => exact Tally.bump_ne_nil _ clean.1.1
  | missingFont requested used => exact Tally.bump_ne_nil _ clean.1.2
  | imitatedStyle => exact Nat.succ_ne_zero _ clean.2

theorem isClean_ofIncidents (incidents : List Incident) :
    (ofIncidents incidents).isClean = true ↔ incidents = [] := by
  rcases List.eq_nil_or_concat incidents with rfl | ⟨init, incident, rfl⟩
  · exact iff_of_true rfl rfl
  · rw [ofIncidents, List.concat_eq_append, List.foldl_append]
    refine iff_of_false (fun clean => ?_) (List.append_ne_nil_of_right_ne_nil _ (List.cons_ne_nil _ _))
    exact Bool.false_ne_true ((isClean_record _ incident).symm.trans clean)

/-- Every counter is the sum of two. -/
structure IsSum (total a b : Diagnostics) : Prop where
  missingGlyphs : ∀ key, Tally.count total.missingGlyphs key =
    Tally.count a.missingGlyphs key + Tally.count b.missingGlyphs key
  missingFonts : ∀ name, Tally.count total.missingFonts name =
    Tally.count a.missingFonts name + Tally.count b.missingFonts name
  imitatedStyles : total.imitatedStyles = a.imitatedStyles + b.imitatedStyles

theorem isSum_append (earlier later : List Incident) :
    (ofIncidents (earlier ++ later)).IsSum (ofIncidents earlier) (ofIncidents later) := by
  have whole := (counts_ofIncidents (earlier ++ later)).2
  have first := (counts_ofIncidents earlier).2
  have second := (counts_ofIncidents later).2
  constructor
  · intro ⟨font, c⟩
    rw [whole.missingGlyphs, first.missingGlyphs, second.missingGlyphs, List.count_append]
  · intro name
    rw [whole.missingFonts, first.missingFonts, second.missingFonts, List.countP_append]
  · rw [whole.imitatedStyles, first.imitatedStyles, second.imitatedStyles, List.count_append]

end Diagnostics

end Lettering
