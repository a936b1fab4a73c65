import Mathlib
import Lettering.Incident

/-!
# Notices given once

A notice log remembers how notices read and not what they are.  So it gives each reading once
(`NoticeLog.once_per_reading`).  Two notices read the same though they differ where one is cut
inside the message of the other (`Notice.CutBefore`, `NoticeLog.readings_merged`); that takes a
component that holds a bracket and a blank.  No component of the engine does, and so its own notices
are each given once, whatever names their messages quote (`NoticeLog.given_giveAll`).
-/

namespace Lettering

namespace Notice

/-- The notices read the same and `m` is the one whose component ends first.  Where it ends, the
component of `n` goes on, and the message of `m` begins. -/
def CutBefore (m n : Notice) : Prop :=
  ∃ between, n.component = m.component ++ "] " ++ between ∧
    m.message = between ++ "] " ++ n.message

/-- The notices are the same or differ in where the component ends. -/
def ReadsLike (m n : Notice) : Prop := m = n ∨ m.CutBefore n ∨ n.CutBefore m

/-- The component holds no bracket with a blank behind it, so that its end is the first of its kind
where the notice is read. -/
def Plain (n : Notice) : Prop := ¬ [']', ' '] <:+: n.component.toList

instance (n : Notice) : Decidable n.Plain := inferInstanceAs (Decidable (¬ _))

variable {m n : Notice}

/-- Where one of two equal rows has the end of a component, the other one has it as well, or is still
inside its component and has all of the end there. -/
theorem eq_or_cut {more message rest : List Char}
    (same : ']' :: ' ' :: message = more ++ ']' :: ' ' :: rest) :
    (more = [] ∧ message = rest) ∨
      ∃ between, more = ']' :: ' ' :: between ∧ message = between ++ ']' :: ' ' :: rest := by
  match more with
  | [] =>
    cases same
    exact .inl ⟨rfl, rfl⟩
  | [_] => cases same
  | _ :: _ :: between =>
    cases same
    exact .inr ⟨between, rfl, rfl⟩

theorem CutBefore.of_toList {between : List Char}
    (component : n.component.toList = m.component.toList ++ ']' :: ' ' :: between)
    (message : m.message.toList = between ++ ']' :: ' ' :: n.message.toList) : m.CutBefore n := by
  refine ⟨String.ofList between, String.toList_inj.mp ?_, String.toList_inj.mp ?_⟩
  · simp [component]
  · simp [message]

theorem CutBefore.text_eq (cut : m.CutBefore n) : m.text = n.text := by
  obtain ⟨between, component, message⟩ := cut
  rw [Notice.text, Notice.text, component, message]
  simp only [String.append_assoc]

theorem text_eq_iff : m.text = n.text ↔ m.ReadsLike n := by
  constructor
  · intro same
    have rows : m.component.toList ++ ']' :: ' ' :: m.message.toList =
        n.component.toList ++ ']' :: ' ' :: n.message.toList := by
      simpa [Notice.text] using congrArg String.toList same
    have equal (component : m.component.toList = n.component.toList)
        (message : m.message.toList = n.message.toList) : m = n := by
      cases m
      cases n
      rw [String.toList_inj] at component message
      exact congrArg₂ Notice.mk component message
    rcases List.append_eq_append_iff.mp rows with ⟨more, longer, tail⟩ | ⟨more, longer, tail⟩
    · rcases eq_or_cut tail with ⟨rfl, message⟩ | ⟨between, rfl, message⟩
      · exact .inl (equal (by rw [longer, List.append_nil]) message)
      · exact .inr (.inl (.of_toList longer message))
    · rcases eq_or_cut tail with ⟨rfl, message⟩ | ⟨between, rfl, message⟩
      · exact .inl (equal (by rw [longer, List.append_nil]) message.symm)
      · exact .inr (.inr (.of_toList longer message))
  · rintro (rfl | cut | cut)
    · rfl
    · exact cut.text_eq
    · exact cut.text_eq.symm

theorem CutBefore.not_plain (cut : m.CutBefore n) : ¬ n.Plain := by
  obtain ⟨between, longer, -⟩ := cut
  refine not_not_intro ⟨m.component.toList, between.toList, ?_⟩
  rw [longer, String.toList_append, String.toList_append]
  rfl

theorem readsLike_iff_eq (first : m.Plain) (second : n.Plain) : m.ReadsLike n ↔ m = n := by
  constructor
  · rintro (same | cut | cut)
    · exact same
    · exact (cut.not_plain second).elim
    · exact (cut.not_plain first).elim
  · exact .inl

end Notice

namespace NoticeLog

/-- The log after a row of calls. -/
def after (calls : List Notice) : NoticeLog := calls.foldl give {}

theorem given_iff {log : NoticeLog} {n : Notice} : log.given n = true ↔ n.text ∈ log.texts :=
  List.contains_iff_mem

theorem mem_texts_give {log : NoticeLog} {n : Notice} {text : String} :
    text ∈ (log.give n).texts ↔ text ∈ log.texts ∨ n.text = text := by
  rw [give, announce]
  split
  · next before =>
    rw [given_iff] at before
    exact (or_iff_left_of_imp fun same => same ▸ before).symm
  · rw [List.mem_cons, or_comm, eq_comm]

theorem mem_texts_foldl_give {calls : List Notice} {log : NoticeLog} {text : String} :
    text ∈ (calls.foldl give log).texts ↔ text ∈ log.texts ∨ ∃ m ∈ calls, m.text = text := by
  induction calls generalizing log with
  | nil => simp
  | cons n rest ih =>
    rw [List.foldl_cons, ih, mem_texts_give, or_assoc]
    simp only [List.mem_cons, exists_eq_or_imp]

theorem given_after {calls : List Notice} {n : Notice} :
    (after calls).given n = true ↔ ∃ m ∈ calls, m.ReadsLike n := by
  rw [given_iff, after, mem_texts_foldl_give]
  simp only [Notice.text_eq_iff]
  exact or_iff_right List.not_mem_nil

/-- Among plain notices the log knows each for what it is. -/
theorem given_iff_mem {calls : List Notice} {n : Notice} (plain : ∀ m ∈ n :: calls, m.Plain) :
    (after calls).given n = true ↔ n ∈ calls := by
  obtain ⟨here, before⟩ := List.forall_mem_cons.mp plain
  rw [given_after]
  constructor
  · rintro ⟨m, member, alike⟩
    exact (Notice.readsLike_iff_eq (before m member) here).mp alike ▸ member
  · exact fun member => ⟨n, member, .inl rfl⟩

theorem announce_eq_some {log : NoticeLog} {n : Notice} :
    (log.announce n).2 = some n.text ↔ ¬ log.given n = true := by
  rw [announce]
  split
  · next before => simp [before]
  · next fresh => simp [fresh]

/-- **Each reading is given once.**  A notice counts as given exactly if a call before reads like
it, and a call writes a line exactly if no call before reads like it.  Among notices without a
bracket and a blank in their components that is: exactly if it was given itself. -/
theorem once_per_reading (calls : List Notice) (n : Notice) :
    (((after calls).given n = true ↔ ∃ m ∈ calls, m.ReadsLike n) ∧
      (((after calls).announce n).2 = some n.text ↔ ¬ ∃ m ∈ calls, m.ReadsLike n)) ∧
    ((∀ m ∈ n :: calls, m.Plain) →
      ((after calls).given n = true ↔ n ∈ calls) ∧
        (((after calls).announce n).2 = some n.text ↔ n ∉ calls)) := by
  refine ⟨⟨given_after, ?_⟩, fun plain => ⟨given_iff_mem plain, ?_⟩⟩
  · rw [announce_eq_some, given_after]
  · rw [announce_eq_some, given_iff_mem plain]

/-- A name that looks like the end of a component does no harm where a message quotes it. -/
theorem once_per_reading_quoted :
    let missing : Notice := ⟨"Font", "font 'a] b' not available, using 'c'"⟩
    let other : Notice := ⟨"Glyph", "font 'a] b' not available, using 'c'"⟩
    (∀ m ∈ [other, missing], m.Plain) ∧
      ((after [missing]).given other = true ↔ other ∈ [missing]) ∧
        (((after [missing]).announce other).2 = some other.text ↔ other ∉ [missing]) := by
  intro missing other
  have plain : ∀ m ∈ [other, missing], m.Plain := by decide
  exact ⟨plain, (once_per_reading [missing] other).2 plain⟩

/-- Two notices that read the same are given once. -/
theorem readings_merged :
    let first : Notice := ⟨"a", "b] c"⟩
    let second : Notice := ⟨"a] b", "c"⟩
    first ≠ second ∧ (after [first]).given second = true ∧
      ((after [first]).announce second).2 = none := by
  decide

theorem plain_notice {i : Incident} {n : Notice} (worth : i.notice? = some n) : n.Plain := by
  cases i with
  | missingGlyph font c =>
    cases worth
    exact (by decide : ¬ [']', ' '] <:+: "Glyph".toList)
  | missingFont requested used =>
    cases used <;>
    · cases worth
      exact (by decide : ¬ [']', ' '] <:+: "Font".toList)
  | imitatedStyle => cases worth

/-- The notices that a layout gives are told apart by component and message, though the messages
quote names of fonts that the drawing is free to choose. -/
theorem given_giveAll (incidents : List Incident) {n : Notice} (plain : n.Plain) :
    (({} : NoticeLog).giveAll incidents).given n = true ↔
      ∃ i ∈ incidents, i.notice? = some n := by
  have known : ∀ m ∈ n :: incidents.filterMap Incident.notice?, m.Plain := by
    refine List.forall_mem_cons.mpr ⟨plain, fun m member => ?_⟩
    obtain ⟨i, -, worth⟩ := List.mem_filterMap.mp member
    exact plain_notice worth
  rw [← List.mem_filterMap]
  exact given_iff_mem known

end NoticeLog

end Lettering
