import Mathlib
import Lettering.Font.BoxFonts

/-!
# Registered box fonts

Box fonts are built by a row of calls, in any order and with any repetitions.  What they answer is
read off the calls as they were written (`GlyphSource.Answers`, `BoxFonts.answers_built`): the first
call that matches counts, a name matches whatever the case of its ASCII letters, and a search
through all fonts finds what asking them one by one would have found.

The four lists of box fonts hold names in lower case only.  `BoxFonts.Stores` says so, and every
call keeps it.
-/

namespace Lettering

/-! ## Names that differ in case -/

/-- The small letter of a capital one. -/
def SmallOf (c d : Char) : Prop := 'A' ≤ c ∧ c ≤ 'Z' ∧ d.toNat = c.toNat + 32

/-- The characters are the same, or the two cases of one ASCII letter. -/
def SameLetter (c d : Char) : Prop := c = d ∨ SmallOf c d ∨ SmallOf d c

/-- The names are the same but for the case of ASCII letters. -/
def SameName (f g : String) : Prop := List.Forall₂ SameLetter f.toList g.toList

open Text (foldCase isControl)

theorem capital_iff (c : Char) : ('A' ≤ c ∧ c ≤ 'Z') ↔ 65 ≤ c.toNat ∧ c.toNat ≤ 90 := by
  rw [Char.le_def, Char.le_def, UInt32.le_iff_toNat_le, UInt32.le_iff_toNat_le]
  rfl

theorem toNat_toLower (c : Char) :
    c.toLower.toNat = if 65 ≤ c.toNat ∧ c.toNat ≤ 90 then c.toNat + 32 else c.toNat := by
  rw [Char.toLower]
  split
  · next capital =>
    have code := (capital_iff c).mp capital
    rw [if_pos code]
    have wide : c.toNat + 32 < 2 ^ 32 := by omega
    exact (UInt32.toNat_add c.val 32).trans (Nat.mod_eq_of_lt wide)
  · next other =>
    rw [if_neg fun code => other ((capital_iff c).mpr code)]

theorem toLower_eq_iff {c d : Char} : c.toLower = d.toLower ↔ SameLetter c d := by
  rw [SameLetter, SmallOf, SmallOf, ← Char.toNat_inj, ← Char.toNat_inj, toNat_toLower,
    toNat_toLower, ← and_assoc, ← and_assoc, capital_iff, capital_iff]
  split_ifs <;> omega

theorem foldCase_eq_iff {f g : String} : foldCase f = foldCase g ↔ SameName f g := by
  rw [foldCase, foldCase, SameName, String.ofList_inj, ← List.forall₂_eq_eq_eq,
    List.forall₂_map_left_iff, List.forall₂_map_right_iff]
  simp only [toLower_eq_iff]

instance (f g : String) : Decidable (SameName f g) := decidable_of_iff _ foldCase_eq_iff

/-! ## Calls -/

/-- A call that adds to box fonts. -/
inductive Registration (α : Type) where
  | font (name : String) (kind : FontKind)
  | scaledFont (name : String) (kind : FontKind) (scale : α)
  | missing (c : Char)
  | gap (name : String) (c : Char)
  | substitute (name target : String)

variable {α : Type}

namespace Registration

def missing? : Registration α → Option Char
  | .missing c => some c
  | _ => none

def gap? : Registration α → Option (String × Char)
  | .gap name c => some (name, c)
  | _ => none

def substitute? : Registration α → Option (String × String)
  | .substitute name target => some (name, target)
  | _ => none

/-- The font that a call registers, by the name that the call gives. -/
def font? [Scalar α] : Registration α → Option (String × FontInfo α)
  | .font name kind => some (name, ⟨kind, 1⟩)
  | .scaledFont name kind scale => some (name, ⟨kind, scale⟩)
  | _ => none

theorem missing?_eq_some_iff {call : Registration α} {c : Char} :
    call.missing? = some c ↔ call = .missing c := by
  cases call <;> simp [missing?]

theorem gap?_eq_some_iff {call : Registration α} {name : String} {c : Char} :
    call.gap? = some (name, c) ↔ call = .gap name c := by
  cases call <;> simp [gap?]

theorem mem_missing {calls : List (Registration α)} {c : Char} :
    c ∈ calls.filterMap missing? ↔ .missing c ∈ calls := by
  simp only [List.mem_filterMap, missing?_eq_some_iff, exists_eq_right]

theorem mem_gap {calls : List (Registration α)} {name : String} {c : Char} :
    (name, c) ∈ calls.filterMap gap? ↔ .gap name c ∈ calls := by
  simp only [List.mem_filterMap, gap?_eq_some_iff, exists_eq_right]

end Registration

variable [Scalar α]

namespace BoxFonts

/-- The box fonts after a call. -/
def register (b : BoxFonts α) : Registration α → BoxFonts α
  | .font name kind => b.addFont name kind
  | .scaledFont name kind scale => b.addScaledFont name kind scale
  | .missing c => b.removeChar c
  | .gap name c => b.removeCharIn name c
  | .substitute name target => b.addAlias name target

/-- The box fonts that a row of calls builds. -/
def built (calls : List (Registration α)) : BoxFonts α := calls.foldl register empty

/-- The box fonts hold what the calls brought, in order and with names in lower case. -/
structure Stores (b : BoxFonts α) (calls : List (Registration α)) : Prop where
  fonts : b.fonts = (calls.filterMap Registration.font?).map fun f => (foldCase f.1, f.2)
  missing : b.missing = calls.filterMap Registration.missing?
  gaps : b.gaps = (calls.filterMap Registration.gap?).map fun g => (foldCase g.1, g.2)
  aliases : b.aliases =
    (calls.filterMap Registration.substitute?).map fun a => (foldCase a.1, foldCase a.2)

theorem Stores.register {b : BoxFonts α} {calls : List (Registration α)} (stores : b.Stores calls)
    (call : Registration α) : (b.register call).Stores (calls ++ [call]) := by
  -- A call adds to one list, and each of the other three gets the empty list behind it.
  constructor
  case fonts =>
    rw [List.filterMap_append, List.map_append, ← stores.fonts]
    cases call with
    | font | scaledFont => rfl
    | _ => exact (List.append_nil _).symm
  case missing =>
    rw [List.filterMap_append, ← stores.missing]
    cases call with
    | missing => rfl
    | _ => exact (List.append_nil _).symm
  case gaps =>
    rw [List.filterMap_append, List.map_append, ← stores.gaps]
    cases call with
    | gap => rfl
    | _ => exact (List.append_nil _).symm
  case aliases =>
    rw [List.filterMap_append, List.map_append, ← stores.aliases]
    cases call with
    | substitute => rfl
    | _ => exact (List.append_nil _).symm

theorem stores_built (calls : List (Registration α)) : (built calls).Stores calls := by
  induction calls using List.reverseRecOn with
  | nil => exact ⟨rfl, rfl, rfl, rfl⟩
  | append_singleton calls call ih =>
    rw [built, List.foldl_concat]
    exact ih.register call

/-! ## Lookups -/

/-- A lookup among names in lower case finds the first name that differs in case only. -/
theorem lookup_foldCase {β γ : Type} (entries : List (String × β)) (value : β → γ)
    (name : String) :
    (entries.map fun entry => (foldCase entry.1, value entry.2)).lookup (foldCase name) =
      (entries.find? fun entry => SameName entry.1 name).map fun entry => value entry.2 := by
  induction entries with
  | nil => rfl
  | cons entry rest ih =>
    rw [List.map_cons, List.lookup_cons, List.find?_cons]
    by_cases same : SameName entry.1 name
    · rw [foldCase_eq_iff.mpr same, beq_self_eq_true, decide_eq_true same]
      rfl
    · have other : foldCase name ≠ foldCase entry.1 := fun eq => same (foldCase_eq_iff.mp eq.symm)
      rw [beq_false_of_ne other, decide_eq_false same]
      exact ih

theorem Stores.info_eq {b : BoxFonts α} {calls : List (Registration α)} (stores : b.Stores calls)
    (font : String) :
    b.info font =
      ((calls.filterMap Registration.font?).find? fun f => SameName f.1 font).map (·.2) := by
  rw [info, stores.fonts]
  exact lookup_foldCase _ id font

theorem Stores.substitute_eq {b : BoxFonts α} {calls : List (Registration α)}
    (stores : b.Stores calls) (font : String) :
    b.source.substitute font =
      ((calls.filterMap Registration.substitute?).find? fun a => SameName a.1 font).map
        fun a => foldCase a.2 := by
  change b.aliases.lookup (foldCase font) = _
  rw [stores.aliases]
  exact lookup_foldCase _ foldCase font

/-! ## Glyphs -/

/-- By the calls, a font has a character. -/
structure Provides (calls : List (Registration α)) (c : Char) (font : String) : Prop where
  printable : isControl c = false
  present : .missing c ∉ calls
  registered : ∃ f ∈ calls.filterMap Registration.font?, SameName f.1 font
  whole : ∀ name, .gap name c ∈ calls → ¬SameName name font

namespace Stores

variable {b : BoxFonts α} {calls : List (Registration α)}

theorem info_isSome (stores : b.Stores calls) (font : String) :
    (b.info font).isSome ↔ ∃ f ∈ calls.filterMap Registration.font?, SameName f.1 font := by
  rw [stores.info_eq, Option.isSome_map, List.find?_isSome]
  simp only [decide_eq_true_eq]

theorem mem_gaps (stores : b.Stores calls) (c : Char) (font : String) :
    (foldCase font, c) ∈ b.gaps ↔ ∃ name, .gap name c ∈ calls ∧ SameName name font := by
  rw [stores.gaps, List.mem_map]
  constructor
  · rintro ⟨⟨name, _⟩, member, eq⟩
    obtain ⟨folded, rfl⟩ := Prod.mk.inj eq
    exact ⟨name, Registration.mem_gap.mp member, foldCase_eq_iff.mp folded⟩
  · rintro ⟨name, member, same⟩
    exact ⟨(name, c), Registration.mem_gap.mpr member, by rw [foldCase_eq_iff.mpr same]⟩

theorem has_iff (stores : b.Stores calls) (c : Char) (font : String) :
    b.has c font = true ↔ Provides calls c font := by
  simp only [has, Bool.and_eq_true, Bool.not_eq_true', List.contains_eq_mem,
    decide_eq_false_iff_not, stores.info_isSome, stores.mem_gaps, stores.missing,
    Registration.mem_missing]
  constructor
  · rintro ⟨⟨⟨printable, present⟩, registered⟩, whole⟩
    exact ⟨printable, present, registered, fun name member same => whole ⟨name, member, same⟩⟩
  · rintro ⟨printable, present, registered, whole⟩
    exact ⟨⟨⟨printable, present⟩, registered⟩, fun ⟨name, member, same⟩ => whole name member same⟩

theorem glyph_eq_some_iff (stores : b.Stores calls) (c : Char) (font : String) (size : α)
    (g : Glyph α) : b.glyph c font size = some g ↔ Provides calls c font ∧ g = boxGlyph c size := by
  rw [← stores.has_iff, glyph]
  split
  · next has => exact ⟨fun eq => ⟨has, (Option.some.inj eq).symm⟩, fun ⟨_, eq⟩ => eq ▸ rfl⟩
  · next lacks => exact ⟨nofun, fun ⟨has, _⟩ => absurd has lacks⟩

end Stores

/-! ## Searches -/

variable (b : BoxFonts α) (c : Char) (size : α)

/-- A search finds a font if asking the fonts one by one finds it first. -/
theorem search_eq_some_iff (name : String) (g : Glyph α) :
    b.search c size = some (name, g) ↔ ∃ before after,
      b.fonts.map (·.1) = before ++ name :: after ∧
        (∀ passed ∈ before, b.glyph c passed size = none) ∧ b.glyph c name size = some g := by
  let ask (name : String) := (b.glyph c name size).map (name, ·)
  have asked : b.search c size = (b.fonts.map (·.1)).findSome? ask := by
    rw [List.findSome?_map]
    rfl
  rw [asked, List.findSome?_eq_some_iff]
  constructor
  · rintro ⟨before, found, after, names, answer, passed⟩
    obtain ⟨g, glyph, eq⟩ := Option.map_eq_some_iff.mp answer
    cases eq
    exact ⟨before, after, names, fun name member => Option.map_eq_none_iff.mp (passed name member),
      glyph⟩
  · rintro ⟨before, after, names, passed, glyph⟩
    exact ⟨before, name, after, names, Option.map_eq_some_iff.mpr ⟨g, glyph, rfl⟩,
      fun name member => Option.map_eq_none_iff.mpr (passed name member)⟩

theorem search_eq_none_iff :
    b.search c size = none ↔ ∀ name ∈ b.fonts.map (·.1), b.glyph c name size = none := by
  simp only [search, List.findSome?_eq_none_iff, Option.map_eq_none_iff, List.mem_map,
    forall_exists_index, and_imp, forall_apply_eq_imp_iff₂]

/-! ## Names that differ in case only get the same answers -/

section

variable {f g : String} (same : SameName f g)
include same

omit [Scalar α] in
theorem info_congr : b.info f = b.info g := by
  rw [info, info, foldCase_eq_iff.mpr same]

theorem glyph_congr : b.glyph c f size = b.glyph c g size := by
  have has : b.has c f = b.has c g := by
    unfold BoxFonts.has
    rw [b.info_congr same, foldCase_eq_iff.mpr same]
  unfold glyph
  rw [has]

theorem substitute_congr : b.source.substitute f = b.source.substitute g := by
  change b.aliases.lookup (foldCase f) = b.aliases.lookup (foldCase g)
  rw [foldCase_eq_iff.mpr same]

end

/-! ## Answers -/

/-- The names of the registered fonts in lower case, in the order of the calls. -/
def names (calls : List (Registration α)) : List String :=
  (calls.filterMap Registration.font?).map fun f => foldCase f.1

theorem Stores.names_eq {b : BoxFonts α} {calls : List (Registration α)} (stores : b.Stores calls) :
    b.fonts.map (·.1) = names calls := by
  rw [stores.fonts, List.map_map]
  rfl

end BoxFonts

open BoxFonts (Provides boxGlyph names)

/-- A glyph source answers as box fonts built by calls should. -/
structure GlyphSource.Answers (source : GlyphSource α) (calls : List (Registration α)) :
    Prop where
  /-- The glyphs are boxes, and the calls say which font has which character. -/
  glyph : ∀ c font size g,
    source.glyph c font size = some g ↔ Provides calls c font ∧ g = boxGlyph c size
  /-- A search finds the first registered name that has the character. -/
  found : ∀ c size name g, source.search c size = some (name, g) ↔
    ∃ before after, names calls = before ++ name :: after ∧
      (∀ passed ∈ before, source.glyph c passed size = none) ∧ source.glyph c name size = some g
  /-- A search fails if every registered font lacks the character. -/
  notFound : ∀ c size,
    source.search c size = none ↔ ∀ name ∈ names calls, source.glyph c name size = none
  /-- The first font registered under the name counts. -/
  info : ∀ font, source.info font =
    ((calls.filterMap Registration.font?).find? fun f => SameName f.1 font).map (·.2)
  /-- The first substitute given for the name counts. -/
  substitute : ∀ font, source.substitute font =
    ((calls.filterMap Registration.substitute?).find? fun a => SameName a.1 font).map
      fun a => foldCase a.2
  /-- Names that differ in case only get the same answers. -/
  caseless : ∀ f g, SameName f g →
    (∀ c size, source.glyph c f size = source.glyph c g size) ∧ source.info f = source.info g ∧
      source.substitute f = source.substitute g

namespace BoxFonts

/-- Box fonts answer by the calls that built them, in whatever order these were made. -/
theorem answers_built (calls : List (Registration α)) : (built calls).source.Answers calls := by
  have stores := stores_built calls
  refine ⟨stores.glyph_eq_some_iff, ?found, ?notFound, stores.info_eq, stores.substitute_eq,
    ?caseless⟩
  case found =>
    intro c size name g
    rw [← stores.names_eq]
    exact search_eq_some_iff _ c size name g
  case notFound =>
    intro c size
    rw [← stores.names_eq]
    exact search_eq_none_iff _ c size
  case caseless =>
    intro f g same
    exact ⟨fun c size => glyph_congr _ c size same, info_congr _ same, substitute_congr _ same⟩

example : (standard : BoxFonts α) = built [.font "simplex" .stroke, .font "arial" .filled] := rfl

end BoxFonts

end Lettering
