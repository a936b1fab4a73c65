import Lettering.Json.Configuration
import Lettering.Scalar.Binary64
import Mathlib.Data.List.Nodup

/-!
# Written values read back

A value of the input format is read back from the JSON value that it is written as, if its scalars
are finite; JSON has no form for the others, which are written as `null`.  `Json.round_trips` says
it for tokens and streams of tokens, settings, entities and colors.

A record is written with each of its fields once, so its fields are the members of the object
(`Json.exists_fields?`); a tag is written before its content (`Json.tagged?_obj`).  What is read of
a held content is the same, so commands are read alike within a token and on their own.
-/

namespace Lettering

variable {α τ : Type}

/-! ## Scalars -/

def Point.scalars (p : Point α) : List α := [p.x, p.y]

def Scale.scalar : Scale α → α
  | .absolute value => value
  | .relative factor => factor

def ParagraphChange.scalars (c : ParagraphChange α) : List α :=
  c.indent.toList ++ c.left.toList ++ c.right.toList ++ c.tabs.getD []

def Command.scalars : Command α → List α
  | .widthFactor scale | .height scale | .tracking scale => [scale.scalar]
  | .oblique angle => [angle]
  | .paragraph change => change.scalars
  | _ => []

/-- The scalars of a token, in the order in which they are written. -/
def Token.scalars : Token α → List α
  | .format command => command.scalars
  | _ => []

def Settings.scalars (s : Settings α) : List α :=
  [s.spacingConstant, s.boldExpansion, s.scriptScale, s.superscriptOffset, s.subscriptOffset,
    s.tabSize]

def Entity.scalars (e : Entity α) : List α :=
  e.insertion.scalars ++ [e.height, e.width, e.rotation] ++
    (e.direction.map Point.scalars).getD [] ++ [e.lineSpaceFactor, e.widthFactor, e.oblique]

/-! ## Objects -/

namespace Json

theorem repeats_eq_false {members : List (String × Json α)}
    (distinct : (members.map Prod.fst).Nodup) (name : String) : repeats members name = false := by
  have once : (members.filter fun m => m.1 == name).length ≤ 1 := by
    induction members with
    | nil => exact Nat.zero_le 1
    | cons m rest ih =>
      rw [List.map_cons, List.nodup_cons] at distinct
      rw [List.filter_cons]
      split
      · next here =>
        have none : rest.filter (fun m => m.1 == name) = [] := by
          rw [List.filter_eq_nil_iff]
          intro n inRest again
          rw [beq_iff_eq] at here again
          exact distinct.1 (List.mem_map.mpr ⟨n, inRest, again.trans here.symm⟩)
        rw [none]
        exact Nat.le_refl 1
      · exact ih distinct.2
  exact decide_eq_false (Nat.not_lt.mpr once)

/-- The fields of an object in which no name repeats are its members. -/
theorem members?_obj {members : List (String × Json α)} (distinct : (members.map Prod.fst).Nodup)
    (names : List String) :
    (Json.obj members).members? names = some fun name => members.lookup name := by
  have noneRepeats : names.any (repeats members) = false :=
    List.any_eq_false.mpr fun name _ => by simp [repeats_eq_false distinct]
  rw [members?, noneRepeats, if_neg Bool.false_ne_true]

/-- Every member of an object in which no name repeats is found under its name. -/
theorem lookup_of_nodup {members : List (String × Json α)}
    (distinct : (members.map Prod.fst).Nodup) :
    ∀ m ∈ members, members.lookup m.1 = some m.2 := by
  induction members with
  | nil => exact List.forall_mem_nil _
  | cons m rest ih =>
    obtain ⟨fresh, others⟩ := List.nodup_cons.mp distinct
    refine List.forall_mem_cons.mpr ⟨List.lookup_cons_self, fun n inRest => ?_⟩
    have apart : (n.1 == m.1) = false :=
      beq_eq_false_iff_ne.mpr fun same => fresh (List.mem_map.mpr ⟨n, inRest, same⟩)
    rw [List.lookup_cons, apart]
    exact ih others n inRest

/-- A record that is written as an object has the members of the object for its fields. -/
theorem exists_fields? {j : Json α} {members : List (String × Json α)} (object : j = .obj members)
    (distinct : (members.map Prod.fst).Nodup) (names : List String) :
    ∃ f, j.fields? names = some f ∧ ∀ m ∈ members, f m.1 = some m.2 := by
  refine ⟨fun name => members.lookup name, ?_, lookup_of_nodup distinct⟩
  rw [object]
  exact members?_obj distinct names

/-- A record is read field by field. -/
theorem Fields.getD_bind {σ : Type} {f : Fields α} {name : String} {read : Json α → Option τ}
    {absent t : τ} {j : Json α} {next : τ → Option σ} {r : σ} (here : f name = some j)
    (reads : read j = some t) (rest : next t = some r) :
    (f.getD name read absent >>= next) = some r := by
  rw [Fields.getD, here]
  exact Option.bind_eq_some_iff.mpr ⟨t, reads, rest⟩

/-- A tag that stands before its content is read with it. -/
theorem tagged?_obj {tagName contentName tag : String} {tags : List String}
    (apart : tagName ≠ contentName) (known : tag ∈ tags) (held : Bool) (content : Option (Json α)) :
    (Json.obj ((tagName, .str tag) :: (content.map (contentName, ·)).toList)).tagged? held tagName
      contentName tags = some (tag, content.map (Content.mk held)) := by
  have distinct :
      (((tagName, Json.str tag) :: (content.map (contentName, ·)).toList).map Prod.fst).Nodup := by
    cases content <;> simp [apart]
  have named : (Json.str tag : Json α).named? held tags id = some tag := by
    show tags.find? (fun t => t == tag) = some tag
    obtain ⟨found, isFound⟩ : ∃ found, tags.find? (fun t => t == tag) = some found :=
      Option.isSome_iff_exists.mp (List.find?_isSome.mpr ⟨tag, known, beq_self_eq_true tag⟩)
    rw [isFound, beq_iff_eq.mp (List.find?_some isFound : _)]
  have other : (contentName == tagName) = false := beq_eq_false_iff_ne.mpr apart.symm
  rw [tagged?, repeats_eq_false distinct, repeats_eq_false distinct]
  cases content <;> simp [List.lookup_cons, named, other]

theorem list?_ofList {write : τ → Json α} {read : Json α → Option τ} {items : List τ}
    (reads : ∀ t ∈ items, read (write t) = some t) :
    (ofList write items).list? read = some items := by
  show (items.map write).mapM read = some items
  induction items with
  | nil => rfl
  | cons t rest ih =>
    obtain ⟨first, others⟩ := List.forall_mem_cons.mp reads
    rw [List.map_cons, List.mapM_cons, first, ih others]
    rfl

/-- A value that may be absent reads back if it is not written as `null` where it is present. -/
theorem optional?_ofOption {write : τ → Json α} {read : Json α → Option τ} {value : Option τ}
    (present : ∀ t ∈ value, write t ≠ .null ∧ read (write t) = some t) :
    (ofOption write value).optional? read = some value := by
  cases value with
  | none => rfl
  | some t =>
    obtain ⟨notNull, reads⟩ := present t rfl
    show (write t).optional? read = some (some t)
    unfold optional?
    split
    · next null => exact (notNull null).elim
    · rw [reads]
      rfl

theorem below?_int {bound n : Nat} (below : n < bound) :
    (Json.int n : Json α).below? bound = some n := by
  rw [below?, if_pos ⟨by omega, by omega⟩]
  rfl

end Json

/-! ## Values without scalars -/

theorem WordText.ofJson?_toJson (w : WordText) : ofJson? (w.toJson : Json α) = some w := by
  cases w with
  | text s => rfl
  | parts pieces =>
    have read : (Json.ofList (Json.str : String → Json α) pieces).list? Json.text? = some pieces :=
      Json.list?_ofList fun _ _ => rfl
    show ((Json.ofList Json.str pieces).list? Json.text?).map parts = _
    rw [read]
    rfl

theorem Divider.ofJson?_toJson (d : Divider) (held : Bool) :
    ofJson? held (d.toJson : Json α) = some d := by
  cases d <;> rfl

theorem HorizontalAlignment.ofJson?_toJson (a : HorizontalAlignment) (held : Bool) :
    ofJson? held (a.toJson : Json α) = some a := by
  cases a <;> rfl

theorem VerticalAlignment.ofJson?_toJson (a : VerticalAlignment) (held : Bool) :
    ofJson? held (a.toJson : Json α) = some a := by
  cases a <;> rfl

theorem Flow.ofJson?_toJson (f : Flow) : ofJson? (f.toJson : Json α) = some f := by
  cases f <;> rfl

theorem Attachment.ofJson?_toJson (a : Attachment) : ofJson? (a.toJson : Json α) = some a := by
  obtain ⟨vertical, horizontal⟩ := a
  cases vertical <;> cases horizontal <;> rfl

theorem ColorRequest.ofJson?_toJson (request : ColorRequest) :
    ofJson? (request.toJson : Json α) = some request := by
  cases request with
  | index i =>
    have code : (Json.int i.toNat : Json α).below? 65536 = some i.toNat :=
      Json.below?_int i.toNat_lt
    simp [ofJson?, toJson, Json.single?, code]
  | rgb packed =>
    have code : (Json.int packed.toNat : Json α).below? 4294967296 = some packed.toNat :=
      Json.below?_int packed.toNat_lt
    simp [ofJson?, toJson, Json.single?, code]

theorem Rgb.channel?_int (v : UInt8) : channel? (Json.int v.toNat : Json α) = some v := by
  rw [channel?, Json.below?_int v.toNat_lt]
  simp

theorem Rgb.ofJson?_toJson (c : Rgb) : ofJson? (c.toJson : Json α) = some c := by
  obtain ⟨f, fields, found⟩ := Json.exists_fields? (rfl : (c.toJson : Json α) = .obj _)
    (of_decide_eq_true rfl) _
  simp only [List.forall_mem_cons] at found
  rw [ofJson?, fields]
  simp only [Json.Fields.need, found, channel?_int, Option.bind_eq_bind, Option.bind_some,
    Option.pure_def]

theorem ReservedColors.ofJson?_toJson (c : ReservedColors) :
    ofJson? (c.toJson : Json α) = some c := by
  obtain ⟨f, fields, found⟩ := Json.exists_fields? (rfl : (c.toJson : Json α) = .obj _)
    (of_decide_eq_true rfl) _
  simp only [List.forall_mem_cons] at found
  rw [ofJson?, fields]
  simp only [Json.Fields.need, found, Rgb.ofJson?_toJson, Option.bind_eq_bind, Option.bind_some,
    Option.pure_def]

theorem StackText.ofJson?_toJson (e : StackText) (held : Bool) :
    ofJson? held (e.toJson : Json α) = some e := by
  obtain ⟨f, fields, found⟩ := Json.exists_fields? (rfl : (e.toJson : Json α) = .obj _)
    (of_decide_eq_true rfl) _
  simp only [List.forall_mem_cons] at found
  rw [ofJson?, fields]
  simp only [Json.Fields.need, found, Divider.ofJson?_toJson, Json.text?, Option.bind_eq_bind,
    Option.bind_some, Option.pure_def]

theorem Command.name_mem_names (c : Command α) : c.name ∈ names := by
  cases c <;> simp [name, names]

theorem Token.name_mem_names (t : Token α) : t.name ∈ names := by
  cases t <;> simp [name, names]

theorem Command.fontOfJson?_content (name : String) (bold italic : Bool) :
    fontOfJson? (.obj [("name", .str name), ("bold", .bool bold), ("italic", .bool italic)]) =
      some (.font name bold italic : Command α) := by
  rw [fontOfJson?, Json.members?_obj (by simp)]
  rfl

/-! ## Values with scalars -/

variable [Scalar α]

namespace Json

variable {x : α}

theorem number?_ofScalar (finite : Scalar.isFinite x = true) : (ofScalar x).number? = some x := by
  rw [ofScalar, if_pos finite]
  rfl

/-- A finite scalar that may be absent is told apart from an absent one. -/
theorem optional?_ofScalar {value : Option α} (finite : ∀ x ∈ value, Scalar.isFinite x = true) :
    (ofOption ofScalar value).optional? number? = some value := by
  refine optional?_ofOption fun x present => ⟨?_, number?_ofScalar (finite x present)⟩
  rw [ofScalar, if_pos (finite x present)]
  rintro ⟨⟩

end Json

theorem Point.ofJson?_toJson {p : Point α} (finite : ∀ x ∈ p.scalars, Scalar.isFinite x = true) :
    ofJson? (p.toJson Json.ofScalar) = some p := by
  obtain ⟨x, y, -⟩ : Scalar.isFinite p.x = true ∧ Scalar.isFinite p.y = true ∧ True := by
    simpa [scalars] using finite
  obtain ⟨f, fields, found⟩ := Json.exists_fields? (rfl : p.toJson Json.ofScalar = .obj _)
    (of_decide_eq_true rfl) _
  simp only [List.forall_mem_cons] at found
  rw [ofJson?, fields]
  simp only [Json.Fields.need, found, Json.number?_ofScalar x, Json.number?_ofScalar y,
    Option.bind_eq_bind, Option.bind_some, Option.pure_def]

theorem Scale.ofJson?_toJson {s : Scale α} (finite : Scalar.isFinite s.scalar = true) :
    ofJson? (s.toJson Json.ofScalar) = some s := by
  have number : (Json.ofScalar s.scalar).number? = some s.scalar := Json.number?_ofScalar finite
  cases s with
  | absolute value => exact congrArg (Option.map absolute) number
  | relative factor => exact congrArg (Option.map relative) number

theorem ParagraphChange.ofJson?_toJson {c : ParagraphChange α}
    (finite : ∀ x ∈ c.scalars, Scalar.isFinite x = true) (held : Bool) :
    ofJson? held (c.toJson Json.ofScalar) = some c := by
  simp only [scalars, List.forall_mem_append, Option.mem_toList] at finite
  obtain ⟨⟨⟨indent, left⟩, right⟩, tabs⟩ := finite
  have alignment : (Json.ofOption HorizontalAlignment.toJson c.alignment : Json α).optional?
      (HorizontalAlignment.ofJson? held) = some c.alignment :=
    Json.optional?_ofOption fun a _ => ⟨by rintro ⟨⟩, a.ofJson?_toJson held⟩
  have tabs' : (Json.ofOption (Json.ofList Json.ofScalar) c.tabs).optional?
      (Json.list? Json.number?) = some c.tabs := by
    refine Json.optional?_ofOption fun stops present => ⟨by rintro ⟨⟩, Json.list?_ofList ?_⟩
    intro x member
    rw [Option.mem_def.mp present, Option.getD_some] at tabs
    exact Json.number?_ofScalar (tabs x member)
  obtain ⟨f, fields, found⟩ := Json.exists_fields? (rfl : c.toJson Json.ofScalar = .obj _)
    (of_decide_eq_true rfl) _
  simp only [List.forall_mem_cons] at found
  obtain ⟨hasIndent, hasLeft, hasRight, hasAlignment, hasTabs, -⟩ := found
  rw [ofJson?, fields]
  refine Json.Fields.getD_bind hasIndent (Json.optional?_ofScalar indent) ?_
  refine Json.Fields.getD_bind hasLeft (Json.optional?_ofScalar left) ?_
  refine Json.Fields.getD_bind hasRight (Json.optional?_ofScalar right) ?_
  refine Json.Fields.getD_bind hasAlignment alignment ?_
  exact Json.Fields.getD_bind hasTabs tabs' rfl

/-- A command reads back, on its own or within a content that was held. -/
theorem Command.ofJson?_toJson {c : Command α}
    (finite : ∀ x ∈ c.scalars, Scalar.isFinite x = true) (held : Bool) :
    ofJson? held (c.toJson Json.ofScalar) = some c := by
  have content :
      ofContent? c.name ((c.content Json.ofScalar).map (Json.Content.mk held)) = some c := by
    cases c with
    | groupOpen | groupClose | underline | overline | strikeThrough | unknown => rfl
    | font name bold italic => exact fontOfJson?_content name bold italic
    | color request => exact congrArg (Option.map color) request.ofJson?_toJson
    | widthFactor scale | height scale | tracking scale =>
      have read : Scale.ofJson? (scale.toJson Json.ofScalar) = some scale :=
        Scale.ofJson?_toJson (finite _ (List.mem_singleton_self _))
      exact congrArg (Option.map _) read
    | oblique angle =>
      have read : (Json.ofScalar angle).number? = some angle :=
        Json.number?_ofScalar (finite _ (List.mem_singleton_self _))
      exact congrArg (Option.map oblique) read
    | charAlignment alignment =>
      exact congrArg (Option.map charAlignment) (alignment.ofJson?_toJson held)
    | paragraph change =>
      exact congrArg (Option.map paragraph) (ParagraphChange.ofJson?_toJson finite held)
  rw [ofJson?, toJson, Json.tagged?_obj (by decide) c.name_mem_names]
  exact content

theorem Token.ofJson?_toJson {t : Token α}
    (finite : ∀ x ∈ t.scalars, Scalar.isFinite x = true) :
    ofJson? (t.toJson Json.ofScalar) = some t := by
  have content :
      ofContent? t.name ((t.content Json.ofScalar).map (Json.Content.mk false)) = some t := by
    cases t with
    | word text => exact congrArg (Option.map word) text.ofJson?_toJson
    | space | nonBreakingSpace | tab | paragraphBreak => rfl
    | stack e => exact congrArg (Option.map stack) (e.ofJson?_toJson false)
    | format command => exact congrArg (Option.map format) (Command.ofJson?_toJson finite false)
  rw [ofJson?, toJson, Json.tagged?_obj (by decide) t.name_mem_names]
  exact content

theorem Settings.ofJson?_toJson {s : Settings α}
    (finite : ∀ x ∈ s.scalars, Scalar.isFinite x = true) :
    ofJson? (s.toJson Json.ofScalar) = some s := by
  have bigFont : (Json.ofOption Json.str s.bigFont : Json α).optional? Json.text? =
      some s.bigFont :=
    Json.optional?_ofOption fun font _ => ⟨by rintro ⟨⟩, rfl⟩
  have placeholder : (Json.str s.placeholder.toString : Json α).char? = some s.placeholder := by
    simp [Json.char?]
  have numbers := fun x member => Json.number?_ofScalar (finite x member)
  simp only [scalars, List.forall_mem_cons] at numbers
  obtain ⟨spacing, bold, script, above, below, tab, -⟩ := numbers
  obtain ⟨f, fields, found⟩ := Json.exists_fields? (rfl : s.toJson Json.ofScalar = .obj _)
    (of_decide_eq_true rfl) _
  simp only [List.forall_mem_cons] at found
  obtain ⟨hasFont, hasBigFont, hasPlaceholder, hasSpacing, hasBold, hasLegacy, hasScript, hasAbove,
    hasBelow, hasTab, -⟩ := found
  rw [ofJson?, fields]
  refine Json.Fields.getD_bind hasFont rfl ?_
  refine Json.Fields.getD_bind hasBigFont bigFont ?_
  refine Json.Fields.getD_bind hasPlaceholder placeholder ?_
  refine Json.Fields.getD_bind hasSpacing spacing ?_
  refine Json.Fields.getD_bind hasBold bold ?_
  refine Json.Fields.getD_bind hasLegacy rfl ?_
  refine Json.Fields.getD_bind hasScript script ?_
  refine Json.Fields.getD_bind hasAbove above ?_
  refine Json.Fields.getD_bind hasBelow below ?_
  exact Json.Fields.getD_bind hasTab tab rfl

theorem Entity.ofJson?_toJson {e : Entity α}
    (finite : ∀ x ∈ e.scalars, Scalar.isFinite x = true) :
    ofJson? (e.toJson Json.ofScalar) = some e := by
  simp only [scalars, List.forall_mem_append] at finite
  obtain ⟨⟨⟨insertion, first⟩, direction⟩, last⟩ := finite
  have direction' : (Json.ofOption (Point.toJson Json.ofScalar) e.direction).optional?
      Point.ofJson? = some e.direction := by
    refine Json.optional?_ofOption fun p present => ⟨by rintro ⟨⟩, Point.ofJson?_toJson ?_⟩
    rw [Option.mem_def.mp present] at direction
    exact direction
  have numbers := List.forall_mem_append.mpr ⟨first, last⟩
  replace numbers := fun x member => Json.number?_ofScalar (numbers x member)
  simp only [List.cons_append, List.nil_append, List.forall_mem_cons] at numbers
  obtain ⟨height, width, rotation, lineSpace, widthFactor, oblique, -⟩ := numbers
  obtain ⟨f, fields, found⟩ := Json.exists_fields? (rfl : e.toJson Json.ofScalar = .obj _)
    (of_decide_eq_true rfl) _
  simp only [List.forall_mem_cons] at found
  obtain ⟨hasInsertion, hasHeight, hasWidth, hasAttachment, hasFlow, hasRotation, hasDirection,
    hasLineSpace, hasFont, hasWidthFactor, hasOblique, hasColor, -⟩ := found
  rw [ofJson?, fields]
  refine Json.Fields.getD_bind hasInsertion (Point.ofJson?_toJson insertion) ?_
  refine Json.Fields.getD_bind hasHeight height ?_
  refine Json.Fields.getD_bind hasWidth width ?_
  refine Json.Fields.getD_bind hasAttachment e.attachment.ofJson?_toJson ?_
  refine Json.Fields.getD_bind hasFlow e.flow.ofJson?_toJson ?_
  refine Json.Fields.getD_bind hasRotation rotation ?_
  refine Json.Fields.getD_bind hasDirection direction' ?_
  refine Json.Fields.getD_bind hasLineSpace lineSpace ?_
  refine Json.Fields.getD_bind hasFont rfl ?_
  refine Json.Fields.getD_bind hasWidthFactor widthFactor ?_
  refine Json.Fields.getD_bind hasOblique oblique ?_
  exact Json.Fields.getD_bind hasColor e.color.ofJson?_toJson rfl

/-! ## The input format -/

/-- What is written of the input format is read back. -/
structure Json.RoundTrips (α : Type) [Scalar α] : Prop where
  token : ∀ t : Token α, (∀ x ∈ t.scalars, Scalar.isFinite x = true) →
    Token.ofJson? (t.toJson ofScalar) = some t
  stream : ∀ tokens : List (Token α),
    (∀ t ∈ tokens, ∀ x ∈ t.scalars, Scalar.isFinite x = true) →
      (ofList (Token.toJson ofScalar) tokens).list? Token.ofJson? = some tokens
  settings : ∀ s : Settings α, (∀ x ∈ s.scalars, Scalar.isFinite x = true) →
    Settings.ofJson? (s.toJson ofScalar) = some s
  entity : ∀ e : Entity α, (∀ x ∈ e.scalars, Scalar.isFinite x = true) →
    Entity.ofJson? (e.toJson ofScalar) = some e
  colors : ∀ c : ReservedColors, ReservedColors.ofJson? (c.toJson : Json α) = some c
  /-- No two tokens are written alike. -/
  distinct : ∀ t u : Token α, (∀ x ∈ t.scalars, Scalar.isFinite x = true) →
    (∀ x ∈ u.scalars, Scalar.isFinite x = true) → t.toJson ofScalar = u.toJson ofScalar → t = u

/-- **Reading undoes writing** over the whole input format, for values whose scalars are finite. -/
theorem Json.round_trips : RoundTrips α where
  token _ finite := Token.ofJson?_toJson finite
  stream _ finite := list?_ofList fun t member => Token.ofJson?_toJson (finite t member)
  settings _ finite := Settings.ofJson?_toJson finite
  entity _ finite := Entity.ofJson?_toJson finite
  colors c := c.ofJson?_toJson
  distinct t u finite finite' same := by
    have read := Token.ofJson?_toJson finite
    rw [same, Token.ofJson?_toJson finite'] at read
    exact (Option.some.inj read).symm

/-- A stream with a word in pieces, a stack and paragraph properties, and an entity with a
direction, in binary64 numbers. -/
theorem Json.round_trips_binary64 :
    let tokens : List (Token Float) :=
      [.word (.parts ["Hel", "lo"]), .stack ⟨"1", "2", .slash⟩, .paragraphBreak,
        .format (.paragraph { indent := some (-0.5), tabs := some [2.5, 0.125] })]
    let entity : Entity Float := { Entity.standard with direction := some ⟨-0.0, 1⟩ }
    ((∀ t ∈ tokens, ∀ x ∈ t.scalars, Scalar.isFinite x = true) ∧
        (ofList (Token.toJson ofScalar) tokens).list? Token.ofJson? = some tokens) ∧
      (∀ x ∈ entity.scalars, Scalar.isFinite x = true) ∧
        Entity.ofJson? (entity.toJson ofScalar) = some entity := by
  intro tokens entity
  have stream : ∀ t ∈ tokens, ∀ x ∈ t.scalars, Scalar.isFinite x = true := by decide
  have measures : ∀ x ∈ entity.scalars, Scalar.isFinite x = true := by decide
  exact ⟨⟨stream, Json.round_trips.stream tokens stream⟩, measures,
    Json.round_trips.entity entity measures⟩

end Lettering
