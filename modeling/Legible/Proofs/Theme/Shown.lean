import Legible.Proofs.Live.Inspection
import Legible.Proofs.Reference.Text
import Legible.Proofs.Theme.Soundness

/-!
# What a written map shows

Where a registry holds a computed map and nothing else, every token property shows
its token, every text of the brand and component tiers reads back as the value it was
written from, and every pair of the map renders as it was measured. The names of the
tokens have to be plain and distinct for that, and their shares have to read back
from their written form.
-/

namespace Legible

open Property

/-! ## Plain names -/

/-- Each token of an index has a property name of its own, of name characters only. -/
structure Token.Index.HasPlainNames (index : Token.Index) : Prop where
  plain : ∀ path held, index.values[path]? = some held →
    ∀ character ∈ (Name.ofToken path).text.toList, Text.isNameCharacter character = true
  distinct : ∀ path other held held', index.values[path]? = some held →
    index.values[other]? = some held' → Name.ofToken path = Name.ofToken other → path = other

/-- The names can be checked on the list of tokens. -/
theorem Token.Index.hasPlainNames_of_tokens {index : Token.Index}
    (plain : ∀ entry ∈ index.tokens,
      (Name.ofToken entry.1).text.toList.all Text.isNameCharacter = true)
    (distinct : ∀ entry ∈ index.tokens, ∀ other ∈ index.tokens,
      Name.ofToken entry.1 = Name.ofToken other.1 → entry.1 = other.1) :
    index.HasPlainNames where
  plain path held token :=
    List.all_eq_true.1 (plain (path, held) ((index.mem_tokens path held).2 token))
  distinct path other held held' token token' :=
    distinct (path, held) ((index.mem_tokens path held).2 token) (other, held')
      ((index.mem_tokens other held').2 token')

/-- The shares that an index holds read back from their written form. -/
def Token.Index.ReadsShares (index : Token.Index) : Prop :=
  ∀ (path : Token.Path) (amount : Float), index.values[path]? = some (.number amount) →
    Token.isShare amount = true → Numeric.Decimal.read? (Numeric.text amount).toList = some amount

/-- So can the shares. -/
theorem Token.Index.readsShares_of_tokens {index : Token.Index}
    (reads : ∀ entry ∈ index.tokens, ∀ amount ∈ entry.2.number?, Token.isShare amount = true →
      Numeric.Decimal.read? (Numeric.text amount).toList = some amount) : index.ReadsShares :=
  fun path amount token => reads (path, .number amount) ((index.mem_tokens path _).2 token) amount rfl

/-- Whether a registry shows the tokens of an index can be checked on the list of tokens. -/
theorem Registry.shows_of_tokens {registry : Registry} {index : Token.Index}
    (colors : ∀ entry ∈ index.tokens, ∀ color ∈ entry.2.color?,
      (Evaluation.colorAt registry maxEvaluationDepth (Name.ofToken entry.1)).toOption = some color)
    (numbers : ∀ entry ∈ index.tokens, ∀ amount ∈ entry.2.number?, Token.isShare amount = true →
      (Evaluation.numberAt registry maxEvaluationDepth (Name.ofToken entry.1)).toOption =
        some amount) (path : Token.Path) : registry.Shows index path where
  color shade held := by
    have shown := colors (path, .color shade) ((index.mem_tokens path _).2 held) shade rfl
    revert shown
    cases Evaluation.colorAt registry maxEvaluationDepth (Name.ofToken path) with
    | error error => exact fun none => by cases none
    | ok color => exact fun same => congrArg Except.ok (Option.some.inj same)
  number amount held isShare := by
    have shown := numbers (path, .number amount) ((index.mem_tokens path _).2 held) amount rfl
      isShare
    revert shown
    cases Evaluation.numberAt registry maxEvaluationDepth (Name.ofToken path) with
    | error error => exact fun none => by cases none
    | ok number => exact fun same => congrArg Except.ok (Option.some.inj same)

/-- Where names are distinct, a value composes to one color. -/
theorem Composes.unique {index : Token.Index} {value : Value} {first second : Color}
    (names : index.HasPlainNames) (left : Composes index value first)
    (right : Composes index value second) : first = second := by
  have same {path other : Token.Path} {held held' : Token.Value}
      (token : index.values[path]? = some held) (token' : index.values[other]? = some held')
      (named : Name.ofToken path = Name.ofToken other) : held = held' := by
    obtain rfl := names.distinct path other held held' token token' named
    exact Option.some.inj (token.symm.trans token')
  generalize own : value = other at right
  cases left with
  | reference held =>
      cases right with
      | reference held' =>
          cases same held held' (Value.reference.inj own)
          rfl
      | blend => cases own
  | blend front back share =>
      cases right with
      | reference => cases own
      | blend front' back' share' =>
          obtain ⟨frontName, backName, weight⟩ := Value.blend.inj own
          cases same front front' frontName
          cases same back back' backName
          cases same share share' (Weight.property.inj weight)
          rfl

namespace Property.Name

/-- A name of name characters only is plain when it goes on after its dashes. -/
theorem isPlain_of_forall {name : Name} {rest : List Char}
    (begins : name.text.toList = '-' :: '-' :: rest) (present : rest ≠ [])
    (all : ∀ character ∈ name.text.toList, Text.isNameCharacter character = true) :
    name.IsPlain := by
  refine ⟨rest, begins, present, fun character member => all character ?_⟩
  rw [begins]
  exact List.mem_cons_of_mem _ (List.mem_cons_of_mem _ member)

theorem isPlain_ofToken {path : Token.Path}
    (all : ∀ character ∈ (ofToken path).text.toList, Text.isNameCharacter character = true) :
    (ofToken path).IsPlain := by
  have begins : (ofToken path).text.toList =
      '-' :: '-' :: ("tokens".toList ++ (dashed path.segments).toList) := by
    rw [ofToken, String.toList_append]
    rfl
  exact isPlain_of_forall begins (by simp) all

theorem isPlain_brand (mode : Mode) (subsystem : Subsystem) {path : List String}
    (all : ∀ segment ∈ path, ∀ character ∈ segment.toList,
      Text.isNameCharacter character = true) : (brand mode subsystem path).IsPlain := by
  have begins : (brand mode subsystem path).text.toList =
      '-' :: '-' :: ("brand".toList ++
        (dashed (mode.text :: subsystem.text :: path)).toList) := by
    rw [brand, String.toList_append]
    rfl
  refine isPlain_of_forall begins (by simp) fun character member => ?_
  have inMode : mode.text.toList.all Text.isNameCharacter = true := by
    cases mode <;> decide
  have inSubsystem : subsystem.text.toList.all Text.isNameCharacter = true := by
    cases subsystem <;> decide
  rw [brand, String.toList_append, List.mem_append, toList_dashed] at member
  rcases member with head | dashes
  · revert head
    exact fun head => List.all_eq_true.1 (by decide : "--brand".toList.all _ = true) _ head
  · obtain ⟨segment, listed, held⟩ := List.mem_flatMap.1 dashes
    rcases List.mem_cons.1 held with rfl | inside
    · decide
    · rcases List.mem_cons.1 listed with rfl | listed
      · exact List.all_eq_true.1 inMode character inside
      · rcases List.mem_cons.1 listed with rfl | listed
        · exact List.all_eq_true.1 inSubsystem character inside
        · exact all segment listed character inside

end Property.Name

namespace Reference

/-- The path of a property reference is part of its segments. -/
theorem mem_of_ofSegments? {segments path : List String} {subsystem : Subsystem}
    (read : ofSegments? segments = some (.property subsystem path)) :
    ∀ segment ∈ path, segment ∈ segments := by
  unfold ofSegments? at read
  split at read
  · simp at read
  · cases read
  · cases read
  · obtain ⟨mode, -, rest⟩ := Option.bind_eq_some_iff.1 read
    obtain ⟨place, -, given⟩ := Option.bind_eq_some_iff.1 rest
    cases given
  · next rest _ =>
      split at read
      · cases read
      · next subsystem' first more _ =>
          obtain ⟨found, -, given⟩ := Option.map_eq_some_iff.1 read
          cases given
          exact fun segment member =>
            List.mem_cons_of_mem _ (List.mem_cons_of_mem _ member)
      · cases read
  · cases read

/-- A reference to a property spells its path in name characters. -/
theorem isNameCharacter_of_read {text : String} {subsystem : Subsystem} {path : List String}
    (read : Reference.read text = .property subsystem path) :
    ∀ segment ∈ path, ∀ character ∈ segment.toList, Text.isNameCharacter character = true := by
  rw [Reference.read] at read
  cases spelled : segmentsOf? (Text.trimCharacters text.toList) with
  | none =>
      rw [spelled] at read
      cases read
  | some segments =>
      cases known : ofSegments? segments with
      | none =>
          rw [spelled, Option.bind_some, known] at read
          cases read
      | some reference =>
          rw [spelled, Option.bind_some, known, Option.getD_some] at read
          rw [read] at known
          exact fun segment member => (isSegment_iff.1 (isSegment_of_segmentsOf? spelled segment
            (mem_of_ofSegments? known segment member))).2

end Reference

namespace Configuration

variable {configuration : Configuration} {registry : Registry}

/-! ## Texts that read back -/

theorem isPlain_of_held (names : configuration.index.HasPlainNames) {path : Token.Path}
    {held : Token.Value} (token : configuration.index.values[path]? = some held) :
    (Name.ofToken path).IsPlain :=
  Name.isPlain_ofToken (names.plain path held token)

/-- A value that reads tokens reads back from its text. -/
theorem read_render_of_readsTokens (names : configuration.index.HasPlainNames) {value : Value}
    (reads : ReadsTokens configuration.index value) : Value.read value.render = value := by
  cases reads with
  | reference held => exact Value.read_render_reference (isPlain_of_held names held)
  | blend front back share =>
      exact Value.read_render_blend (isPlain_of_held names front) (isPlain_of_held names back)
        (isPlain_of_held names share)

/-- What is computed outside the token tier reads back from its text. -/
theorem read_render_of_value? (names : configuration.index.HasPlainNames) {name : Name}
    {value : Value} (held : configuration.compute.map.value? name = some value)
    (tier : name.tier ≠ .tokens) : Value.read value.render = value := by
  obtain ⟨entry, form, rfl⟩ := form_of_value? held
  cases form with
  | literal path token named =>
      rw [named, Name.tier_ofToken] at tier
      exact absurd rfl tier
  | tokens _ reads => exact read_render_of_readsTokens names reads
  | brand _ text subsystem path read value =>
      rw [value]
      exact Value.read_render_reference
        (Name.isPlain_brand _ _ (Reference.isNameCharacter_of_read read))

/-! ## Tokens -/

/-- The property of a token holds what the token holds, when no other token has a property
of that name. -/
theorem value?_ofToken_of_alone {path : Token.Path} {held : Token.Value}
    (token : configuration.index.values[path]? = some held)
    (alone : ∀ other value, configuration.index.values[other]? = some value →
      Name.ofToken other = Name.ofToken path → other = path) :
    configuration.compute.map.value? (Name.ofToken path) = some (.literal held.literal) := by
  obtain ⟨own, added⟩ : ∃ entry, (Name.ofToken path, entry) ∈ configuration.entries :=
    ⟨_, List.mem_append_left _ (List.mem_append_left _ (List.mem_map.2
      ⟨(path, held), (Token.Index.mem_tokens _ path held).2 token, rfl⟩))⟩
  obtain ⟨value, found⟩ := PropertyMap.value?_of_mem added
  rw [← compute_map] at found
  obtain ⟨entry, form, rfl⟩ := form_of_value? found
  rw [found]
  cases form with
  | literal other held' named token' value =>
      obtain rfl := alone other held' token' named.symm
      cases token.symm.trans token'
      rw [value]
  | tokens tier =>
      rw [Name.tier_ofToken] at tier
      rcases tier with tier | tier <;> cases tier
  | brand tier =>
      rw [Name.tier_ofToken] at tier
      cases tier

/-- A token's property holds what the token holds. -/
theorem value?_ofToken (names : configuration.index.HasPlainNames) {path : Token.Path}
    {held : Token.Value} (token : configuration.index.values[path]? = some held) :
    configuration.compute.map.value? (Name.ofToken path) = some (.literal held.literal) :=
  value?_ofToken_of_alone token fun other value found same =>
    (names.distinct path other held value token found same.symm).symm

/-- Where the map is shown, every token is. -/
theorem shows_of_renders (names : configuration.index.HasPlainNames)
    (shares : configuration.index.ReadsShares)
    (renders : registry.Renders configuration.compute.map) (path : Token.Path) :
    registry.Shows configuration.index path where
  color shade held := by
    refine @Evaluation.colorAt_of_hex registry (maxEvaluationDepth - 1) _ _ ?_
    rw [renders, value?_ofToken names held]
    rfl
  number amount held isShare := by
    refine @Evaluation.numberAt_of_text registry (maxEvaluationDepth - 1) _ _ ?_
      (shares path amount held isShare)
    rw [renders, value?_ofToken names held]
    rfl

/-! ## Pairs -/

/-- Every computed foreground was measured, with the value that the map holds. -/
theorem measured_of_background? {name background : Name} {value : Value}
    (held : configuration.compute.map.value? name = some value)
    (opposite : configuration.compute.map.background? name = some background) :
    ∃ front back, Measured configuration configuration.compute.issues name value background
      front back := by
  obtain ⟨origin, derived, back⟩ := Option.bind_eq_some_iff.1 opposite
  have tier := tier_ne_of_origin? derived
  rw [compute_map] at held derived
  obtain ⟨entry, member, rfl, same⟩ :=
    PropertyMap.mem_of_value?_of_origins (fun _ => isSome_origin_of_mem tier) held
  refine (part_of_mem member).measured ?_
  rw [← same, derived]
  exact back

/-- The value that the map holds for a measured background composes as it was
measured. -/
theorem composes_of_measured {issues : List Issue} {name background : Name} {value opposite : Value}
    {front back : Color} (measured : Measured configuration issues name value background front back)
    (held : configuration.compute.map.value? background = some opposite) :
    Composes configuration.index opposite back := by
  rw [compute_map] at held
  obtain ⟨entry, member, rfl⟩ := PropertyMap.mem_of_value? held
  exact measured.backComposes _ entry (part_of_mem member)

/-- A registry shows what was computed for a property: its text, over tokens that are
shown. -/
structure ShownAt (configuration : Configuration) (registry : Registry) (name : Name) :
    Prop where
  live : registry.get? name = (configuration.compute.map.value? name).map Value.render
  tokens : ∀ path, registry.Reads name (Name.ofToken path) →
    registry.Shows configuration.index path

/-- Where the map is shown, everything is that was computed. -/
theorem shownAt_of_renders (names : configuration.index.HasPlainNames)
    (shares : configuration.index.ReadsShares)
    (renders : registry.Renders configuration.compute.map) (name : Name) :
    configuration.ShownAt registry name where
  live := renders name
  tokens path _ := shows_of_renders names shares renders path

/-- Where a property is shown, it renders as its value composes. -/
theorem ShownAt.color (names : configuration.index.HasPlainNames) {name : Name} {value : Value}
    {color : Color} (shown : configuration.ShownAt registry name)
    (held : configuration.compute.map.value? name = some value)
    (composes : Composes configuration.index value color) : registry.color name = .ok color := by
  have live : registry.get? name = some value.render := by
    rw [shown.live, held]
    rfl
  have reads := read_render_of_readsTokens names composes.readsTokens
  refine Registry.color_of_composes live reads composes fun path member => ?_
  refine shown.tokens path ⟨value.render, live, ?_⟩
  rw [reads]
  exact member

/-- Where both sides of a pair are shown they render, and they are legible or reported. -/
theorem legible_of_shownAt (names : configuration.index.HasPlainNames) {name background : Name}
    (pair : configuration.compute.map.background? name = some background)
    (foreground : configuration.ShownAt registry name)
    (opposite : configuration.ShownAt registry background) :
    ∃ front back, registry.color name = .ok front ∧ registry.color background = .ok back ∧
      (ContrastRatio.threshold ≤ ContrastRatio.between front back ∨
        Inspection.isKnown configuration.compute.issues name = true) := by
  obtain ⟨value, held⟩ := PropertyMap.value?_of_background? pair
  obtain ⟨backValue, stands⟩ := exists_value?_of_background? pair
  obtain ⟨front, back, measured⟩ := measured_of_background? held pair
  exact ⟨front, back, foreground.color names held measured.frontComposes,
    opposite.color names stands (composes_of_measured measured stands), measured.legible⟩

end Configuration

/-! ## Nothing to report -/

/-- A registry in which a computation is shown without a live problem. -/
structure Computation.ShownBy (computation : Computation) (registry : Registry) : Prop where
  quiet : computation.liveIssues registry = []
  /-- Every computed property is set. -/
  set : ∀ name ∈ computation.map.names, registry.contains name = true
  /-- Every text of the brand and component tiers reads properties alone. -/
  indirect : ∀ name text, registry.get? name = some text → name.tier = .brand ∨ name.tier = .ui →
    (Value.read text).isLiteral = false ∧ (Value.read text).hasFixedWeight = false
  /-- Both sides of every pair render, and they are legible or reported. -/
  legible : ∀ foreground background, (foreground, background) ∈ computation.map.pairs →
    ∃ front back, registry.color foreground = .ok front ∧ registry.color background = .ok back ∧
      (ContrastRatio.threshold ≤ ContrastRatio.between front back ∨
        Inspection.isKnown computation.issues foreground = true)

namespace Configuration

variable {configuration : Configuration} {registry : Registry}

/-- A registry that holds a computed map and nothing else shows the computation. -/
theorem shownBy_of_renders (names : configuration.index.HasPlainNames)
    (shares : configuration.index.ReadsShares)
    (renders : registry.Renders configuration.compute.map) :
    configuration.compute.ShownBy registry := by
  have set : ∀ name ∈ configuration.compute.map.names, registry.contains name = true := by
    intro name member
    obtain ⟨value, held⟩ := (PropertyMap.mem_names _ _).1 member
    rw [Registry.contains_eq_isSome, renders, held]
    rfl
  have indirect : ∀ name text, registry.get? name = some text → name.tier ≠ .tokens →
      (Value.read text).isLiteral = false ∧ (Value.read text).hasFixedWeight = false := by
    intro name text live tier
    rw [renders] at live
    obtain ⟨value, held, rfl⟩ := Option.map_eq_some_iff.1 live
    rw [read_render_of_value? names held tier]
    exact ⟨isLiteral_of_value? held tier, hasFixedWeight_of_value? held⟩
  have legible : ∀ foreground background,
      (foreground, background) ∈ configuration.compute.map.pairs →
      ∃ front back, registry.color foreground = .ok front ∧
        registry.color background = .ok back ∧
        (ContrastRatio.threshold ≤ ContrastRatio.between front back ∨
          Inspection.isKnown configuration.compute.issues foreground = true) :=
    fun foreground background member =>
      legible_of_shownAt names ((PropertyMap.mem_pairs _ _ _).1 member)
        (shownAt_of_renders names shares renders foreground)
        (shownAt_of_renders names shares renders background)
  refine ⟨?_, set, fun name text live tier => indirect name text live ?_, legible⟩
  · rw [Computation.liveIssues, Inspection.unsetIssues_eq_nil set,
      Inspection.indirectionIssues_eq_nil indirect, Inspection.pairIssues_eq_nil legible]
    rfl
  · rcases tier with tier | tier <;> simp [tier]

end Configuration

end Legible
