import Legible.Proofs.Live.Validation
import Legible.Proofs.Theme.Shown

/-!
# Purity of the live tiers

A store that only the store itself writes holds no literal in the brand and component
tiers: every text there reads as a reference or as a blend, and what it reads is in a
tier that the property may read. The validator sees to that for values, and a value is
what its text reads as when the names in it are plain. A token under any other name is
published all the same: a text that reads it is a literal.
-/

namespace Legible

open Property

/-- Whether the brand properties that a value reads have plain names. -/
def Property.Value.ReadsPlainly (value : Value) : Prop :=
  ∀ target ∈ value.references, target.tier = .brand → target.IsPlain

/-- An indirection over plain names reads back from its text. -/
theorem Property.Value.IsIndirect.read_render {allowed : List Tier} {value : Value}
    (indirect : value.IsIndirect allowed) (plain : ∀ target ∈ value.references, target.IsPlain) :
    Value.read value.render = value := by
  cases indirect with
  | reference readable => exact read_render_reference (plain _ (List.mem_singleton_self _))
  | blend front back share =>
      exact read_render_blend (plain _ (by simp [references])) (plain _ (by simp [references]))
        (plain _ (by simp [references, Weight.property?]))

/-- Every token of an index has a plain name. -/
def Token.Index.IsPlain (index : Token.Index) : Prop :=
  ∀ path held, index.values[path]? = some held → (Name.ofToken path).IsPlain

theorem Token.Index.HasPlainNames.isPlain {index : Token.Index} (names : index.HasPlainNames) :
    index.IsPlain :=
  fun path held token => Name.isPlain_ofToken (names.plain path held token)

section

variable {name : Name} {value : Value} {allowed : List Tier} {tokens : Document}
  {verdict : Verdict}

/-- In a tier with a list, the validator lets indirections alone through. They read
tokens of the index, and otherwise what the validated value reads. -/
theorem isIndirect_of_validate (readable : name.tier.readable? = some allowed)
    (ok : validate name value (.ofDocument tokens) = .ok verdict) :
    verdict.value.IsIndirect allowed ∧
      ∀ target ∈ verdict.value.references,
        (∃ path held, target = Name.ofToken path ∧
          (Token.Index.ofDocument tokens).values[path]? = some held) ∨
        target.tier ≠ .tokens ∧ target ∈ value.references := by
  have answers : Validation.Answers (.ofDocument tokens) allowed name value (.ok verdict) :=
    ok ▸ Validation.answers_validate readable
  have fits := Validation.fits_of_answers (Tier.of_readable? readable).1 answers
  refine ⟨fits.indirect, fun target member => ?_⟩
  by_cases tier : target.tier = .tokens
  · obtain ⟨path, found⟩ := Option.isSome_iff_exists.1 (fits.known target member tier)
    obtain ⟨named, held, token⟩ := Token.Index.exists_of_pathOf? found
    exact .inl ⟨path, held, named, token⟩
  · refine .inr ⟨tier, ?_⟩
    cases answers.mends with
    | kept => exact member
    | literal =>
        rw [List.mem_singleton.1 member, Name.tier_ofToken] at tier
        exact absurd rfl tier
    | weight =>
        rcases List.mem_append.1 member with operand | share
        · exact List.mem_append_left _ operand
        · rw [List.mem_singleton.1 share, Name.tier_ofToken] at tier
          exact absurd rfl tier

/-- What the validator lets through reads back as an indirection, when the names that
it may read are plain. -/
theorem isIndirect_read_of_validate (names : (Token.Index.ofDocument tokens).IsPlain)
    (plain : value.ReadsPlainly) (readable : name.tier.readable? = some allowed)
    (ok : validate name value (.ofDocument tokens) = .ok verdict) :
    (Value.read verdict.value.render).IsIndirect allowed := by
  obtain ⟨indirect, reads⟩ := isIndirect_of_validate readable ok
  rw [indirect.read_render]
  · exact indirect
  · intro target member
    rcases reads target member with ⟨path, held, rfl, token⟩ | ⟨notToken, own⟩
    · exact names path held token
    · have tier := (indirect.tier_of_mem member).resolve_right notToken
      exact plain target own (((Tier.of_readable? readable).2 _ tier).resolve_left notToken)

end

/-- What a text reads has plain names. -/
theorem Property.Value.readsPlainly_read (text : String) : (Value.read text).ReadsPlainly :=
  fun _ member _ => isPlain_of_read member

/-- The brand properties that a computed map reads have plain names. -/
theorem Configuration.readsPlainly_of_value? {configuration : Configuration} {name : Name}
    {value : Value} (held : configuration.compute.map.value? name = some value) :
    value.ReadsPlainly := by
  intro target member brand
  obtain ⟨entry, form, rfl⟩ := form_of_value? held
  cases form with
  | literal path token named held literal =>
      rw [literal] at member
      cases member
  | tokens tier reads =>
      obtain ⟨path, token, rfl, -⟩ := reads.exists_of_mem member
      rw [Name.tier_ofToken] at brand
      cases brand
  | brand tier text subsystem path read value =>
      rw [value] at member
      rw [List.mem_singleton.1 member]
      exact Name.isPlain_brand _ _ (Reference.isNameCharacter_of_read read)

namespace Store

/-- A store whose brand and component properties read what they may read, and nothing
else. -/
structure IsPure (store : Store) : Prop where
  brand : ∀ name text, store.get? name = some text → name.tier = .brand →
    (Value.read text).IsIndirect [.tokens]
  ui : ∀ name text, store.get? name = some text → name.tier = .ui →
    (Value.read text).IsIndirect [.brand, .tokens]

/-- Something that is done with a store, with the token document that it consults. -/
inductive Operation where
  | apply (configuration : Configuration) (tokens : Document)
  | applyDifference (previous next : Configuration) (tokens : Document)
  | applyValues (values : List (Name × Value)) (tokens : Document)
  | write (name : Name) (text : String) (tokens : Document)
  | remove (name : Name)
  | clear
  | takeEvents

/-- Does one operation. A refused write changes nothing. -/
def operate (store : Store) : Operation → Store
  | .apply configuration tokens =>
      (store.apply configuration.compute.map (.ofDocument tokens)).1
  | .applyDifference previous next tokens =>
      (store.applyDifference previous.compute.map next.compute.map (.ofDocument tokens)).1
  | .applyValues values tokens => (store.applyValues values (.ofDocument tokens)).1
  | .write name text tokens =>
      match store.write name text (.ofDocument tokens) with
      | .ok (written, _) => written
      | .error _ => store
  | .remove name => (store.remove name).1
  | .clear => store.clear.1
  | .takeEvents => store.takeEvents.1

/-- Whether the names that an operation may bring into a text are plain. Computed values
and written texts read no other brand properties. -/
def Operation.IsPlain : Operation → Prop
  | .apply _ tokens | .applyDifference _ _ tokens | .write _ _ tokens =>
      (Token.Index.ofDocument tokens).IsPlain
  | .applyValues values tokens =>
      (Token.Index.ofDocument tokens).IsPlain ∧ ∀ entry ∈ values, entry.2.ReadsPlainly
  | .remove _ | .clear | .takeEvents => True

/-! ## What each operation keeps -/

variable {store : Store}

theorem isPure_empty : (ofRegistry .empty).IsPure where
  brand name text live := by
    rw [show (ofRegistry .empty).get? name = none from Registry.get?_empty name] at live
    cases live
  ui name text live := by
    rw [show (ofRegistry .empty).get? name = none from Registry.get?_empty name] at live
    cases live

/-- A store that shows no more is as pure. -/
theorem IsPure.mono {other : Store} (pure : store.IsPure)
    (less : ∀ name text, other.get? name = some text → store.get? name = some text) :
    other.IsPure where
  brand name text live := pure.brand name text (less name text live)
  ui name text live := pure.ui name text (less name text live)

/-- Putting an indirection where the tier wants one keeps a store pure. -/
theorem IsPure.put {name : Name} {value : Value} (pure : store.IsPure)
    (indirect : ∀ allowed, name.tier.readable? = some allowed →
      (Value.read value.render).IsIndirect allowed) : (store.put name value).IsPure := by
  have shown (other : Name) (text : String) (live : (store.put name value).get? other = some text) :
      other = name ∧ text = value.render ∨ store.get? other = some text := by
    by_cases same : name = other
    · rw [← same, get?_put_self] at live
      exact .inl ⟨same.symm, (Option.some.inj live).symm⟩
    · rw [get?_put_of_ne _ _ same] at live
      exact .inr live
  constructor
  · intro other text live tier
    rcases shown other text live with ⟨rfl, rfl⟩ | before
    · exact indirect _ (by rw [tier]; rfl)
    · exact pure.brand other text before tier
  · intro other text live tier
    rcases shown other text live with ⟨rfl, rfl⟩ | before
    · exact indirect _ (by rw [tier]; rfl)
    · exact pure.ui other text before tier

theorem IsPure.putAll {values : List (Name × Value)} (pure : store.IsPure)
    (indirect : ∀ entry ∈ values, ∀ allowed, entry.1.tier.readable? = some allowed →
      (Value.read entry.2.render).IsIndirect allowed) : (store.putAll values).IsPure := by
  induction values using List.reverseRecOn with
  | nil => exact pure
  | append_singleton values last inductionHypothesis =>
      rw [putAll_append_singleton]
      exact (inductionHypothesis fun entry member =>
        indirect entry (List.mem_append_left _ member)).put
          (indirect last (List.mem_append_right _ List.mem_cons_self))

/-- What is still set after some properties were dropped was set before. -/
theorem get?_of_get?_dropAll {names : List Name} {name : Name} {text : String}
    (live : (names.foldl drop store).get? name = some text) : store.get? name = some text := by
  rw [get?_dropAll] at live
  split at live
  · cases live
  · exact live

section

variable {tokens : Document} (names : (Token.Index.ofDocument tokens).IsPlain)
include names

theorem IsPure.applyValues {values : List (Name × Value)} (pure : store.IsPure)
    (plain : ∀ entry ∈ values, entry.2.ReadsPlainly) :
    (store.applyValues values (.ofDocument tokens)).1.IsPure := by
  rw [applyValues_eq]
  refine IsPure.mono (pure.putAll fun entry member => ?_) fun _ _ live => live
  obtain ⟨⟨name, verdict⟩, taken, rfl⟩ := List.mem_map.1 member
  obtain ⟨value, offered, ok⟩ := mem_verdicts.1 taken
  exact fun allowed readable => isIndirect_read_of_validate names (plain _ offered) readable ok

theorem IsPure.applyDifference {previous next : PropertyMap} (pure : store.IsPure)
    (plain : ∀ name value, next.value? name = some value → value.ReadsPlainly) :
    (store.applyDifference previous next (.ofDocument tokens)).1.IsPure := by
  have values : ∀ entry ∈ (previous.difference next).changed.filterMap fun name =>
      (next.value? name).map fun value => (name, value), entry.2.ReadsPlainly := by
    intro entry member
    obtain ⟨name, -, given⟩ := List.mem_filterMap.1 member
    obtain ⟨value, held, rfl⟩ := Option.map_eq_some_iff.1 given
    exact plain name value held
  exact (pure.applyValues names values).mono fun _ _ live => get?_of_get?_dropAll live

theorem IsPure.write {name : Name} {text : String} {written : Store} {verdict : Verdict}
    (pure : store.IsPure)
    (ok : store.write name text (.ofDocument tokens) = .ok (written, verdict)) :
    written.IsPure := by
  rw [Store.write] at ok
  split at ok
  · cases ok
  · next verdict' validated =>
      cases ok
      refine (pure.put fun allowed readable => ?_).mono fun _ _ live => live
      exact isIndirect_read_of_validate names (Value.readsPlainly_read text) readable validated

end

theorem IsPure.operate {operation : Operation} (pure : store.IsPure) (plain : operation.IsPlain) :
    (store.operate operation).IsPure := by
  cases operation with
  | apply configuration tokens =>
      refine pure.applyValues plain fun entry member => ?_
      exact configuration.readsPlainly_of_value? ((PropertyMap.mem_values _ _ _).1 member)
  | applyDifference previous next tokens =>
      exact pure.applyDifference plain fun _ _ held => Configuration.readsPlainly_of_value? held
  | applyValues values tokens => exact pure.applyValues plain.1 plain.2
  | write name text tokens =>
      rw [Store.operate]
      split
      · next written verdict ok => exact pure.write plain ok
      · exact pure
  | remove name =>
      refine pure.mono fun other text live => ?_
      rw [Store.operate, get?_remove] at live
      split at live
      · cases live
      · exact live
  | clear => exact pure.mono fun _ _ live => get?_of_get?_dropAll live
  | takeEvents => exact pure.mono fun _ _ live => live

/-- Whatever is done with a store over an empty registry, no brand or component property
becomes a literal, nor does one read what it must not read. -/
theorem isPure_operate {operations : List Operation}
    (plain : ∀ operation ∈ operations, operation.IsPlain) :
    (operations.foldl operate (ofRegistry .empty)).IsPure := by
  induction operations using List.reverseRecOn with
  | nil => exact isPure_empty
  | append_singleton operations last inductionHypothesis =>
      rw [List.foldl_append]
      exact (inductionHypothesis fun operation member =>
        plain operation (List.mem_append_left _ member)).operate
          (plain last (List.mem_append_right _ List.mem_cons_self))

end Store

namespace Sample

/-- A token document of one gray, in a ramp of some name. -/
def ramp (name : String) : Document :=
  ⟨"tokens", .object [("color", .object
    [(name, .object [("500", .object [("$value", .text "#767676")])])])]⟩

/-- A component property that nothing computes. -/
def ink : Name := ⟨"--ui-card-ink"⟩

/-- A store with the tokens of a ramp of some name, where the ink is then written as a
color. -/
def inked (name : String) : Store :=
  [.apply (.ofDocuments (ramp name) (.empty "theme") (.empty "ui-kit") {}) (ramp name),
    .write ink "#767676" (ramp name)].foldl Store.operate (.ofRegistry .empty)

end Sample

namespace Store

/-- Ink that is written as a color reads the token that holds it. -/
theorem isPure_operate_inked :
    (Sample.inked "my-gray").IsPure ∧
      (Sample.inked "my-gray").get? Sample.ink = some "var(--tokens-color-my-gray-500)" := by
  have names : (Token.Index.ofDocument (Sample.ramp "my-gray")).IsPlain :=
    (Token.Index.hasPlainNames_of_tokens (by decide +kernel) (by decide +kernel)).isPlain
  refine ⟨isPure_operate fun operation member => ?_, by decide +kernel⟩
  rcases List.mem_cons.1 member with rfl | member
  · exact names
  · rw [List.mem_singleton.1 member]
    exact names

/-- Over a ramp whose name has a blank in it, the repaired ink is a literal. -/
theorem not_isPure_operate_inked :
    (Sample.inked "my gray").get? Sample.ink = some "var(--tokens-color-my gray-500)" ∧
      (Value.read "var(--tokens-color-my gray-500)").isLiteral = true ∧
      ¬ (Sample.inked "my gray").IsPure := by
  have facts : (Sample.inked "my gray").get? Sample.ink =
        some "var(--tokens-color-my gray-500)" ∧
      (Value.read "var(--tokens-color-my gray-500)").isLiteral = true := by
    decide +kernel
  refine ⟨facts.1, facts.2, fun pure => ?_⟩
  cases pure.ui Sample.ink _ facts.1 (by decide)

end Store

end Legible
