import Legible.Proofs.Live.Store
import Legible.Proofs.Live.Validation
import Legible.Proofs.Theme.Backdrop

/-!
# Computed values pass validation

A computed brand property reads token properties of the index and nothing else, a
computed component property those or a brand property. The validator therefore
accepts every computed value as it is: nothing is repaired and nothing refused.
-/

namespace Legible

open Property

/-- A value that reads token properties of the index and nothing else, with no weight
of its own. -/
inductive ReadsTokens (index : Token.Index) : Value → Prop where
  | reference {path : Token.Path} {held : Token.Value}
      (target : index.values[path]? = some held) :
      ReadsTokens index (.reference (Name.ofToken path))
  | blend {front back share : Token.Path} {frontHeld backHeld shareHeld : Token.Value}
      (foreground : index.values[front]? = some frontHeld)
      (background : index.values[back]? = some backHeld)
      (weight : index.values[share]? = some shareHeld) :
      ReadsTokens index
        (.blend (Name.ofToken front) (Name.ofToken back) (.property (Name.ofToken share)))

theorem Composes.readsTokens {index : Token.Index} {value : Value} {color : Color}
    (composes : Composes index value color) : ReadsTokens index value := by
  cases composes with
  | reference held => exact .reference held
  | blend frontHeld backHeld shareHeld isShare => exact .blend frontHeld backHeld shareHeld

/-- The validator repairs literals and weights of their own alone. -/
theorem Validation.value_of_indirection {name : Name} {value : Value} {index : Token.Index}
    {verdict : Verdict} (indirection : value.isLiteral = false)
    (weight : value.hasFixedWeight = false) (ok : validate name value index = .ok verdict) :
    verdict.value = value := by
  cases readable : name.tier.readable? with
  | none =>
      rw [validate, readable] at ok
      cases ok
      rfl
  | some allowed =>
      have answers : Answers index allowed name value (validate name value index) :=
        answers_validate readable
      rw [ok] at answers
      cases answers.mends with
      | kept => rfl
      | literal => cases indirection
      | weight => cases weight

namespace ReadsTokens

variable {index : Token.Index} {value : Value}

theorem isLiteral (reads : ReadsTokens index value) : value.isLiteral = false := by
  cases reads <;> rfl

theorem hasFixedWeight (reads : ReadsTokens index value) : value.hasFixedWeight = false := by
  cases reads <;> rfl

/-- Such a value is a reference or a blend by a property. -/
theorem shape (reads : ReadsTokens index value) :
    (∃ target, value = .reference target) ∨
      ∃ front back share, value = .blend front back (.property share) := by
  cases reads with
  | reference => exact .inl ⟨_, rfl⟩
  | blend => exact .inr ⟨_, _, _, rfl⟩

/-- Everything that is read is the property of a token. -/
theorem exists_of_mem (reads : ReadsTokens index value) {target : Name}
    (member : target ∈ value.references) :
    ∃ path held, target = Name.ofToken path ∧ index.values[path]? = some held := by
  cases reads with
  | reference held =>
      exact ⟨_, _, List.mem_singleton.1 member, held⟩
  | blend foreground background weight =>
      simp only [Value.references, Weight.property?, Option.toList_some, List.cons_append,
        List.nil_append, List.mem_cons, List.not_mem_nil, or_false] at member
      rcases member with rfl | rfl | rfl
      · exact ⟨_, _, rfl, foreground⟩
      · exact ⟨_, _, rfl, background⟩
      · exact ⟨_, _, rfl, weight⟩

end ReadsTokens

namespace Configuration

variable {configuration : Configuration} {issues : List Issue} {name : Name} {entry : Entry}

/-- The forms that computed entries have: a token's literal, a value of tokens in the
brand or component tier, or a component property that follows a brand property. -/
inductive Form (configuration : Configuration) (name : Name) (entry : Entry) : Prop where
  | literal (path : Token.Path) (held : Token.Value) (named : name = Name.ofToken path)
      (token : configuration.index.values[path]? = some held)
      (value : entry.value = .literal held.literal) (origin : entry.origin = none)
  | tokens (tier : name.tier = .brand ∨ name.tier = .ui)
      (reads : ReadsTokens configuration.index entry.value) (derived : entry.origin.isSome)
  | brand (tier : name.tier = .ui) (text : String) (subsystem : Subsystem) (path : List String)
      (read : Reference.read text = .property subsystem path)
      (value : entry.value =
        .reference (Name.brand configuration.options.uiKitMode subsystem path))
      (derived : entry.origin.isSome)

theorem isSome_origin_entry {context : LayerContext} {anchor : Anchor} {backdrop : Backdrop}
    {blended : Bool} (search : ForegroundSearch context anchor backdrop blended) (origin : Origin) :
    (search.entry origin).origin.isSome = true := by
  rw [ForegroundSearch.entry]
  split <;> rfl

/-- The index holds the target of every reference that is resolved to a token. -/
theorem readsTokens_of_resolveToken {mode : Mode} {reference : Reference} {target : Token.Path}
    (resolved : (configuration.resolver mode).resolveToken reference = .ok target) :
    ReadsTokens configuration.index (.reference (Name.ofToken target)) := by
  obtain ⟨held, found⟩ := Resolver.exists_of_resolveToken resolved
  exact .reference found

/-- Every computed entry has one of the forms. -/
theorem Part.form (part : Part configuration issues name entry) : Form configuration name entry := by
  cases part with
  | token held => exact .literal _ _ rfl held rfl rfl
  | core bound =>
      exact .tokens (.inl (Name.tier_brand _ _ _)) (.reference (isHeld_of_bound bound)) rfl
  | tone bound named =>
      exact .tokens (.inl (Name.tier_brand _ _ _))
        (.reference (isHeld_of_named? bound named).1) rfl
  | onTone bound named onTone reported =>
      have contrasting := (isHeld_of_named? bound named).2
      rw [onTone] at contrasting
      obtain ⟨⟨black, white⟩, anchors, rfl⟩ := Option.map_eq_some_iff.1 contrasting.symm
      exact .tokens (.inl (Name.tier_brand _ _ _)) (.reference (isHeld_of_choose anchors)) rfl
  | copied listed _ _ resolved =>
      exact .tokens (.inl (Name.tier_brand _ _ _)) (readsTokens_of_resolveToken resolved) rfl
  | surface _ found =>
      exact .tokens (.inl (Name.tier_brand _ _ _)) (.reference (isHeld_of_surfaceOf found)) rfl
  | text found search reported =>
      exact .tokens (.inl (Name.tier_brand _ _ _))
        (composes_of_search search _ fun _ => isHeld_of_surfaceOf found).readsTokens
        (isSome_origin_entry search _)
  | interactiveTone found bound search reported =>
      exact .tokens (.inl (Name.tier_brand _ _ _))
        (composes_of_search search _ fun _ => isHeld_of_surfaceOf found).readsTokens
        (isSome_origin_entry search _)
  | interactiveOnTone found bound tone search reported =>
      exact .tokens (.inl (Name.tier_brand _ _ _))
        (composes_of_search search _ fun blended => by cases blended).readsTokens
        (isSome_origin_entry search _)
  | status listed found search reported =>
      exact .tokens (.inl (Name.tier_brand _ _ _))
        (composes_of_search search _ fun _ => isHeld_of_surfaceOf found).readsTokens
        (isSome_origin_entry search _)
  | componentToken resolved =>
      exact .tokens (.inr (Name.tier_ui _)) (readsTokens_of_resolveToken resolved) rfl
  | componentBrand read => exact .brand (Name.tier_ui _) _ _ _ read rfl rfl

/-- Outside the token tier every added entry has an origin. -/
theorem isSome_origin_of_mem (tier : name.tier ≠ .tokens)
    (member : (name, entry) ∈ configuration.entries) : entry.origin.isSome := by
  cases (part_of_mem member).form with
  | literal path _ named =>
      rw [named, Name.tier_ofToken] at tier
      exact absurd rfl tier
  | tokens _ _ derived => exact derived
  | brand _ _ _ _ _ _ derived => exact derived

/-- No token property has an origin. -/
theorem tier_ne_of_origin? {origin : Origin}
    (derived : configuration.compute.map.origin? name = some origin) : name.tier ≠ .tokens := by
  rw [compute_map] at derived
  obtain ⟨entry, member, own⟩ := PropertyMap.mem_of_origin? derived
  cases (part_of_mem member).form with
  | literal _ _ _ _ _ none =>
      rw [none] at own
      cases own
  | tokens tier => rcases tier with tier | tier <;> simp [tier]
  | brand tier => simp [tier]

/-! ## Validation -/

/-- Every token of a configuration is published. -/
theorem isSome_pathOf? {path : Token.Path} {held : Token.Value}
    (token : configuration.index.values[path]? = some held) :
    (configuration.index.pathOf? (Name.ofToken path)).isSome = true := by
  rw [configuration.index_eq] at token ⊢
  exact Option.isSome_iff_exists.2 (Token.Index.pathOf?_ofToken token)

/-- A tier that may read tokens may read every value of tokens. -/
theorem checkIndirection_of_readsTokens {value : Value}
    (reads : ReadsTokens configuration.index value) {allowed : List Tier}
    (tokens : Tier.tokens ∈ allowed) :
    Validation.checkIndirection name value allowed configuration.index =
      .ok (.accepted value) := by
  have permitted : Validation.forbidden? allowed value = none := by
    have targets : value.references.find? (fun target => !allowed.contains target.tier) = none := by
      rw [List.find?_eq_none]
      intro target member
      obtain ⟨path, held, rfl, -⟩ := reads.exists_of_mem member
      simp [Name.tier_ofToken, tokens]
    cases reads with
    | reference held =>
        rw [Validation.forbidden?, targets]
        · rfl
        · intro _ _ _ equal
          cases equal
    | blend foreground background weight =>
        rw [Validation.forbidden?, targets]
        simp [Name.tier_ofToken]
  have known : Validation.unknown? configuration.index value = none := by
    rw [Validation.unknown?, List.find?_eq_none]
    intro target member
    obtain ⟨path, held, rfl, token⟩ := reads.exists_of_mem member
    rw [← Option.not_isSome, isSome_pathOf? token]
    simp
  rw [Validation.checkIndirection, permitted, known]
  cases reads <;> rfl

/-- A component property may follow any brand property. -/
theorem checkIndirection_brand (mode : Mode) (subsystem : Subsystem) (path : List String) :
    Validation.checkIndirection name (.reference (Name.brand mode subsystem path))
        [.brand, .tokens] configuration.index =
      .ok (.accepted (.reference (Name.brand mode subsystem path))) := by
  have permitted : Validation.forbidden? [.brand, .tokens]
      (.reference (Name.brand mode subsystem path)) = none := by
    simp [Validation.forbidden?, Value.references, Name.tier_brand]
  have known : Validation.unknown? configuration.index
      (.reference (Name.brand mode subsystem path)) = none := by
    simp [Validation.unknown?, Value.references, Name.tier_brand]
  rw [Validation.checkIndirection, permitted, known]
  rfl

/-- The validator accepts every computed value as it is. -/
theorem validate_of_form (form : Form configuration name entry) :
    validate name entry.value configuration.index = .ok (.accepted entry.value) := by
  cases form with
  | literal path held named token value origin =>
      rw [validate, named, Name.tier_ofToken]
      rfl
  | tokens tier reads derived =>
      obtain ⟨allowed, readable, tokens⟩ :
          ∃ allowed, name.tier.readable? = some allowed ∧ Tier.tokens ∈ allowed := by
        rcases tier with brand | ui
        · exact ⟨_, by rw [brand]; rfl, by decide⟩
        · exact ⟨_, by rw [ui]; rfl, by decide⟩
      have checked : Validation.checkIndirection name entry.value allowed configuration.index =
          .ok (.accepted entry.value) :=
        checkIndirection_of_readsTokens reads tokens
      rw [validate, readable]
      cases shape : entry.value with
      | literal text =>
          have := reads.isLiteral
          rw [shape] at this
          cases this
      | reference target =>
          rw [shape] at checked
          exact checked
      | blend front back weight =>
          rw [shape] at checked
          exact checked
  | brand tier text subsystem path read value derived =>
      rw [validate, tier, value]
      exact checkIndirection_brand _ _ _

/-- No computed value has a weight of its own. -/
theorem hasFixedWeight_of_form (form : Form configuration name entry) :
    entry.value.hasFixedWeight = false := by
  cases form with
  | literal path held named token value origin =>
      rw [value]
      rfl
  | tokens tier reads derived => exact reads.hasFixedWeight
  | brand tier text subsystem path read value derived =>
      rw [value]
      rfl

/-- The values that the computed map holds have the form of an entry. -/
theorem form_of_value? {value : Value}
    (held : configuration.compute.map.value? name = some value) :
    ∃ entry, Form configuration name entry ∧ entry.value = value := by
  rw [compute_map] at held
  obtain ⟨entry, member, equal⟩ := PropertyMap.mem_of_value? held
  exact ⟨entry, (part_of_mem member).form, equal⟩

theorem validate_of_value? {value : Value}
    (held : configuration.compute.map.value? name = some value) :
    validate name value configuration.index = .ok (.accepted value) := by
  obtain ⟨entry, form, rfl⟩ := form_of_value? held
  exact validate_of_form form

/-- The values of the computed map are accepted as they are. -/
theorem accepts_values (configuration : Configuration) :
    Store.Accepts configuration.index configuration.compute.map.values := fun _ _ member =>
  validate_of_value? ((PropertyMap.mem_values _ _ _).1 member)

/-- Writing a computed map into an empty registry leaves the map and nothing else. -/
theorem renders_apply (configuration : Configuration) :
    ((Store.ofRegistry .empty).apply configuration.compute.map
      configuration.index).1.registry.Renders configuration.compute.map := by
  rw [Store.apply, Store.applyValues_of_accepts _ configuration.accepts_values]
  exact Store.renders_putAll_values _ Registry.get?_empty

/-- Writing a computed map is reported without issues. -/
theorem issues_apply (configuration : Configuration) (store : Store) :
    (store.apply configuration.compute.map configuration.index).2.issues = [] := by
  rw [Store.apply, Store.applyValues_of_accepts _ configuration.accepts_values]
  rfl

theorem hasFixedWeight_of_value? {value : Value}
    (held : configuration.compute.map.value? name = some value) :
    value.hasFixedWeight = false := by
  obtain ⟨entry, form, rfl⟩ := form_of_value? held
  exact hasFixedWeight_of_form form

/-- Outside the token tier, no computed value is a literal. -/
theorem isLiteral_of_value? {value : Value}
    (held : configuration.compute.map.value? name = some value) (tier : name.tier ≠ .tokens) :
    value.isLiteral = false := by
  obtain ⟨entry, form, rfl⟩ := form_of_value? held
  cases form with
  | literal path token named =>
      rw [named, Name.tier_ofToken] at tier
      exact absurd rfl tier
  | tokens _ reads => exact reads.isLiteral
  | brand _ text subsystem path read value =>
      rw [value]
      rfl

/-- The validator repairs no computed value, whatever tokens it consults: it lets the value
through as it is, or refuses it. -/
theorem value_of_validate {value : Value} {index : Token.Index} {verdict : Verdict}
    (held : configuration.compute.map.value? name = some value)
    (ok : validate name value index = .ok verdict) : verdict.value = value := by
  by_cases tier : name.tier = .tokens
  · rw [validate, tier] at ok
    cases ok
    rfl
  · exact Validation.value_of_indirection (isLiteral_of_value? held tier)
      (hasFixedWeight_of_value? held) ok

end Configuration

namespace Property.Value

/-- Values that agree are the same, unless they have weights of their own. -/
theorem eq_of_agrees {left right : Value} (agree : left.agrees right = true)
    (plain : left.hasFixedWeight = false) : left = right := by
  cases left with
  | literal text =>
      cases right <;> simp_all [agrees]
  | reference target =>
      cases right <;> simp_all [agrees]
  | blend front back weight =>
      cases weight with
      | percent amount => cases plain
      | property share =>
          cases right with
          | literal text => simp [agrees] at agree
          | reference target => simp [agrees] at agree
          | blend front' back' weight' =>
              cases weight' <;> simp_all [agrees, Weight.agrees]

/-- A value agrees with itself, unless it has a weight of its own. -/
theorem agrees_self {value : Value} (plain : value.hasFixedWeight = false) :
    value.agrees value = true := by
  cases value with
  | literal text => simp [agrees]
  | reference target => simp [agrees]
  | blend front back weight =>
      cases weight with
      | percent amount => cases plain
      | property share => simp [agrees, Weight.agrees]

end Property.Value

/-- A map does not differ from itself, except in weights of its own. -/
theorem Property.PropertyMap.not_mem_difference_self {map : PropertyMap} {name : Name}
    (plain : ∀ value, map.value? name = some value → value.hasFixedWeight = false) :
    name ∉ (map.difference map).changed ++ (map.difference map).removed := by
  rw [List.mem_append, mem_changed, mem_removed]
  rintro (⟨value, held, other⟩ | ⟨⟨value, held⟩, gone⟩)
  · rw [holds, held, Option.any_some, Value.agrees_self (plain value held)] at other
    cases other
  · rw [gone] at held
    cases held

/-- A property that is not in the difference of two maps is held alike by both, unless
it has a weight of its own. -/
theorem Property.PropertyMap.value?_eq_of_not_mem_difference {previous next : PropertyMap}
    {name : Name}
    (plain : ∀ value, previous.value? name = some value → value.hasFixedWeight = false)
    (unlisted : name ∉ (previous.difference next).changed ++ (previous.difference next).removed) :
    next.value? name = previous.value? name := by
  rw [List.mem_append, not_or, mem_changed, mem_removed] at unlisted
  obtain ⟨unchanged, unremoved⟩ := unlisted
  cases held : next.value? name with
  | none =>
      cases before : previous.value? name with
      | none => rfl
      | some value => exact absurd ⟨⟨value, before⟩, held⟩ unremoved
  | some value =>
      have holds : previous.holds name value = true := by
        apply eq_true_of_ne_false
        intro fails
        exact unchanged ⟨value, held, fails⟩
      obtain ⟨before, found, agrees⟩ := (Option.any_eq_true _ _).1 holds
      rw [found, Value.eq_of_agrees agrees (plain before found)]

end Legible
