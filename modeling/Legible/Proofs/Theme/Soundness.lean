import Legible.Proofs.Theme.Acceptance
import Legible.Proofs.Theme.Derivation
import Mathlib.Logic.Relation

/-!
# Computed maps are sound

A computed map holds literals for tokens and references or blends for everything else,
and whatever these read is in the map, in a tier that the property may read. What its
properties were derived from is in the map as well, and following derivations leads to
the tokens and never back. The store takes such a map as it is.
-/

namespace Legible

open Property

namespace Property.PropertyMap

/-- Whether a property of a map is derived from another. -/
def DerivedFrom (map : PropertyMap) (input name : Name) : Prop :=
  ∃ origin, map.origin? name = some origin ∧ input ∈ origin.inputs

/-- A property map that reads only what it holds, tier by tier, and that the store
takes as it is. -/
structure IsSound (map : PropertyMap) (index : Token.Index) : Prop where
  managed : ∀ name ∈ map.names, name.tier ≠ .foreign
  token : ∀ name value, map.value? name = some value → name.tier = .tokens →
    value.isLiteral = true
  brand : ∀ name value, map.value? name = some value → name.tier = .brand →
    ((∃ target, value = .reference target) ∨
        ∃ front back share, value = .blend front back (.property share)) ∧
      ∀ target ∈ value.references, target.tier = .tokens ∧ map.contains target = true
  ui : ∀ name value, map.value? name = some value → name.tier = .ui →
    ∃ target, value = .reference target ∧ (target.tier = .brand ∨ target.tier = .tokens) ∧
      map.contains target = true
  closed : ∀ name origin, map.origin? name = some origin →
    (∀ input ∈ origin.inputs, map.contains input = true) ∧
      ∀ background, origin.background = some background → map.contains background = true
  acyclic : ∀ name, ¬ Relation.TransGen map.DerivedFrom name name
  accepted : ∀ name value, map.value? name = some value →
    validate name value index = .ok (.accepted value)
  applied : ∀ store : Store, store.apply map index =
    ((store.putAll map.values).emit (Event.updated map.names), { applied := map.names })

end Property.PropertyMap

namespace Configuration

variable {configuration : Configuration} {name : Name} {value : Value}

theorem Adds.contains (added : configuration.Adds name) :
    configuration.compute.map.contains name = true :=
  (PropertyMap.contains_iff _ _).2 added.exists_value?

/-- What the computed map derives rests on what the map holds. -/
theorem rests_of_origin? {origin : Origin}
    (derived : configuration.compute.map.origin? name = some origin) :
    ∃ value, configuration.Rests name value origin := by
  rw [compute_map] at derived
  obtain ⟨entry, member, own⟩ := PropertyMap.mem_of_origin? derived
  exact ⟨entry.value, rests_of_mem member own⟩

/-- Outside the token tier, the value that the map holds comes with its origin. -/
theorem rests_of_value? (tier : name.tier ≠ .tokens)
    (held : configuration.compute.map.value? name = some value) :
    ∃ origin, configuration.compute.map.origin? name = some origin ∧
      configuration.Rests name value origin ∧
      ∃ entry, (name, entry) ∈ configuration.entries ∧ entry.value = value := by
  rw [compute_map] at held ⊢
  obtain ⟨entry, member, rfl, same⟩ :=
    PropertyMap.mem_of_value?_of_origins (fun _ => isSome_origin_of_mem tier) held
  obtain ⟨origin, own⟩ := Option.isSome_iff_exists.1 (isSome_origin_of_mem tier member)
  exact ⟨origin, same.trans own, rests_of_mem member own, entry, member, rfl⟩

/-- What a foreground stands on is in the map. -/
theorem exists_value?_of_background? {background : Name}
    (opposite : configuration.compute.map.background? name = some background) :
    ∃ value, configuration.compute.map.value? background = some value := by
  obtain ⟨origin, derived, back⟩ := Option.bind_eq_some_iff.1 opposite
  obtain ⟨value, rests⟩ := rests_of_origin? derived
  exact (rests.listed background (rests.background background back)).1.exists_value?

/-- The map holds literals for tokens. -/
theorem isLiteral_of_tokens (held : configuration.compute.map.value? name = some value)
    (tier : name.tier = .tokens) : value.isLiteral = true := by
  obtain ⟨entry, form, rfl⟩ := form_of_value? held
  cases form with
  | literal path token named held value => rw [value]; rfl
  | tokens other => rcases other with other | other <;> rw [tier] at other <;> cases other
  | brand other => rw [tier] at other; cases other

/-- Following derivations leads away from the tokens. -/
theorem rank_lt_of_derivedFrom {input : Name}
    (derived : Relation.TransGen configuration.compute.map.DerivedFrom input name) :
    input.rank < name.rank := by
  have step {input name : Name} (edge : configuration.compute.map.DerivedFrom input name) :
      input.rank < name.rank := by
    obtain ⟨origin, derived, listed⟩ := edge
    obtain ⟨value, rests⟩ := rests_of_origin? derived
    exact (rests.listed input listed).2
  induction derived with
  | single edge => exact step edge
  | tail _ edge inductionHypothesis => exact Nat.lt_trans inductionHypothesis (step edge)

/-- A component property refers to a token or a brand property, from which it is
derived. -/
theorem Part.of_ui {issues : List Issue} {entry : Entry} (tier : name.tier = .ui)
    (part : Part configuration issues name entry) :
    ∃ target, entry.value = .reference target ∧ entry.origin = some (.ofInputs [target]) ∧
      (target.tier = .brand ∨ target.tier = .tokens) := by
  cases part with
  | componentToken resolved => exact ⟨_, rfl, rfl, .inr (Name.tier_ofToken _)⟩
  | componentBrand read => exact ⟨_, rfl, rfl, .inl (Name.tier_brand _ _ _)⟩
  | token held =>
      rw [Name.tier_ofToken] at tier
      cases tier
  | _ =>
      have brand := tier
      simp only [CoreSlot.property, Palette.toneProperty, Palette.onToneProperty, LayerId.surface,
        LayerId.element, Name.tier_brand] at brand
      cases brand

/-- Every computed map is sound. -/
theorem isSound_compute (configuration : Configuration) :
    configuration.compute.map.IsSound configuration.index where
  managed name member := by
    obtain ⟨value, held⟩ := (PropertyMap.mem_names _ _).1 member
    obtain ⟨entry, form, -⟩ := form_of_value? held
    cases form with
    | literal path token named =>
        rw [named, Name.tier_ofToken]
        decide
    | tokens tier => rcases tier with tier | tier <;> rw [tier] <;> decide
    | brand tier => rw [tier]; decide
  token name value held tier := isLiteral_of_tokens held tier
  brand name value held tier := by
    obtain ⟨entry, form, rfl⟩ := form_of_value? held
    cases form with
    | literal path token named =>
        rw [named, Name.tier_ofToken] at tier
        cases tier
    | tokens _ reads =>
        refine ⟨reads.shape, fun target member => ?_⟩
        obtain ⟨path, token, rfl, found⟩ := reads.exists_of_mem member
        exact ⟨Name.tier_ofToken _, (adds_token found).contains⟩
    | brand other => rw [tier] at other; cases other
  ui name value held tier := by
    have notToken : name.tier ≠ .tokens := by rw [tier]; decide
    rw [compute_map] at held
    obtain ⟨entry, member, rfl, -⟩ :=
      PropertyMap.mem_of_value?_of_origins (fun _ => isSome_origin_of_mem notToken) held
    obtain ⟨target, value, derived, readable⟩ := (part_of_mem member).of_ui tier
    have listed := (rests_of_mem member derived).listed target
      (Origin.mem_ofInputs.2 (List.mem_singleton_self _))
    exact ⟨target, value, readable, listed.1.contains⟩
  closed name origin derived := by
    obtain ⟨value, rests⟩ := rests_of_origin? derived
    exact ⟨fun input listed => (rests.listed input listed).1.contains, fun background opposite =>
      (rests.listed background (rests.background background opposite)).1.contains⟩
  acyclic name cycle := Nat.lt_irrefl _ (rank_lt_of_derivedFrom cycle)
  accepted name value held := validate_of_value? held
  applied store := by
    rw [Store.apply, Store.applyValues_of_accepts store configuration.accepts_values,
      PropertyMap.map_fst_values]

end Configuration

end Legible
