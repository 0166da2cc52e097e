import Legible.Property.Map
import Mathlib.Data.List.Induction

/-!
# What a property map holds

A map is filled by adding entries in order. What it holds under a name always comes
from the entries of that name: the value from the last one, the origin and the
binding from the last one that has any. Where every entry of a name has an origin,
value and origin come from the same entry.
-/

namespace Legible.Property.PropertyMap

open Std

/-! ## Lookups and lists -/

theorem entries_add (map : PropertyMap) (name other : Name) (entry : Entry) :
    (map.add name entry).entries[other]? =
      if name = other then
        some
          { value := entry.value
            origin := entry.origin.orElse fun _ => map.origin? name
            binding := entry.binding.orElse fun _ => map.binding? name }
      else map.entries[other]? := by
  by_cases same : name = other
  · subst same
    simp [add, origin?, binding?]
  · simp [add, TreeMap.getElem?_insert, same]

/-- Adding a last entry. -/
theorem ofList_append_singleton (entries : List (Name × Entry)) (entry : Name × Entry) :
    ofList (entries ++ [entry]) = (ofList entries).add entry.1 entry.2 := by
  rw [ofList, addAll_append]
  rfl

/-- A map is filled in two stretches as in one. -/
theorem addAll_ofList (first second : List (Name × Entry)) :
    (ofList first).addAll second = ofList (first ++ second) := by
  rw [ofList, ofList, addAll_append]

theorem contains_iff (map : PropertyMap) (name : Name) :
    map.contains name = true ↔ ∃ value, map.value? name = some value := by
  rw [contains, ← TreeMap.isSome_getElem?_eq_contains, value?]
  cases map.entries[name]? <;> simp

theorem contains_eq_false_iff (map : PropertyMap) (name : Name) :
    map.contains name = false ↔ map.value? name = none := by
  rw [← Bool.not_eq_true, contains_iff]
  cases map.value? name <;> simp

theorem mem_names (map : PropertyMap) (name : Name) :
    name ∈ map.names ↔ ∃ value, map.value? name = some value := by
  rw [names, TreeMap.mem_keys, TreeMap.mem_iff_contains]
  exact map.contains_iff name

/-- The listed values are the ones that are looked up. -/
theorem mem_values (map : PropertyMap) (name : Name) (value : Value) :
    (name, value) ∈ map.values ↔ map.value? name = some value := by
  simp only [values, toList, List.mem_map, Prod.mk.injEq, Prod.exists,
    TreeMap.mem_toList_iff_getElem?_eq_some, value?, Option.map_eq_some_iff]
  constructor
  · rintro ⟨_, entry, held, rfl, rfl⟩
    exact ⟨entry, held, rfl⟩
  · rintro ⟨entry, held, rfl⟩
    exact ⟨name, entry, held, rfl, rfl⟩

/-- The values are listed under the names of the map. -/
theorem map_fst_values (map : PropertyMap) : map.values.map Prod.fst = map.names := by
  rw [values, List.map_map, names, ← TreeMap.map_fst_toList_eq_keys]
  rfl

/-- The listed origins are the ones that are looked up. -/
theorem mem_origins (map : PropertyMap) (name : Name) (origin : Origin) :
    (name, origin) ∈ map.origins ↔ map.origin? name = some origin := by
  simp only [origins, toList, List.mem_filterMap, Option.map_eq_some_iff, Prod.mk.injEq,
    Prod.exists, TreeMap.mem_toList_iff_getElem?_eq_some, origin?, Option.bind_eq_some_iff]
  constructor
  · rintro ⟨_, entry, held, _, derived, rfl, rfl⟩
    exact ⟨entry, held, derived⟩
  · rintro ⟨entry, held, derived⟩
    exact ⟨name, entry, held, origin, derived, rfl, rfl⟩

/-- The listed pairs are the foregrounds with the backgrounds that are looked up. -/
theorem mem_pairs (map : PropertyMap) (foreground background : Name) :
    (foreground, background) ∈ map.pairs ↔ map.background? foreground = some background := by
  simp only [pairs, List.mem_filterMap, Option.map_eq_some_iff, Prod.mk.injEq, Prod.exists,
    mem_origins, background?, Option.bind_eq_some_iff]
  constructor
  · rintro ⟨_, origin, held, _, opposite, rfl, rfl⟩
    exact ⟨origin, held, opposite⟩
  · rintro ⟨origin, held, opposite⟩
    exact ⟨foreground, origin, held, background, opposite, rfl, rfl⟩

/-- A property has an origin only if it has a value. -/
theorem value?_of_origin? {map : PropertyMap} {name : Name} {origin : Origin}
    (derived : map.origin? name = some origin) : ∃ value, map.value? name = some value := by
  obtain ⟨entry, held, -⟩ := Option.bind_eq_some_iff.1 derived
  exact ⟨entry.value, by rw [value?, held]; rfl⟩

theorem value?_of_background? {map : PropertyMap} {name background : Name}
    (opposite : map.background? name = some background) :
    ∃ value, map.value? name = some value := by
  obtain ⟨_, derived, -⟩ := Option.bind_eq_some_iff.1 opposite
  exact value?_of_origin? derived

/-! ## Where what is held comes from -/

/-- A held value comes from an entry of its name. -/
theorem mem_of_value? {entries : List (Name × Entry)} {name : Name} {value : Value}
    (held : (ofList entries).value? name = some value) :
    ∃ entry, (name, entry) ∈ entries ∧ entry.value = value := by
  induction entries using List.reverseRecOn with
  | nil => simp [ofList, addAll, empty, value?] at held
  | append_singleton entries last inductionHypothesis =>
      rw [ofList_append_singleton] at held
      by_cases same : last.1 = name
      · rw [← same, value?_add_self] at held
        exact ⟨last.2, by simp [← same], Option.some.inj held⟩
      · rw [value?_add_of_ne _ _ same] at held
        obtain ⟨entry, member, equal⟩ := inductionHypothesis held
        exact ⟨entry, List.mem_append_left _ member, equal⟩

/-- What was added under a name is held, maybe with a later value. -/
theorem value?_of_mem {entries : List (Name × Entry)} {name : Name} {entry : Entry}
    (member : (name, entry) ∈ entries) : ∃ value, (ofList entries).value? name = some value := by
  induction entries using List.reverseRecOn with
  | nil => cases member
  | append_singleton entries last inductionHypothesis =>
      rw [ofList_append_singleton]
      by_cases same : last.1 = name
      · exact ⟨last.2.value, by rw [← same, value?_add_self]⟩
      · rw [value?_add_of_ne _ _ same]
        refine inductionHypothesis ?_
        rcases List.mem_append.1 member with earlier | final
        · exact earlier
        · exact absurd (congrArg Prod.fst (List.mem_singleton.1 final)).symm same

/-- Where an added entry covers what was held of a part, or keeps it if it has none of
its own, whatever is held of that part comes from an entry of its name. -/
theorem mem_of_part {Part : Type} (part : Entry → Option Part)
    (covers : ∀ (map : PropertyMap) (name : Name) (entry : Entry),
      (map.add name entry).entries[name]?.bind part =
        (part entry).orElse fun _ => map.entries[name]?.bind part)
    {entries : List (Name × Entry)} {name : Name} {held : Part}
    (holds : (ofList entries).entries[name]?.bind part = some held) :
    ∃ entry, (name, entry) ∈ entries ∧ part entry = some held := by
  induction entries using List.reverseRecOn with
  | nil => simp [ofList, addAll, empty] at holds
  | append_singleton entries last inductionHypothesis =>
      rw [ofList_append_singleton] at holds
      by_cases own : last.1 = name ∧ part last.2 = some held
      · refine ⟨last.2, ?_, own.2⟩
        simp [← own.1]
      · -- Otherwise it was held before.
        have before : (ofList entries).entries[name]?.bind part = some held := by
          by_cases same : last.1 = name
          · subst same
            rw [covers] at holds
            cases given : part last.2 with
            | some other =>
                rw [given] at holds
                exact absurd ⟨rfl, given.trans holds⟩ own
            | none =>
                rw [given] at holds
                exact holds
          · rw [entries_add, if_neg same] at holds
            exact holds
        obtain ⟨entry, member, equal⟩ := inductionHypothesis before
        exact ⟨entry, List.mem_append_left _ member, equal⟩

/-- A held origin comes from an entry of its name. -/
theorem mem_of_origin? {entries : List (Name × Entry)} {name : Name} {origin : Origin}
    (held : (ofList entries).origin? name = some origin) :
    ∃ entry, (name, entry) ∈ entries ∧ entry.origin = some origin := by
  apply mem_of_part Entry.origin _ held
  intro map name entry
  rw [entries_add, if_pos rfl]
  rfl

/-- A held binding comes from an entry of its name. -/
theorem mem_of_binding? {entries : List (Name × Entry)} {name : Name} {binding : Binding}
    (held : (ofList entries).binding? name = some binding) :
    ∃ entry, (name, entry) ∈ entries ∧ entry.binding = some binding := by
  apply mem_of_part Entry.binding _ held
  intro map name entry
  rw [entries_add, if_pos rfl]
  rfl

/-- Where an entry of a name has a binding, a binding is held. -/
theorem exists_binding?_of_mem {entries : List (Name × Entry)} {name : Name} {entry : Entry}
    (member : (name, entry) ∈ entries) (bound : entry.binding.isSome = true) :
    ∃ binding, (ofList entries).binding? name = some binding := by
  obtain ⟨binding, own⟩ := Option.isSome_iff_exists.1 bound
  induction entries using List.reverseRecOn with
  | nil => cases member
  | append_singleton entries last inductionHypothesis =>
      rw [ofList_append_singleton, binding?, entries_add]
      rcases List.mem_append.1 member with earlier | final
      · obtain ⟨held, before⟩ := inductionHypothesis earlier
        split
        · next same =>
            rw [← same] at before
            cases given : last.2.binding with
            | some other => exact ⟨other, by simp⟩
            | none => exact ⟨held, by simp [before]⟩
        · exact ⟨held, before⟩
      · obtain rfl := List.mem_singleton.1 final
        exact ⟨binding, by simp [own]⟩

/-- Where every entry of a name has an origin, value and origin are held together. -/
theorem mem_of_value?_of_origins {entries : List (Name × Entry)} {name : Name} {value : Value}
    (derived : ∀ entry, (name, entry) ∈ entries → entry.origin.isSome)
    (held : (ofList entries).value? name = some value) :
    ∃ entry, (name, entry) ∈ entries ∧ entry.value = value ∧
      (ofList entries).origin? name = entry.origin := by
  induction entries using List.reverseRecOn with
  | nil => simp [ofList, addAll, empty, value?] at held
  | append_singleton entries last inductionHypothesis =>
      by_cases same : last.1 = name
      · refine ⟨last.2, by simp [← same], ?_, ?_⟩
        · rw [ofList_append_singleton, ← same, value?_add_self] at held
          exact Option.some.inj held
        · obtain ⟨origin, own⟩ :=
            Option.isSome_iff_exists.1 (derived last.2 (by simp [← same]))
          rw [ofList_append_singleton, origin?, entries_add, if_pos same]
          simp [own]
      · rw [ofList_append_singleton, value?_add_of_ne _ _ same] at held
        obtain ⟨entry, member, equal, origin⟩ :=
          inductionHypothesis
            (fun entry member => derived entry (List.mem_append_left _ member)) held
        refine ⟨entry, List.mem_append_left _ member, equal, ?_⟩
        rw [ofList_append_singleton, origin?, entries_add, if_neg same]
        exact origin

/-! ## Differences -/

theorem mem_changed (previous next : PropertyMap) (name : Name) :
    name ∈ (previous.difference next).changed ↔
      ∃ value, next.value? name = some value ∧ previous.holds name value = false := by
  simp only [difference, List.mem_map, List.mem_filter, Prod.exists, mem_values,
    Bool.not_eq_true', exists_and_right, exists_eq_right]

theorem mem_removed (previous next : PropertyMap) (name : Name) :
    name ∈ (previous.difference next).removed ↔
      (∃ value, previous.value? name = some value) ∧ next.value? name = none := by
  simp only [difference, List.mem_filter, mem_names, Bool.not_eq_true', contains_eq_false_iff]

end Legible.Property.PropertyMap
