import Mathlib.Data.List.Induction
import Legible.Live.Store
import Legible.Proofs.Property.Map
import Legible.Watch.Flush

/-!
# What the store leaves in the registry

A batch of values that the validator accepts as they are is set value by value, and
the report lists its names. Unsetting a list of names leaves all others alone.
-/

namespace Legible

open Property

namespace Registry

/-- A registry that holds the values of a map and nothing else. -/
def Renders (registry : Registry) (map : PropertyMap) : Prop :=
  ∀ name, registry.get? name = (map.value? name).map Value.render

/-- Registries with the same texts list the same texts. -/
theorem toList_congr {first second : Registry}
    (same : ∀ name, first.get? name = second.get? name) : first.toList = second.toList :=
  Std.TreeMap.Equiv.toList_eq (Std.TreeMap.Equiv.of_forall_constGet?_eq same)

/-- The listed texts are the ones that are looked up. -/
theorem mem_toList (registry : Registry) (name : Name) (text : String) :
    (name, text) ∈ registry.toList ↔ registry.get? name = some text :=
  Std.TreeMap.mem_toList_iff_getElem?_eq_some

theorem contains_eq_isSome (registry : Registry) (name : Name) :
    registry.contains name = (registry.get? name).isSome :=
  Std.TreeMap.isSome_getElem?_eq_contains.symm

@[simp] theorem get?_empty (name : Name) : Registry.empty.get? name = none :=
  Std.TreeMap.getElem?_emptyc

end Registry

namespace Store

/-! ## Batches -/

/-- Sets a list of values in order. -/
def putAll (store : Store) (values : List (Name × Value)) : Store :=
  values.foldl (fun store entry => store.put entry.1 entry.2) store

theorem putAll_append_singleton (store : Store) (values : List (Name × Value))
    (last : Name × Value) :
    store.putAll (values ++ [last]) = (store.putAll values).put last.1 last.2 := by
  rw [putAll, List.foldl_append]
  rfl

/-- A name that is not in the list keeps its text. -/
theorem get?_putAll_of_absent {store : Store} {values : List (Name × Value)} {name : Name}
    (absent : ∀ value, (name, value) ∉ values) :
    (store.putAll values).get? name = store.get? name := by
  induction values using List.reverseRecOn with
  | nil => rfl
  | append_singleton values last inductionHypothesis =>
      have different : last.1 ≠ name := by
        rintro rfl
        exact absent last.2 (List.mem_append_right _ List.mem_cons_self)
      rw [putAll_append_singleton, get?_put_of_ne _ _ different]
      exact inductionHypothesis fun value member => absent value (List.mem_append_left _ member)

/-- A name of the list holds the text of one of its values. -/
theorem exists_of_get?_putAll {store : Store} {values : List (Name × Value)} {name : Name}
    (listed : name ∈ values.map Prod.fst) :
    ∃ value, (name, value) ∈ values ∧ (store.putAll values).get? name = some value.render := by
  induction values using List.reverseRecOn with
  | nil => cases listed
  | append_singleton values last inductionHypothesis =>
      rw [putAll_append_singleton]
      by_cases same : last.1 = name
      · refine ⟨last.2, List.mem_append_right _ ?_, ?_⟩
        · rw [← same]
          exact List.mem_cons_self
        · rw [← same, get?_put_self]
      · rw [List.map_append, List.mem_append] at listed
        obtain ⟨value, member, held⟩ := inductionHypothesis
          (listed.resolve_right fun own => same (List.mem_singleton.1 own).symm)
        exact ⟨value, List.mem_append_left _ member, by rw [get?_put_of_ne _ _ same, held]⟩

/-- A name of the list holds the text of its value, when the list has one value for
it. -/
theorem get?_putAll_of_mem {store : Store} {values : List (Name × Value)} {name : Name}
    {value : Value} (member : (name, value) ∈ values)
    (unique : ∀ other, (name, other) ∈ values → other = value) :
    (store.putAll values).get? name = some value.render := by
  obtain ⟨other, listed, put⟩ :=
    @exists_of_get?_putAll store values name (List.mem_map_of_mem member)
  rw [put, unique other listed]

/-- What the validator takes of a batch, with its verdicts. -/
def verdicts (index : Token.Index) (values : List (Name × Value)) : List (Name × Verdict) :=
  values.filterMap fun entry =>
    (validate entry.1 entry.2 index).toOption.map fun verdict => (entry.1, verdict)

/-- What the validator refuses of a batch. -/
def refusals (index : Token.Index) (values : List (Name × Value)) : List WriteError :=
  values.filterMap fun entry =>
    match validate entry.1 entry.2 index with
    | .error error => some error
    | .ok _ => none

theorem mem_verdicts {index : Token.Index} {values : List (Name × Value)} {name : Name}
    {verdict : Verdict} :
    (name, verdict) ∈ verdicts index values ↔
      ∃ value, (name, value) ∈ values ∧ validate name value index = .ok verdict := by
  simp only [verdicts, List.mem_filterMap, Option.map_eq_some_iff, Prod.mk.injEq, Prod.exists]
  constructor
  · rintro ⟨_, value, listed, _, taken, rfl, rfl⟩
    refine ⟨value, listed, ?_⟩
    cases outcome : validate _ value index with
    | error error =>
        rw [outcome] at taken
        cases taken
    | ok verdict =>
        rw [outcome] at taken
        exact congrArg Except.ok (Option.some.inj taken)
  · rintro ⟨value, listed, ok⟩
    exact ⟨name, value, listed, verdict, by rw [ok]; rfl, rfl, rfl⟩

/-- A batch sets what the validator takes, value by value, and reports what it refuses. What
is refused has no part in anything else. -/
theorem applyValues_eq (store : Store) (values : List (Name × Value)) (index : Token.Index) :
    store.applyValues values index =
      ((store.putAll ((verdicts index values).map fun taken => (taken.1, taken.2.value))).emit
          (Event.updated ((verdicts index values).map Prod.fst)),
        { applied := (verdicts index values).map Prod.fst
          repaired := (verdicts index values).filterMap fun taken =>
            taken.2.replaced?.map fun replaced => (taken.1, replaced)
          rejected := refusals index values }) := by
  have stepwise : values.foldl (fun state entry => applyValue index state entry.1 entry.2)
      (store, {}) =
        (store.putAll ((verdicts index values).map fun taken => (taken.1, taken.2.value)),
          { applied := (verdicts index values).map Prod.fst
            repaired := (verdicts index values).filterMap fun taken =>
              taken.2.replaced?.map fun replaced => (taken.1, replaced)
            rejected := refusals index values }) := by
    induction values using List.reverseRecOn with
    | nil => rfl
    | append_singleton values last inductionHypothesis =>
        rw [List.foldl_append, inductionHypothesis, List.foldl_cons, List.foldl_nil, applyValue]
        cases outcome : validate last.1 last.2 index with
        | error error => simp [verdicts, refusals, outcome, Except.toOption]
        | ok verdict =>
            have taken : verdicts index (values ++ [last]) =
                verdicts index values ++ [(last.1, verdict)] := by
              simp [verdicts, outcome, Except.toOption]
            simp only [taken, List.map_append, List.map_cons, List.map_nil, putAll_append_singleton]
            cases verdict <;> simp [refusals, outcome, Verdict.replaced?]
  rw [applyValues, stepwise]

/-- A batch whose values are accepted as they are. -/
def Accepts (index : Token.Index) (values : List (Name × Value)) : Prop :=
  ∀ name value, (name, value) ∈ values → validate name value index = .ok (.accepted value)

/-- An accepted batch is set value by value, and nothing else is reported. -/
theorem applyValues_of_accepts {index : Token.Index} {values : List (Name × Value)}
    (store : Store) (accepted : Accepts index values) :
    store.applyValues values index =
      ((store.putAll values).emit (Event.updated (values.map Prod.fst)),
        { applied := values.map Prod.fst }) := by
  have taken : verdicts index values = values.map fun entry => (entry.1, .accepted entry.2) := by
    induction values with
    | nil => rfl
    | cons first rest inductionHypothesis =>
        have own := accepted first.1 first.2 List.mem_cons_self
        rw [verdicts, List.filterMap_cons]
        simp only [own, Except.toOption, Option.map_some, List.map_cons, List.cons.injEq, true_and]
        exact inductionHypothesis fun name value listed =>
          accepted name value (List.mem_cons_of_mem _ listed)
  have refused : refusals index values = [] := by
    refine List.filterMap_eq_nil_iff.2 fun entry listed => ?_
    simp [accepted entry.1 entry.2 listed]
  have silent : (values.map fun entry => (entry.1, Verdict.accepted entry.2)).filterMap
      (fun taken => taken.2.replaced?.map fun replaced => (taken.1, replaced)) = [] := by
    simp [List.filterMap_map, Verdict.replaced?]
  rw [applyValues_eq, taken, refused, silent]
  simp [List.map_map, Function.comp_def, Verdict.value]

/-- After a batch a property is as it was, or shows what the validator made of one of its
values. -/
theorem get?_applyValues_cases {store : Store} {values : List (Name × Value)} {index : Token.Index}
    (name : Name) :
    (store.applyValues values index).1.get? name = store.get? name ∨
      ∃ value verdict, (name, value) ∈ values ∧ validate name value index = .ok verdict ∧
        (store.applyValues values index).1.get? name = some verdict.value.render := by
  rw [applyValues_eq]
  by_cases listed : name ∈ ((verdicts index values).map
      fun taken => (taken.1, taken.2.value)).map Prod.fst
  · obtain ⟨put, member, live⟩ := @exists_of_get?_putAll store _ name listed
    obtain ⟨⟨own, verdict⟩, taken, same⟩ := List.mem_map.1 member
    obtain ⟨rfl, rfl⟩ := Prod.mk.inj same
    obtain ⟨value, offered, ok⟩ := mem_verdicts.1 taken
    exact .inr ⟨value, verdict, offered, ok, live⟩
  · refine .inl (get?_putAll_of_absent fun put member => listed ?_)
    exact List.mem_map_of_mem member

/-- A batch leaves the text of what is not in it, whatever the validator says. -/
theorem get?_applyValues_of_absent {store : Store} {values : List (Name × Value)} {name : Name}
    {index : Token.Index} (absent : ∀ value, (name, value) ∉ values) :
    (store.applyValues values index).1.get? name = store.get? name :=
  (get?_applyValues_cases name).resolve_right fun ⟨value, _, member, _⟩ => absent value member

/-- A property with one value in a batch holds what the validator made of it, if it took
it. -/
theorem get?_applyValues_of_ok {store : Store} {values : List (Name × Value)} {index : Token.Index}
    {name : Name} {value : Value} {verdict : Verdict} (member : (name, value) ∈ values)
    (unique : ∀ other, (name, other) ∈ values → other = value)
    (ok : validate name value index = .ok verdict) :
    (store.applyValues values index).1.get? name = some verdict.value.render := by
  rw [applyValues_eq]
  refine get?_putAll_of_mem (List.mem_map.2
    ⟨(name, verdict), mem_verdicts.2 ⟨value, member, ok⟩, rfl⟩) fun put listed => ?_
  obtain ⟨⟨own, verdict'⟩, taken, same⟩ := List.mem_map.1 listed
  obtain ⟨rfl, rfl⟩ := Prod.mk.inj same
  obtain ⟨other, offered, ok'⟩ := mem_verdicts.1 taken
  rw [unique other offered, ok] at ok'
  cases ok'
  rfl

/-- A write leaves the other properties alone. -/
theorem get?_write_of_ne {store written : Store} {name other : Name} {text : String}
    {index : Token.Index} {verdict : Verdict}
    (ok : store.write name text index = .ok (written, verdict)) (different : name ≠ other) :
    written.get? other = store.get? other := by
  rw [write] at ok
  split at ok
  · cases ok
  · cases ok
    exact get?_put_of_ne _ _ different

/-- Writing values of the shown map again changes no text. -/
theorem renders_putAll {store : Store} {map : PropertyMap} {values : List (Name × Value)}
    (shows : store.registry.Renders map)
    (fromMap : ∀ name value, (name, value) ∈ values → map.value? name = some value) :
    (store.putAll values).registry.Renders map := by
  intro name
  by_cases member : ∃ value, (name, value) ∈ values
  · obtain ⟨value, member⟩ := member
    have held := fromMap name value member
    have written : (store.putAll values).get? name = some value.render :=
      get?_putAll_of_mem member fun other listed =>
        Option.some.inj ((fromMap name other listed).symm.trans held)
    rw [held]
    exact written
  · have unchanged : (store.putAll values).get? name = store.get? name :=
      get?_putAll_of_absent fun value listed => member ⟨value, listed⟩
    exact unchanged.trans (shows name)

/-- Writing all values of a map into an empty registry shows the map. -/
theorem renders_putAll_values {store : Store} (map : PropertyMap)
    (empty : ∀ name, store.get? name = none) :
    (store.putAll map.values).registry.Renders map := by
  intro name
  cases held : map.value? name with
  | none =>
      have absent : ∀ value, (name, value) ∉ map.values := by
        intro value member
        rw [PropertyMap.mem_values, held] at member
        cases member
      exact (get?_putAll_of_absent absent).trans (empty name)
  | some value =>
      refine get?_putAll_of_mem ((PropertyMap.mem_values _ _ _).2 held) fun other member => ?_
      rw [PropertyMap.mem_values, held] at member
      exact (Option.some.inj member).symm

/-! ## Unsetting -/

theorem get?_remove (store : Store) (name other : Name) :
    (store.remove name).1.get? other = if name = other then none else store.get? other := by
  have dropped : (store.remove name).1.get? other = (store.drop name).get? other := by
    rw [remove]
    split <;> rfl
  rw [dropped]
  by_cases same : name = other
  · rw [if_pos same, same, get?_drop_self]
  · rw [if_neg same, get?_drop_of_ne _ same]

/-- What was unset is gone, and everything else is as it was. -/
theorem get?_unsetAll (store : Store) (names : List Name) (name : Name) :
    (store.unsetAll names).1.get? name = if name ∈ names then none else store.get? name := by
  have unsetLast (names : List Name) (last : Name) :
      (store.unsetAll (names ++ [last])).1 = ((store.unsetAll names).1.remove last).1 := by
    rw [unsetAll, List.foldl_append]
    rfl
  induction names using List.reverseRecOn with
  | nil => rfl
  | append_singleton names last inductionHypothesis =>
      rw [unsetLast, get?_remove, inductionHypothesis]
      by_cases same : last = name
      · simp [same]
      · simp [same, Ne.symm same]

/-- So it is where the names are dropped without an event. -/
theorem get?_dropAll (store : Store) (names : List Name) (name : Name) :
    (names.foldl drop store).get? name = if name ∈ names then none else store.get? name := by
  induction names using List.reverseRecOn with
  | nil => rfl
  | append_singleton names last inductionHypothesis =>
      rw [List.foldl_append, List.foldl_cons, List.foldl_nil]
      by_cases same : last = name
      · simp [same]
      · rw [get?_drop_of_ne _ same, inductionHypothesis]
        simp [Ne.symm same]

/-- What is to be unset and is set is listed as unset. -/
theorem mem_removed_unsetAll {store : Store} {names : List Name} {name : Name}
    (listed : name ∈ names) (set : store.get? name ≠ none) : name ∈ (store.unsetAll names).2 := by
  have unsetLast (names : List Name) (last : Name) :
      (store.unsetAll (names ++ [last])).2 =
        if ((store.unsetAll names).1.remove last).2 then (store.unsetAll names).2 ++ [last]
        else (store.unsetAll names).2 := by
    rw [unsetAll, List.foldl_append]
    rfl
  induction names using List.reverseRecOn with
  | nil => cases listed
  | append_singleton names last inductionHypothesis =>
      rw [unsetLast]
      by_cases earlier : name ∈ names
      · have member := inductionHypothesis earlier
        split
        · exact List.mem_append_left _ member
        · exact member
      · -- The last name is still set when its turn comes.
        have own : name = last :=
          List.mem_singleton.1 ((List.mem_append.1 listed).resolve_left earlier)
        have still : (store.unsetAll names).1.get? last ≠ none := by
          rw [get?_unsetAll, if_neg (own ▸ earlier), ← own]
          exact set
        have wasSet : ((store.unsetAll names).1.remove last).2 = true := by
          rw [remove, if_pos]
          rw [Registry.contains_eq_isSome, Option.isSome_iff_ne_none]
          exact still
        rw [if_pos wasSet, own]
        exact List.mem_append_right _ List.mem_cons_self

end Store

end Legible
