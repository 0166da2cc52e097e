import Legible.Proofs.Live.Store

/-!
# What the store changes and announces

What is done to a registry is summed up by two lists: the names that were set, each as
often as it was, and the names that were unset. Both lists add up along a run. Every
operation of the store gives them, and the names that its events announce are the same
ones.
-/

namespace Legible

open Property

namespace Registry

variable {first second third : Registry} {set set' unset unset' : List Name} {name : Name}

/-- What happened between two states of a registry: the names of the first list were set,
each as often as it is listed, those of the second list were unset, and all others keep
their texts. -/
structure Changes (before : Registry) (set unset : List Name) (after : Registry) : Prop where
  counted : ∀ name, after.writeCount name = before.writeCount name + set.count name
  gone : ∀ name ∉ set, name ∈ unset →
    before.contains name = true ∧ after.contains name = false
  kept : ∀ name ∉ set, name ∉ unset → after.get? name = before.get? name

/-- Whether a name was set or unset between two states of a registry. -/
def Touched (before after : Registry) (name : Name) : Prop :=
  before.writeCount name < after.writeCount name ∨
    (before.contains name = true ∧ after.contains name = false)

theorem changes_refl (registry : Registry) : Changes registry [] [] registry :=
  ⟨fun _ => rfl, fun _ _ listed => absurd listed List.not_mem_nil, fun _ _ _ => rfl⟩

theorem contains_congr {before after : Registry} (same : after.get? name = before.get? name) :
    after.contains name = before.contains name := by
  rw [contains_eq_isSome, contains_eq_isSome, same]

/-- What happens in two stretches is what happens in both of them. -/
theorem Changes.trans (left : Changes first set unset second)
    (right : Changes second set' unset' third) :
    Changes first (set ++ set') (unset ++ unset') third where
  counted name := by
    rw [right.counted, left.counted, List.count_append, Nat.add_assoc]
  gone name unlisted listed := by
    rw [List.mem_append, not_or] at unlisted
    by_cases later : name ∈ unset'
    · obtain ⟨wasSet, isUnset⟩ := right.gone name unlisted.2 later
      by_cases earlier : name ∈ unset
      · -- What is unset already cannot be unset once more.
        rw [(left.gone name unlisted.1 earlier).2] at wasSet
        cases wasSet
      · exact ⟨contains_congr (left.kept name unlisted.1 earlier) ▸ wasSet, isUnset⟩
    · have earlier := (List.mem_append.1 listed).resolve_right later
      obtain ⟨wasSet, isUnset⟩ := left.gone name unlisted.1 earlier
      exact ⟨wasSet, (contains_congr (right.kept name unlisted.2 later)).trans isUnset⟩
  kept name unlisted spared := by
    rw [List.mem_append, not_or] at unlisted spared
    exact (right.kept name unlisted.2 spared.2).trans (left.kept name unlisted.1 spared.1)

/-- What was touched is what was set or unset. -/
theorem Changes.touched_iff (changes : Changes first set unset second) :
    first.Touched second name ↔ name ∈ set ∨ name ∈ unset := by
  rw [Touched, changes.counted]
  by_cases listed : name ∈ set
  · have counted : 0 < set.count name := List.count_pos_iff.2 listed
    exact ⟨fun _ => .inl listed, fun _ => .inl (by omega)⟩
  · rw [List.count_eq_zero_of_not_mem listed]
    refine ⟨fun touched => .inr ?_, fun either => .inr ?_⟩
    · obtain ⟨wasSet, isUnset⟩ := touched.resolve_left (Nat.lt_irrefl _)
      by_contra spared
      rw [contains_congr (changes.kept name listed spared), wasSet] at isUnset
      cases isUnset
    · exact changes.gone name listed (either.resolve_left listed)

/-! ## Single steps -/

theorem writeCount_set (registry : Registry) (name other : Name) (text : String) :
    (registry.set name text).writeCount other =
      registry.writeCount other + [name].count other := by
  rw [writeCount, writeCount, Registry.set, Std.TreeMap.getD_insert, List.count_singleton]
  by_cases same : name = other
  · simp [same]
  · simp [same]

theorem changes_set (registry : Registry) (name : Name) (text : String) :
    Changes registry [name] [] (registry.set name text) where
  counted other := writeCount_set registry name other text
  gone _ _ listed := absurd listed List.not_mem_nil
  kept _ unlisted _ :=
    get?_set_of_ne registry text fun same => unlisted (List.mem_singleton.2 same.symm)

/-- What is set is unset by being erased. -/
theorem changes_erase {registry : Registry} (isSet : registry.contains name = true) :
    Changes registry [] [name] (registry.erase name) where
  counted _ := rfl
  gone _ _ listed := by
    obtain rfl := List.mem_singleton.1 listed
    refine ⟨isSet, ?_⟩
    rw [contains_eq_isSome, get?_erase_self]
    rfl
  kept other _ spared :=
    get?_erase_of_ne registry fun same => spared (List.mem_singleton.2 same.symm)

/-- What is not set stays so by being erased. -/
theorem changes_erase_of_unset {registry : Registry} (isUnset : registry.contains name = false) :
    Changes registry [] [] (registry.erase name) where
  counted _ := rfl
  gone _ _ listed := absurd listed List.not_mem_nil
  kept other _ _ := by
    by_cases same : name = other
    · subst same
      rw [contains_eq_isSome, Option.isSome_eq_false_iff, Option.isNone_iff_eq_none] at isUnset
      rw [get?_erase_self, isUnset]
    · exact get?_erase_of_ne registry same

end Registry

namespace Event

/-- The names that some events announce as set or unset. -/
def updatedIn (events : List Event) : List Name :=
  events.flatMap fun event => if event.kind = .propertiesUpdated then event.names else []

theorem mem_updatedIn {events : List Event} {name : Name} :
    name ∈ updatedIn events ↔
      ∃ event ∈ events, event.kind = .propertiesUpdated ∧ name ∈ event.names := by
  simp only [updatedIn, List.mem_flatMap, List.mem_ite_nil_right]

theorem updatedIn_append (first second : List Event) :
    updatedIn (first ++ second) = updatedIn first ++ updatedIn second :=
  List.flatMap_append

@[simp] theorem updatedIn_updated (names : List Name) : updatedIn (updated names) = names := by
  cases names with
  | nil => rfl
  | cons name rest => exact List.flatMap_singleton _ _

/-- Events of other kinds announce nothing as set or unset. -/
theorem updatedIn_of_other {events : List Event}
    (other : ∀ event ∈ events, event.kind ≠ .propertiesUpdated) : updatedIn events = [] :=
  List.flatMap_eq_nil_iff.2 fun event listed => if_neg (other event listed)

/-- What is announced in two stretches is what both of them announce. -/
theorem announced_trans {first second third : List Event} {set set' unset unset' : List Name}
    (left : ∃ events, second = first ++ events ∧
      ∀ name, name ∈ updatedIn events ↔ name ∈ set ∨ name ∈ unset)
    (right : ∃ events, third = second ++ events ∧
      ∀ name, name ∈ updatedIn events ↔ name ∈ set' ∨ name ∈ unset') :
    ∃ events, third = first ++ events ∧
      ∀ name, name ∈ updatedIn events ↔ name ∈ set ++ set' ∨ name ∈ unset ++ unset' := by
  obtain ⟨events, listed, names⟩ := left
  obtain ⟨events', listed', names'⟩ := right
  refine ⟨events ++ events', ?_, fun name => ?_⟩
  · rw [listed', listed, List.append_assoc]
  · rw [updatedIn_append, List.mem_append, names, names', List.mem_append, List.mem_append,
      or_or_or_comm]

end Event

namespace Store

variable {first second third : Store} {set set' unset unset' : List Name}

/-- A store that has announced by further events what it has set and unset. -/
structure Announces (before : Store) (set unset : List Name) (after : Store) : Prop where
  changes : before.registry.Changes set unset after.registry
  announced : ∃ events, after.events = before.events ++ events ∧
    ∀ name, name ∈ Event.updatedIn events ↔ name ∈ set ∨ name ∈ unset

theorem announces_refl (store : Store) : store.Announces [] [] store :=
  ⟨Registry.changes_refl _, [], (List.append_nil _).symm, fun name => by simp [Event.updatedIn]⟩

theorem Announces.trans (left : first.Announces set unset second)
    (right : second.Announces set' unset' third) :
    first.Announces (set ++ set') (unset ++ unset') third :=
  ⟨left.changes.trans right.changes, Event.announced_trans left.announced right.announced⟩

/-- What was done without an event is announced by an event that names it. -/
theorem announces_emit {store : Store} (done : Store)
    (changes : store.registry.Changes set unset done.registry)
    (silent : done.events = store.events) {names : List Name}
    (named : ∀ name, name ∈ names ↔ name ∈ set ∨ name ∈ unset) :
    store.Announces set unset (done.emit (Event.updated names)) := by
  refine ⟨changes, Event.updated names, ?_, fun name => ?_⟩
  · rw [← silent]
    rfl
  · rw [Event.updatedIn_updated, named]

/-! ## The operations of the store -/

/-- Setting a list of values sets their names without an event. -/
theorem changes_putAll (store : Store) (values : List (Name × Value)) :
    store.registry.Changes (values.map Prod.fst) [] (store.putAll values).registry ∧
      (store.putAll values).events = store.events := by
  induction values using List.reverseRecOn with
  | nil => exact ⟨Registry.changes_refl _, rfl⟩
  | append_singleton values last inductionHypothesis =>
      obtain ⟨earlier, silent⟩ := inductionHypothesis
      rw [putAll_append_singleton, List.map_append]
      exact ⟨earlier.trans (Registry.changes_set _ last.1 last.2.render), silent⟩

/-- A batch sets what its report lists, and announces it. -/
theorem announces_applyValues (store : Store) (values : List (Name × Value))
    (index : Token.Index) :
    store.Announces (store.applyValues values index).2.applied []
      (store.applyValues values index).1 := by
  rw [applyValues_eq]
  obtain ⟨changes, silent⟩ := store.changes_putAll
    ((verdicts index values).map fun taken => (taken.1, taken.2.value))
  rw [List.map_map] at changes
  exact announces_emit _ changes silent fun name => by simp

/-- A batch sets names of its own only, each at most as often as it gives it a value. -/
theorem sublist_applied_applyValues (store : Store) (values : List (Name × Value))
    (index : Token.Index) :
    (store.applyValues values index).2.applied.Sublist (values.map Prod.fst) := by
  rw [applyValues_eq]
  induction values with
  | nil => exact .slnil
  | cons first rest inductionHypothesis =>
      cases outcome : validate first.1 first.2 index with
      | error error =>
          have passed : verdicts index (first :: rest) = verdicts index rest := by
            simp [verdicts, outcome, Except.toOption]
          rw [passed]
          exact inductionHypothesis.cons _
      | ok verdict =>
          have taken : verdicts index (first :: rest) =
              (first.1, verdict) :: verdicts index rest := by
            simp [verdicts, outcome, Except.toOption]
          rw [taken]
          exact inductionHypothesis.cons_cons _

/-- A write that is not refused sets its property and announces it. -/
theorem announces_write {store written : Store} {name : Name} {text : String}
    {index : Token.Index} {verdict : Verdict}
    (ok : store.write name text index = .ok (written, verdict)) :
    store.Announces [name] [] written := by
  rw [write] at ok
  split at ok
  · cases ok
  · next verdict' _ =>
      cases ok
      exact announces_emit (store.put name verdict.value) (Registry.changes_set _ name _) rfl
        fun other => by simp

/-- A removal unsets its property and announces it, if it was set. -/
theorem announces_remove (store : Store) (name : Name) :
    store.Announces [] (if (store.remove name).2 then [name] else []) (store.remove name).1 := by
  rw [remove]
  split
  · next isSet =>
      exact announces_emit (store.drop name) (Registry.changes_erase isSet) rfl
        fun other => by simp
  · next isUnset =>
      exact ⟨Registry.changes_erase_of_unset (eq_false_of_ne_true isUnset), [],
        (List.append_nil _).symm, fun other => by simp [Event.updatedIn]⟩

theorem unsetAll_append_singleton (store : Store) (names : List Name) (last : Name) :
    store.unsetAll (names ++ [last]) =
      (((store.unsetAll names).1.remove last).1,
        (store.unsetAll names).2 ++
          if ((store.unsetAll names).1.remove last).2 then [last] else []) := by
  rw [unsetAll, List.foldl_append, List.foldl_cons, List.foldl_nil, ← unsetAll]
  obtain ⟨done, removed⟩ := store.unsetAll names
  dsimp only
  split
  · rfl
  · rw [List.append_nil]

/-- Unsetting a list of names unsets those that it says were set, and announces them. -/
theorem announces_unsetAll (store : Store) (names : List Name) :
    store.Announces [] (store.unsetAll names).2 (store.unsetAll names).1 := by
  induction names using List.reverseRecOn with
  | nil => exact announces_refl store
  | append_singleton names last inductionHypothesis =>
      rw [unsetAll_append_singleton]
      exact inductionHypothesis.trans (announces_remove _ last)

/-- What is said to have been set is of the list. -/
theorem sublist_unsetAll (store : Store) (names : List Name) :
    (store.unsetAll names).2.Sublist names := by
  induction names using List.reverseRecOn with
  | nil => exact .slnil
  | append_singleton names last inductionHypothesis =>
      rw [unsetAll_append_singleton]
      refine inductionHypothesis.append ?_
      split
      · exact List.Sublist.refl _
      · exact List.nil_sublist _

end Store

end Legible
