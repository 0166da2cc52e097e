import Mathlib
import Legible.Proofs.Live.Changes

/-!
# Applying a difference

Going from one map to another by their difference writes less than writing the other map
in full, and it leaves the same texts. Two kinds of texts of the first map stay where the
full map would leave something else: the validator may refuse the new value, and a value
may be counted as unchanged that is written in another way. Percentages are compared as
numbers and zero has two signs, so the second kind are blends at zero percent, and only
where a property may hold a percentage at all.
-/

namespace Legible

open Property

/-! ## Values that are counted as the same -/

namespace Property

/-- Two blends of the same properties that differ in the sign of their zero percent. -/
inductive Value.SignApart : Value → Value → Prop where
  | gained {foreground background : Name} :
      SignApart (.blend foreground background (.percent 0))
        (.blend foreground background (.percent (-0)))
  | lost {foreground background : Name} :
      SignApart (.blend foreground background (.percent (-0)))
        (.blend foreground background (.percent 0))

namespace Value

variable {held value : Value}

theorem agrees_of_signApart (apart : held.SignApart value) : held.agrees value = true := by
  have gained : ((0 : Float) == -0) = true := by decide +kernel
  have lost : ((-0 : Float) == 0) = true := by decide +kernel
  cases apart with
  | gained => simp only [agrees, Weight.agrees, beq_self_eq_true, gained, Bool.and_true]
  | lost => simp only [agrees, Weight.agrees, beq_self_eq_true, lost, Bool.and_true]

/-- Values that are counted as the same are the same, or they differ in the sign of zero. -/
theorem eq_or_signApart_of_agrees (same : held.agrees value = true) :
    held = value ∨ held.SignApart value := by
  cases held with
  | literal text =>
      cases value with
      | literal text' => exact .inl (congrArg literal (by simpa [agrees] using same))
      | reference => cases same
      | blend => cases same
  | reference target =>
      cases value with
      | reference target' => exact .inl (congrArg reference (by simpa [agrees] using same))
      | literal => cases same
      | blend => cases same
  | blend foreground background weight =>
      cases value with
      | literal => cases same
      | reference => cases same
      | blend foreground' background' weight' =>
          simp only [agrees, Bool.and_eq_true, beq_iff_eq] at same
          obtain ⟨⟨rfl, rfl⟩, weights⟩ := same
          cases weight with
          | property name =>
              cases weight' with
              | property name' =>
                  have own : name = name' := by simpa [Weight.agrees] using weights
                  exact .inl (by rw [own])
              | percent => cases weights
          | percent amount =>
              cases weight' with
              | property => cases weights
              | percent amount' =>
                  obtain ⟨-, -, rfl | ⟨rfl, rfl⟩ | ⟨rfl, rfl⟩⟩ :=
                    Float.beq_iff_ne_nan_and_eq.1 weights
                  · exact .inl rfl
                  · exact .inr .gained
                  · exact .inr .lost

end Value

end Property

/-! ## The sign of zero in a share -/

namespace Token.Index

/-- No number is nearer to zero of one sign than of the other. -/
theorem isClose_zero (held : Float) : isClose held (0 / 100) = isClose held (-0 / 100) := by
  have plain : ((0 : Float) / 100).toModel.unpack = .zero .positive := by rfl
  have negated : ((-0 : Float) / 100).toModel.unpack = .zero .negative := by rfl
  have same : (held - 0 / 100).abs = (held - -0 / 100).abs := by
    change Float.ofModel (.pack (Float.Model.pack (.sub _ held.toModel.unpack
        ((0 : Float) / 100).toModel.unpack)).unpack.abs) =
      Float.ofModel (.pack (Float.Model.pack (.sub _ held.toModel.unpack
        ((-0 : Float) / 100).toModel.unpack)).unpack.abs)
    rw [plain, negated]
    cases held.toModel.unpack with
    | notANumber => rfl
    | infinity sign => rfl
    | zero sign => cases sign <;> decide +kernel
    | finite sign mantissa exponent normal => rfl
  rw [isClose, isClose, same]

/-- A token that holds no share is found by either sign. -/
theorem findNumber?_zero (index : Token.Index) :
    index.findNumber? (0 / 100) false = index.findNumber? (-0 / 100) false := by
  have holds : ∀ held, holdsNumber (0 / 100) false held = holdsNumber (-0 / 100) false held := by
    intro held
    cases held with
    | number amount => simp only [holdsNumber, isClose_zero]
    | color => simp only [holdsNumber]
    | dimension => simp only [holdsNumber, Bool.false_and]
    | text => simp only [holdsNumber]
  simp only [findNumber?, holds]

end Token.Index

namespace Store

/-- What a batch writes for a value, unless the value is refused. -/
def accepted? (index : Token.Index) (name : Name) (value : Value) : Option String :=
  (validate name value index).toOption.map fun verdict => verdict.value.render

variable {store : Store} {index : Token.Index} {name : Name} {held value : Value}

theorem accepted?_eq_some_iff {text : String} :
    accepted? index name value = some text ↔
      ∃ verdict, validate name value index = .ok verdict ∧ verdict.value.render = text := by
  rw [accepted?]
  cases validate name value index with
  | error error => simp [Except.toOption]
  | ok verdict => simp [Except.toOption]

theorem accepted?_eq_none_iff :
    accepted? index name value = none ↔ ∃ error, validate name value index = .error error := by
  rw [accepted?]
  cases validate name value index with
  | error error => simp [Except.toOption]
  | ok verdict => simp [Except.toOption]

/-- Where anything may be held, a batch writes what it is given. -/
theorem accepted?_of_free (free : name.tier.readable? = none) :
    accepted? index name value = some value.render := by
  rw [accepted?, validate, free]
  rfl

/-- Where percentages give way to tokens, the sign of zero makes no difference. -/
theorem accepted?_of_signApart {allowed : List Tier} (bound : name.tier.readable? = some allowed)
    (apart : held.SignApart value) : accepted? index name held = accepted? index name value := by
  have settled (foreground background : Name) :
      accepted? index name (.blend foreground background (.percent 0)) =
        accepted? index name (.blend foreground background (.percent (-0))) := by
    have forbidden (amount : Float) :
        Validation.forbidden? allowed (.blend foreground background (.percent amount)) =
          Validation.forbidden? allowed (.blend foreground background (.percent 0)) := rfl
    have unknown (amount : Float) :
        Validation.unknown? index (.blend foreground background (.percent amount)) =
          Validation.unknown? index (.blend foreground background (.percent 0)) := rfl
    simp only [accepted?, validate, bound, Validation.checkIndirection, forbidden (-0),
      unknown (-0)]
    split
    · rfl
    · split
      · rfl
      · simp only [Validation.settle, ← Token.Index.findNumber?_zero]
        split <;> rfl
  cases apart with
  | gained => exact settled _ _
  | lost => exact (settled _ _).symm

/-! ## The text of a property after a batch -/

/-- A property with one value in a batch holds what the batch writes for it, or what it held
if the value is refused. -/
theorem get?_applyValues {values : List (Name × Value)} (listed : (name, value) ∈ values)
    (unique : ∀ other, (name, other) ∈ values → other = value) :
    (store.applyValues values index).1.get? name =
      (accepted? index name value).or (store.get? name) := by
  cases outcome : validate name value index with
  | error error =>
      rw [accepted?_eq_none_iff.2 ⟨error, outcome⟩, Option.none_or]
      refine (get?_applyValues_cases name).resolve_right ?_
      rintro ⟨other, verdict, offered, ok, -⟩
      rw [unique other offered, outcome] at ok
      cases ok
  | ok verdict =>
      rw [get?_applyValues_of_ok listed unique outcome,
        accepted?_eq_some_iff.2 ⟨verdict, outcome, rfl⟩, Option.some_or]

/-- After a full map is written, a property holds what was written for its value. -/
theorem get?_apply (store : Store) (map : PropertyMap) (index : Token.Index) (name : Name) :
    (store.apply map index).1.get? name =
      ((map.value? name).bind (accepted? index name)).or (store.get? name) := by
  cases held : map.value? name with
  | none =>
      rw [apply, get?_applyValues_of_absent fun value listed => ?_]
      · rfl
      · rw [PropertyMap.mem_values, held] at listed
        cases listed
  | some value =>
      refine get?_applyValues ((PropertyMap.mem_values _ _ _).2 held) fun other listed => ?_
      rw [PropertyMap.mem_values, held] at listed
      exact (Option.some.inj listed).symm

end Store

/-! ## What a difference offers -/

namespace Property.PropertyMap

/-- The values of the second map that the first one does not hold. -/
def offered (previous next : PropertyMap) : List (Name × Value) :=
  next.values.filter fun entry => !previous.holds entry.1 entry.2

variable {previous next : PropertyMap} {name : Name} {value : Value}

theorem mem_offered :
    (name, value) ∈ previous.offered next ↔
      next.value? name = some value ∧ previous.holds name value = false := by
  simp only [offered, List.mem_filter, mem_values, Bool.not_eq_true']

/-- They are what the changed names of a difference are looked up as. -/
theorem filterMap_changed (previous next : PropertyMap) :
    ((previous.difference next).changed.filterMap fun name =>
      (next.value? name).map fun value => (name, value)) = previous.offered next := by
  change ((previous.offered next).map Prod.fst).filterMap _ = _
  have looked : ∀ entry ∈ previous.offered next, next.value? entry.1 = some entry.2 :=
    fun entry listed => (mem_offered.1 listed).1
  rw [List.filterMap_map]
  generalize previous.offered next = values at looked ⊢
  induction values with
  | nil => rfl
  | cons first rest inductionHypothesis =>
      rw [List.filterMap_cons, Function.comp_apply, looked first List.mem_cons_self,
        Option.map_some, inductionHypothesis fun entry listed => looked entry (List.mem_cons_of_mem _ listed)]

theorem holds_iff :
    previous.holds name value = true ↔
      ∃ held, previous.value? name = some held ∧ held.agrees value = true := by
  rw [holds]
  cases previous.value? name <;> simp

end Property.PropertyMap

namespace Store

variable {store : Store} {previous next : PropertyMap} {index : Token.Index} {name : Name}

/-! ## The text of a property after a difference -/

theorem applyDifference_eq (store : Store) (previous next : PropertyMap) (index : Token.Index) :
    store.applyDifference previous next index =
      (((previous.difference next).removed.foldl drop
          (store.applyValues (previous.offered next) index).1).emit
        (Event.updated ((previous.difference next).removed.filter
          (store.applyValues (previous.offered next) index).1.registry.contains)),
        { (store.applyValues (previous.offered next) index).2 with
          removed := (previous.difference next).removed.filter
            (store.applyValues (previous.offered next) index).1.registry.contains }) := by
  rw [applyDifference, ← PropertyMap.filterMap_changed]

/-- What the second map has no value for is unset, if the first one had. -/
theorem get?_applyDifference_of_none (gone : next.value? name = none) :
    (store.applyDifference previous next index).1.get? name =
      if previous.contains name then none else store.get? name := by
  have spared : (store.applyValues (previous.offered next) index).1.get? name =
      store.get? name := by
    refine get?_applyValues_of_absent fun value listed => ?_
    rw [PropertyMap.mem_offered, gone] at listed
    cases listed.1
  rw [applyDifference_eq]
  change ((previous.difference next).removed.foldl drop _).get? name = _
  rw [get?_dropAll, spared]
  have removed : name ∈ (previous.difference next).removed ↔ previous.contains name = true := by
    rw [PropertyMap.mem_removed, PropertyMap.contains_iff, and_iff_left gone]
  exact if_congr removed rfl rfl

/-- A value that counts as unchanged is passed over, and any other is written unless it is
refused. -/
theorem get?_applyDifference_of_some {value : Value} (held : next.value? name = some value) :
    (store.applyDifference previous next index).1.get? name =
      if previous.holds name value then store.get? name
      else (accepted? index name value).or (store.get? name) := by
  have stays : name ∉ (previous.difference next).removed := by
    rw [PropertyMap.mem_removed, held]
    exact fun removed => nomatch removed.2
  rw [applyDifference_eq]
  change ((previous.difference next).removed.foldl drop _).get? name = _
  rw [get?_dropAll, if_neg stays]
  by_cases same : previous.holds name value = true
  · rw [if_pos same]
    refine get?_applyValues_of_absent fun other listed => ?_
    obtain ⟨own, changed⟩ := PropertyMap.mem_offered.1 listed
    cases held.symm.trans own
    rw [same] at changed
    cases changed
  · rw [if_neg same]
    have changed := PropertyMap.mem_offered.2 ⟨held, eq_false_of_ne_true same⟩
    refine get?_applyValues changed fun other listed => ?_
    exact Option.some.inj ((PropertyMap.mem_offered.1 listed).1.symm.trans held)

/-! ## Texts that stay -/

/-- The texts of the first map that stay although the second map would write another one or
none: those of values whose successor is refused, and those of free properties whose
successor differs in the sign of zero. -/
inductive Keeps (previous next : PropertyMap) (index : Token.Index) (name : Name) :
    String → Prop where
  | refused {held value : Value} {text : String} (before : previous.value? name = some held)
      (after : next.value? name = some value) (taken : accepted? index name held = some text)
      (refused : accepted? index name value = none) : Keeps previous next index name text
  | sign {held value : Value} (before : previous.value? name = some held)
      (after : next.value? name = some value) (apart : held.SignApart value)
      (free : name.tier.readable? = none) : Keeps previous next index name held.render

/-- A store over an empty registry holds what was written from a map, and nothing else. -/
theorem get?_apply_empty (map : PropertyMap) (index : Token.Index) (name : Name) :
    ((ofRegistry .empty).apply map index).1.get? name =
      (map.value? name).bind (accepted? index name) := by
  rw [get?_apply, show (ofRegistry .empty).get? name = none from Registry.get?_empty name,
    Option.or_none]

/-- What stays is there after the difference. -/
theorem get?_of_keeps {text : String} (keeps : Keeps previous next index name text) :
    (((ofRegistry .empty).apply previous index).1.applyDifference previous next index).1.get?
      name = some text := by
  cases keeps with
  | refused before after taken refused =>
      rw [get?_applyDifference_of_some after, get?_apply_empty, before, refused, Option.none_or,
        ite_self]
      exact taken
  | sign before after apart free =>
      have same := PropertyMap.holds_iff.2 ⟨_, before, Value.agrees_of_signApart apart⟩
      rw [get?_applyDifference_of_some after, if_pos same, get?_apply_empty, before]
      exact accepted?_of_free free

/-- Where nothing stays, the difference leaves what the second map leaves on its own. -/
theorem get?_of_not_keeps (none : ∀ text, ¬ Keeps previous next index name text) :
    (((ofRegistry .empty).apply previous index).1.applyDifference previous next index).1.get?
      name = ((ofRegistry .empty).apply next index).1.get? name := by
  rw [get?_apply_empty]
  cases after : next.value? name with
  | none =>
      rw [get?_applyDifference_of_none after, get?_apply_empty]
      cases before : previous.value? name with
      | none => exact ite_self _
      | some held => exact if_pos ((PropertyMap.contains_iff _ _).2 ⟨held, before⟩)
  | some value =>
      rw [get?_applyDifference_of_some after, get?_apply_empty, Option.bind_some]
      by_cases same : previous.holds name value = true
      · obtain ⟨held, before, agrees⟩ := PropertyMap.holds_iff.1 same
        rw [if_pos same, before, Option.bind_some]
        rcases Value.eq_or_signApart_of_agrees agrees with rfl | apart
        · rfl
        · cases tier : name.tier.readable? with
          | none => exact absurd (.sign before after apart tier) (none _)
          | some allowed => exact accepted?_of_signApart tier apart
      · rw [if_neg same]
        cases outcome : accepted? index name value with
        | some text => rfl
        | none =>
            -- The value is refused, so nothing may be left of an earlier one.
            rw [Option.none_or]
            cases before : previous.value? name with
            | none => rfl
            | some held =>
                refine Option.eq_none_iff_forall_ne_some.2 fun text taken => ?_
                exact none text (.refused before after taken outcome)

/-! ## What a report says -/

/-- A store that has written whatever is set. -/
def IsManaged (store : Store) : Prop :=
  ∀ name, name ∈ store.managed ↔ store.registry.contains name = true

theorem isManaged_empty : (ofRegistry .empty).IsManaged := fun name => by
  simp [ofRegistry, Registry.empty, Registry.contains]

theorem IsManaged.putAll (managed : store.IsManaged) (values : List (Name × Value)) :
    (store.putAll values).IsManaged := by
  induction values using List.reverseRecOn with
  | nil => exact managed
  | append_singleton values last inductionHypothesis =>
      intro name
      have earlier := inductionHypothesis name
      rw [Registry.contains] at earlier
      rw [putAll_append_singleton]
      simp [put, Registry.set, Registry.contains, earlier]

theorem IsManaged.dropAll (managed : store.IsManaged) (names : List Name) :
    (names.foldl drop store).IsManaged := by
  induction names using List.reverseRecOn with
  | nil => exact managed
  | append_singleton names last inductionHypothesis =>
      intro name
      have earlier := inductionHypothesis name
      rw [Registry.contains] at earlier
      rw [List.foldl_append, List.foldl_cons, List.foldl_nil]
      simp [drop, Registry.erase, Registry.contains, earlier]

theorem writeCount_dropAll (store : Store) (names : List Name) (name : Name) :
    (names.foldl drop store).registry.writeCount name = store.registry.writeCount name := by
  induction names using List.reverseRecOn with
  | nil => rfl
  | append_singleton names last inductionHypothesis =>
      rw [List.foldl_append, List.foldl_cons, List.foldl_nil]
      exact inductionHypothesis

/-- An outcome whose report lists what was written of the offered values, what was refused
of them, and what was unset, with nothing else changed. -/
structure Accounts (before : Store) (index : Token.Index) (offered : List (Name × Value))
    (outcome : Store × BatchReport) : Prop where
  /-- The names of the values that the validator takes are listed in order. -/
  applied : outcome.2.applied = (verdicts index offered).map Prod.fst
  /-- What the validator says against the others is listed in order. -/
  rejected : outcome.2.rejected = refusals index offered
  once : outcome.2.applied.Nodup ∧ outcome.2.removed.Nodup
  /-- Each listed name was written once, and no other. -/
  written : ∀ name, outcome.1.registry.writeCount name =
    before.registry.writeCount name + if name ∈ outcome.2.applied then 1 else 0
  removed : ∀ name, name ∈ outcome.2.removed ↔
    before.get? name ≠ none ∧ outcome.1.get? name = none
  kept : ∀ name ∉ outcome.2.applied, name ∉ outcome.2.removed →
    outcome.1.get? name = before.get? name
  managed : outcome.1.IsManaged

/-- The report of a batch accounts for it, when every name is offered once. -/
theorem accounts_applyValues {values : List (Name × Value)} (managed : store.IsManaged)
    (distinct : (values.map Prod.fst).Nodup) :
    Accounts store index values (store.applyValues values index) where
  applied := by rw [applyValues_eq]
  rejected := by rw [applyValues_eq]
  once := by
    refine ⟨(sublist_applied_applyValues store values index).nodup distinct, ?_⟩
    rw [applyValues_eq]
    exact List.nodup_nil
  written name := by
    have changes := (announces_applyValues store values index).changes
    have once := (sublist_applied_applyValues store values index).nodup distinct
    rw [changes.counted, List.Nodup.count once]
  removed name := by
    have empty : (store.applyValues values index).2.removed = [] := by rw [applyValues_eq]
    rw [empty]
    refine ⟨fun listed => absurd listed List.not_mem_nil, fun ⟨was, gone⟩ => ?_⟩
    rcases @get?_applyValues_cases store values index name with
      same | ⟨value, verdict, -, -, live⟩
    · exact absurd (same.symm.trans gone) was
    · cases live.symm.trans gone
  kept name unlisted _ :=
    (announces_applyValues store values index).changes.kept name unlisted List.not_mem_nil
  managed := by
    rw [applyValues_eq]
    exact managed.putAll _

/-- So does the report of a difference. -/
theorem accounts_applyDifference (managed : store.IsManaged) (previous next : PropertyMap)
    (index : Token.Index) :
    Accounts store index (previous.offered next) (store.applyDifference previous next index) := by
  have distinct : ((previous.offered next).map Prod.fst).Nodup := by
    refine List.Sublist.nodup ((List.filter_sublist ..).map Prod.fst) ?_
    rw [PropertyMap.map_fst_values]
    exact Std.TreeMap.nodup_keys
  have batch := @accounts_applyValues store index _ managed distinct
  have untouched {name : Name} (removed : name ∈ (previous.difference next).removed) :
      (store.applyValues (previous.offered next) index).1.get? name = store.get? name := by
    refine get?_applyValues_of_absent fun value listed => ?_
    rw [PropertyMap.mem_offered, ((PropertyMap.mem_removed _ _ _).1 removed).2] at listed
    cases listed.1
  have silent : (store.applyValues (previous.offered next) index).2.removed = [] := by
    rw [applyValues_eq]
  rw [applyDifference_eq]
  generalize store.applyValues (previous.offered next) index = middle at batch untouched silent
  have live (name : Name) : ((previous.difference next).removed.foldl drop middle.1).get? name =
      if name ∈ (previous.difference next).removed then none else middle.1.get? name :=
    get?_dropAll _ _ _
  have set (name : Name) : middle.1.registry.contains name = true ↔ middle.1.get? name ≠ none := by
    rw [Registry.contains_eq_isSome, Option.isSome_iff_ne_none]
    rfl
  refine ⟨batch.applied, batch.rejected, ⟨batch.once.1, ?_⟩, fun name => ?_, fun name => ?_,
    fun name unlisted spared => ?_, batch.managed.dropAll _⟩
  · refine List.Nodup.filter _ (List.Nodup.filter _ ?_)
    exact Std.TreeMap.nodup_keys
  · exact (writeCount_dropAll _ _ _).trans (batch.written name)
  · change _ ↔ store.get? name ≠ none ∧
      ((previous.difference next).removed.foldl drop middle.1).get? name = none
    rw [List.mem_filter, set, live]
    constructor
    · rintro ⟨removed, was⟩
      rw [untouched removed] at was
      exact ⟨was, if_pos removed⟩
    · rintro ⟨was, gone⟩
      by_cases removed : name ∈ (previous.difference next).removed
      · exact ⟨removed, untouched removed ▸ was⟩
      · rw [if_neg removed] at gone
        have listed := (batch.removed name).2 ⟨was, gone⟩
        rw [silent] at listed
        cases listed
  · change ((previous.difference next).removed.foldl drop middle.1).get? name = _
    rw [live]
    split
    · next removed =>
        -- It was not set, or it would be listed as unset.
        by_contra other
        exact spared (List.mem_filter.2
          ⟨removed, (set name).2 fun gone => other ((untouched removed ▸ gone).symm)⟩)
    · refine batch.kept name unlisted ?_
      rw [silent]
      exact List.not_mem_nil

/-! ## What is refused -/

/-- What is refused of a batch has no part in what becomes of the rest. -/
theorem applyValues_of_refused (store : Store) (values : List (Name × Value))
    (index : Token.Index) :
    store.applyValues values index =
      ((store.applyValues (values.filter fun entry =>
          (accepted? index entry.1 entry.2).isSome) index).1,
        { (store.applyValues (values.filter fun entry =>
            (accepted? index entry.1 entry.2).isSome) index).2 with
          rejected := refusals index values }) := by
  have taken : verdicts index (values.filter fun entry =>
      (accepted? index entry.1 entry.2).isSome) = verdicts index values := by
    rw [verdicts, List.filterMap_filter, verdicts]
    congr 1
    funext entry
    rw [accepted?]
    cases (validate entry.1 entry.2 index).toOption with
    | none => rfl
    | some verdict => rfl
  rw [applyValues_eq, applyValues_eq store (values.filter _), taken]

/-- Going from one map to another by their difference leaves the texts of the other map,
apart from those that stay; what is refused has no part in the rest of a batch; and each
report accounts for what was done. -/
theorem applyDifference_follows (previous next : PropertyMap) (index : Token.Index) :
    let empty := ofRegistry .empty
    let before := empty.apply previous index
    let after := before.1.applyDifference previous next index
    let full := empty.apply next index
    (∀ name, (∀ text, Keeps previous next index name text → after.1.get? name = some text) ∧
      ((∀ text, ¬ Keeps previous next index name text) →
        after.1.get? name = full.1.get? name)) ∧
    (∀ (store : Store) (values : List (Name × Value)),
      store.applyValues values index =
        ((store.applyValues (values.filter fun entry =>
            (accepted? index entry.1 entry.2).isSome) index).1,
          { (store.applyValues (values.filter fun entry =>
              (accepted? index entry.1 entry.2).isSome) index).2 with
            rejected := refusals index values })) ∧
    Accounts empty index previous.values before ∧
    Accounts before.1 index (previous.offered next) after ∧
    Accounts empty index next.values full := by
  have distinct (map : PropertyMap) : (map.values.map Prod.fst).Nodup := by
    rw [PropertyMap.map_fst_values]
    exact Std.TreeMap.nodup_keys
  have before := @accounts_applyValues _ index _ isManaged_empty (distinct previous)
  have full := @accounts_applyValues _ index _ isManaged_empty (distinct next)
  exact ⟨fun name => ⟨fun _ keeps => get?_of_keeps keeps, get?_of_not_keeps⟩,
    fun store values => applyValues_of_refused store values index, before,
    accounts_applyDifference before.managed previous next index, full⟩

/-- A blend at zero percent is passed over when the zero becomes negative, though nothing is
refused and the second map on its own leaves another text. -/
theorem text_stays_of_sign :
    ∃ previous next : PropertyMap, ∃ index : Token.Index, ∃ name value,
      next.value? name = some value ∧ validate name value index = .ok (.accepted value) ∧
      ((ofRegistry .empty).apply next index).1.get? name =
        some "color-mix(in srgb, var(--a) -0%, var(--b))" ∧
      (((ofRegistry .empty).apply previous index).1.applyDifference previous next index).1.get?
        name = some "color-mix(in srgb, var(--a) 0%, var(--b))" :=
  ⟨.ofList [(⟨"--x"⟩, { value := .blend ⟨"--a"⟩ ⟨"--b"⟩ (.percent 0) })],
    .ofList [(⟨"--x"⟩, { value := .blend ⟨"--a"⟩ ⟨"--b"⟩ (.percent (-0)) })],
    .ofDocument (.empty "tokens"), ⟨"--x"⟩, .blend ⟨"--a"⟩ ⟨"--b"⟩ (.percent (-0)),
    by decide +kernel, by decide +kernel, by decide +kernel, by decide +kernel⟩

end Store

end Legible
