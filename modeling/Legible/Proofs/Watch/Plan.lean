import Legible.Proofs.Live.Store
import Legible.Proofs.Theme.Acceptance
import Legible.Proofs.Watch.Graph
import Legible.Proofs.Watch.Run

/-!
# What a flush plans

The plan sorts the affected names by what is to become of each. Everything that is
planned to be written is a value of the next computation, so the store takes it as it
is. A watcher whose registry shows its map plans no contests: whatever is affected is
written or unset.
-/

namespace Legible

open Property

namespace FlushPlan

variable {actions : List (Name × Action)}

/-- Where a step is read as an item exactly if the item stands for it, the items that are
read are the ones whose steps are listed. -/
theorem mem_filterMap_of_reads {Item : Type} {read : Name × Action → Option Item}
    {step : Item → Name × Action} {item : Item}
    (reads : ∀ action, read action = some item ↔ action = step item) :
    item ∈ actions.filterMap read ↔ step item ∈ actions := by
  simp [List.mem_filterMap, reads]

theorem mem_unset {name : Name} :
    name ∈ (ofActions actions).unset ↔ (name, Action.unset) ∈ actions := by
  apply mem_filterMap_of_reads
  rintro ⟨other, action⟩
  cases action <;> simp

theorem mem_kept {name : Name} :
    name ∈ (ofActions actions).kept ↔ (name, Action.keep) ∈ actions := by
  apply mem_filterMap_of_reads
  rintro ⟨other, action⟩
  cases action <;> simp

theorem mem_writes {name : Name} {value : Value} :
    (name, value) ∈ (ofActions actions).writes ↔ (name, Action.write value) ∈ actions := by
  apply @mem_filterMap_of_reads _ _ _ fun item : Name × Value => (item.1, .write item.2)
  rintro ⟨other, action⟩
  cases action <;> simp

theorem mem_contests {contest : Contest} :
    contest ∈ (ofActions actions).contests ↔
      (contest.name, Action.contest contest.background contest.generated) ∈ actions := by
  obtain ⟨name, background, generated⟩ := contest
  apply @mem_filterMap_of_reads _ _ _
    fun item : Contest => (item.name, .contest item.background item.generated)
  rintro ⟨other, action⟩
  cases action <;> simp

end FlushPlan

namespace Action

/-- What is to become of a property that shows what one map holds, when the next map
comes: it is unset if it has left, and otherwise written. -/
def between (previous next : PropertyMap) (name : Name) : Action :=
  match next.value? name with
  | none => if previous.contains name then .unset else .leave
  | some value => .write value

variable {previous next : PropertyMap} {name : Name}

theorem between_eq_write {value : Value} :
    between previous next name = .write value ↔ next.value? name = some value := by
  rw [between]
  cases next.value? name <;> simp
  split <;> simp

theorem between_eq_unset :
    between previous next name = .unset ↔
      next.value? name = none ∧ previous.contains name = true := by
  rw [between]
  cases next.value? name <;> simp

theorem between_ne_contest {background : Name} {generated : Value} :
    between previous next name ≠ .contest background generated := by
  rw [between]
  cases next.value? name <;> simp
  split <;> simp

end Action

namespace Watcher

variable {watcher : Watcher}

/-! ## Actions -/

/-- A value that is to be written is the one of the next map. -/
theorem value?_of_action_write {next : PropertyMap} {forced : List Name} {name : Name}
    {value : Value} (planned : watcher.action next forced name = .write value) :
    next.value? name = some value := by
  rw [action] at planned
  split at planned
  · split at planned <;> cases planned
  · next held =>
      split at planned
      · split at planned <;> cases planned
      · cases planned
        exact held

/-- A property that is to be unset has left the map. -/
theorem value?_of_action_unset {next : PropertyMap} {forced : List Name} {name : Name}
    (planned : watcher.action next forced name = .unset) : next.value? name = none := by
  rw [action] at planned
  split at planned
  · next gone => exact gone
  · split at planned
    · split at planned <;> cases planned
    · cases planned

/-- A property that is left alone is in neither map. -/
theorem of_action_leave {next : PropertyMap} {forced : List Name} {name : Name}
    (planned : watcher.action next forced name = .leave) :
    next.value? name = none ∧ watcher.current.map.contains name = false := by
  rw [action] at planned
  split at planned
  · next gone =>
      split at planned
      · cases planned
      · next absent => exact ⟨gone, by simpa using absent⟩
  · split at planned
    · split at planned <;> cases planned
    · cases planned

/-- A contested property has a background and a value in the next map. -/
theorem value?_of_action_contest {next : PropertyMap} {forced : List Name} {name background : Name}
    {generated : Value} (planned : watcher.action next forced name = .contest background generated) :
    next.value? name = some generated ∧ next.background? name = some background := by
  rw [action] at planned
  split at planned
  · split at planned <;> cases planned
  · next held =>
      split at planned
      · split at planned
        · next opposite =>
            cases planned
            exact ⟨held, opposite⟩
        · cases planned
      · cases planned

/-- A property that is kept without a contest has no background. -/
theorem background?_of_action_keep {next : PropertyMap} {forced : List Name} {name : Name}
    (planned : watcher.action next forced name = .keep) : next.background? name = none := by
  rw [action] at planned
  split at planned
  · split at planned <;> cases planned
  · split at planned
    · split at planned
      · cases planned
      · next alone => exact alone
    · cases planned

/-- Where the registry shows the map, nothing is an override. -/
theorem isOverride_of_renders (shows : watcher.registry.Renders watcher.current.map) (name : Name)
    (value : Value) : watcher.isOverride name value = false := by
  have live : watcher.store.get? name = (watcher.current.map.value? name).map Value.render :=
    shows name
  rw [isOverride]
  split
  · rfl
  · next text held =>
      rw [held] at live
      simp [live]

/-- Where the registry shows the map, what is to become of a property follows from the
two maps. -/
theorem action_of_renders (shows : watcher.registry.Renders watcher.current.map)
    (next : PropertyMap) (forced : List Name) (name : Name) :
    watcher.action next forced name = Action.between watcher.current.map next name := by
  rw [action, Action.between]
  cases next.value? name with
  | none => rfl
  | some value => simp [isOverride_of_renders shows name value]

end Watcher

/-! ## What is planned -/

/-- A planned action is that of an affected name which no tone plan has settled. -/
theorem FlushDecision.mem_actions {decision : FlushDecision} {name : Name} {action : Action} :
    (name, action) ∈ decision.actions ↔
      name ∈ decision.affected ∧ name ∉ decision.tones.handled ∧
        decision.folded.action decision.next.map decision.forced name = action := by
  simp only [actions, List.mem_map, List.mem_filter, Prod.mk.injEq, Bool.not_eq_true',
    List.contains_eq_mem, decide_eq_false_iff_not]
  constructor
  · rintro ⟨name', ⟨affected, unsettled⟩, rfl, planned⟩
    exact ⟨affected, unsettled, planned⟩
  · rintro ⟨affected, unsettled, planned⟩
    exact ⟨name, ⟨affected, unsettled⟩, rfl, planned⟩

/-- One action is planned for a name. -/
theorem FlushDecision.eq_of_mem_actions {decision : FlushDecision} {name : Name}
    {first second : Action} (left : (name, first) ∈ decision.actions)
    (right : (name, second) ∈ decision.actions) : first = second :=
  (mem_actions.1 left).2.2.symm.trans (mem_actions.1 right).2.2

namespace Watcher

variable {watcher : Watcher}

theorem nodup_toList (names : Std.TreeSet Name) : names.toList.Nodup :=
  Std.TreeSet.distinct_toList.imp fun different same => different (by rw [same]; simp)

/-- A live change is listed once. -/
theorem nodup_changed (watcher : Watcher) : watcher.decideFlush.changed.Nodup := by
  rw [changed_decideFlush]
  exact (nodup_toList _).sublist List.filter_sublist

/-- An affected name is listed once. -/
theorem nodup_affected (watcher : Watcher) : watcher.decideFlush.affected.Nodup := by
  rw [affected_decideFlush]
  exact nodup_toList _

/-- What differs between the two maps or has changed live is affected. -/
theorem mem_affected_of_root {name : Name}
    (root : name ∈ (watcher.current.map.difference watcher.decideFlush.next.map).changed ++
      (watcher.current.map.difference watcher.decideFlush.next.map).removed ++
        watcher.decideFlush.changed) : name ∈ watcher.decideFlush.affected := by
  rw [affected_decideFlush, Std.TreeSet.mem_toList]
  exact DependencyGraph.mem_affected_of_root root

/-- What is derived from an affected property in the next map is affected. -/
theorem mem_affected_of_input {name input : Name} {origin : Origin}
    (derived : watcher.decideFlush.next.map.origin? name = some origin)
    (listed : input ∈ origin.inputs) (affected : input ∈ watcher.decideFlush.affected) :
    name ∈ watcher.decideFlush.affected := by
  rw [affected_decideFlush, Std.TreeSet.mem_toList] at affected ⊢
  refine DependencyGraph.closed_affected _ _ input affected name ?_
  exact DependencyGraph.mem_dependentsOf_union.2
    (.inl (DependencyGraph.mem_dependentsOf_ofMap.2 ⟨origin, derived, listed⟩))

/-- What is not affected is held alike by both maps. -/
theorem value?_of_unaffected (tracks : watcher.Tracks) {name : Name}
    (unaffected : name ∉ watcher.decideFlush.affected) :
    watcher.decideFlush.next.map.value? name = watcher.current.map.value? name := by
  apply PropertyMap.value?_eq_of_not_mem_difference
  · intro value held
    obtain ⟨configuration, computed⟩ := tracks.computed
    rw [computed] at held
    exact Configuration.hasFixedWeight_of_value? held
  · exact fun listed => unaffected (mem_affected_of_root (List.mem_append_left _ listed))

/-- Every value that is planned to be written is accepted as it is. -/
theorem accepts_planWrites (tracks : watcher.Tracks) :
    Store.Accepts watcher.decideFlush.folded.configuration.index
      watcher.decideFlush.plan.writes := by
  intro name value member
  rw [FlushDecision.plan, FlushPlan.mem_writes] at member
  obtain ⟨-, -, planned⟩ := FlushDecision.mem_actions.1 member
  have held := value?_of_action_write planned
  rw [tracks.next] at held
  exact Configuration.validate_of_value? held

end Watcher

end Legible
