import Legible.Proofs.Watch.Outcome

/-!
# Flushing in steps is rebuilding at once

As long as nobody else writes, the registry shows exactly the map that was computed
last: attaching brings it there, and a flush carries it from one map to the next.
What a run of changes and flushes leaves is therefore what a fresh watcher over the
final documents would write, however the changes were split.
-/

namespace Legible

open Property

/-- Something between attaching and the last flush: a change of the documents or a
flush. -/
inductive Call where
  | change (mutation : Mutation)
  | flush

/-- The change that a call makes. -/
def Call.mutation? : Call → Option Mutation
  | .change mutation => some mutation
  | .flush => none

namespace Watcher

variable {watcher : Watcher}

/-- Makes a call. -/
def call (watcher : Watcher) : Call → Watcher
  | .change mutation => watcher.mutate mutation
  | .flush => watcher.flush.1

/-- An enabled watcher that has heard of no live change and whose registry shows the
map that was computed last. -/
structure InLine (watcher : Watcher) : Prop where
  tracks : watcher.Tracks
  isEnabled : watcher.isEnabled = true
  quiet : watcher.liveRoots.toList = []
  shows : watcher.registry.Renders watcher.current.map

/-! ## Attaching -/

/-- A fix pass writes what is there already. -/
theorem renders_runFix (current : watcher.current = watcher.configuration.compute)
    (shows : watcher.registry.Renders watcher.current.map) (issues : List Issue) :
    (watcher.runFix issues).1.registry.Renders watcher.current.map := by
  obtain ⟨values, fromMap, registry⟩ : ∃ values : List (Name × Value),
      (∀ name value, (name, value) ∈ values → watcher.current.map.value? name = some value) ∧
        (watcher.runFix issues).1.registry =
          (watcher.store.applyValues values watcher.configuration.index).1.registry := by
    refine ⟨_, ?_, rfl⟩
    intro name value member
    obtain ⟨target, -, given⟩ := List.mem_filterMap.1 member
    obtain ⟨value', held, equal⟩ := Option.map_eq_some_iff.1 given
    obtain ⟨rfl, rfl⟩ := Prod.mk.inj equal
    exact held
  have accepted : Store.Accepts watcher.configuration.index values := by
    intro name value member
    have held := fromMap name value member
    rw [current] at held
    exact Configuration.validate_of_value? held
  rw [registry, Store.applyValues_of_accepts _ accepted]
  exact Store.renders_putAll shows fromMap

/-- A validation leaves the texts of the shown map alone. -/
theorem renders_validate (current : watcher.current = watcher.configuration.compute)
    (shows : watcher.registry.Renders watcher.current.map) (now : Nat) :
    (watcher.validate now).1.registry.Renders watcher.current.map := by
  rw [validate]
  dsimp only
  split
  · exact shows
  · split
    · next guard _ _ => exact @renders_runFix { watcher with guard } current shows _
    · exact shows

/-- A fresh watcher over an empty registry is in line once it is attached. -/
theorem inLine_attach (configuration : Configuration) (now : Nat) :
    ((start configuration .empty).attach now).1.InLine := by
  have same := sameDocuments_attach (start configuration .empty) now
  have tracks := same.tracks (tracks_start configuration .empty)
  have current : ((start configuration .empty).attach now).1.current = configuration.compute :=
    same.current
  have shows : (start configuration .empty).writeMap.1.registry.Renders
      configuration.compute.map := by
    rw [(writes_writeMap _).registry]
    exact configuration.renders_apply
  have attached := (start configuration .empty).attach_of_fresh now rfl
  have writes := writes_writeMap (start configuration .empty)
  rw [attached] at tracks current ⊢
  generalize (start configuration .empty).writeMap.1 = seen at shows writes tracks current ⊢
  have unchanged : seen.current = configuration.compute := writes.documents.current
  have documents : seen.configuration = configuration := writes.documents.configuration
  have quiet := quiet_validate seen now
  refine ⟨tracks, ?_, ?_, ?_⟩
  · rw [quiet.1, writes.isEnabled]
    rfl
  · rw [quiet.2, writes.liveRoots]
    rfl
  · rw [current, ← unchanged]
    refine renders_validate ?_ ?_ now
    · rw [unchanged, documents]
    · rw [unchanged]
      exact shows

/-- Attaching leaves the documents alone. -/
theorem configuration_attach (configuration : Configuration) (registry : Registry) (now : Nat) :
    ((start configuration registry).attach now).1.configuration = configuration :=
  (sameDocuments_attach (start configuration registry) now).configuration

/-! ## Flushing -/

/-- Where nothing is folded back and nothing forced, what is affected follows from the
two maps. -/
structure Undisturbed (watcher : Watcher) (decision : FlushDecision) : Prop where
  folded : decision.folded = { watcher with liveRoots := ∅ }
  adopted : decision.adopted = []
  tones : decision.tones = {}
  forced : decision.forced = []

/-- Nothing is folded back when none of the live changes is bound. -/
theorem undisturbed_of_unbound
    (unbound : ∀ name ∈ watcher.decideFlush.changed, watcher.current.map.binding? name = none) :
    Undisturbed watcher watcher.decideFlush := by
  have alone (bindings : PropertyMap) (changed : List Name) (adoption : Adoption)
      (unbound : ∀ name ∈ changed, bindings.binding? name = none) :
      changed.foldl (adopt bindings) adoption = adoption := by
    induction changed with
    | nil => rfl
    | cons name rest inductionHypothesis =>
        have own : adopt bindings adoption name = adoption := by
          rw [adopt, unbound name List.mem_cons_self]
        rw [List.foldl_cons, own]
        exact inductionHypothesis fun name member => unbound name (List.mem_cons_of_mem _ member)
  have adoption : adoptAll { watcher with liveRoots := ∅ } watcher.decideFlush.changed =
      { watcher := { watcher with liveRoots := ∅ } } := alone _ _ _ unbound
  have tones : watcher.decideFlush.tones = {} := by
    rw [tones_decideFlush, adoption]
    rfl
  refine ⟨?_, ?_, tones, ?_⟩
  · rw [folded_decideFlush, adoption]
  · rw [adopted_decideFlush, adoption]
  · rw [forced_decideFlush, adoption, tones]
    rfl

/-- Without a live change nothing is folded back. -/
theorem undisturbed_decideFlush (quiet : watcher.liveRoots.toList = []) :
    Undisturbed watcher watcher.decideFlush := by
  refine undisturbed_of_unbound fun name member => ?_
  rw [changed_decideFlush, quiet] at member
  cases member

/-- What a flush of a watcher in line plans follows from the two maps. -/
theorem InLine.mem_actions (inLine : watcher.InLine) {name : Name} {action : Action} :
    (name, action) ∈ watcher.decideFlush.actions ↔
      name ∈ watcher.decideFlush.affected ∧
        Action.between watcher.current.map watcher.decideFlush.next.map name = action := by
  have undisturbed := undisturbed_decideFlush inLine.quiet
  have shown : ({ watcher with liveRoots := ∅ } : Watcher).registry.Renders watcher.current.map :=
    inLine.shows
  rw [FlushDecision.mem_actions, undisturbed.tones, undisturbed.folded, action_of_renders shown]
  simp [TonePlan.handled]

theorem InLine.mem_writes (inLine : watcher.InLine) {name : Name} {value : Value} :
    (name, value) ∈ watcher.decideFlush.plan.writes ↔
      name ∈ watcher.decideFlush.affected ∧
        watcher.decideFlush.next.map.value? name = some value := by
  rw [FlushDecision.plan, FlushPlan.mem_writes, inLine.mem_actions, Action.between_eq_write]

theorem InLine.mem_unset (inLine : watcher.InLine) {name : Name} :
    name ∈ watcher.decideFlush.plan.unset ↔
      name ∈ watcher.decideFlush.affected ∧ watcher.decideFlush.next.map.value? name = none ∧
        watcher.current.map.contains name = true := by
  rw [FlushDecision.plan, FlushPlan.mem_unset, inLine.mem_actions, Action.between_eq_unset]

theorem InLine.contests_eq_nil (inLine : watcher.InLine) :
    watcher.decideFlush.plan.contests = [] := by
  apply List.eq_nil_iff_forall_not_mem.2
  intro contest member
  rw [FlushDecision.plan, FlushPlan.mem_contests, inLine.mem_actions] at member
  exact Action.between_ne_contest member.2

/-- What a flush of a watcher in line leaves in the registry is the next map. -/
theorem InLine.renders_carryOut (inLine : watcher.InLine) :
    watcher.decideFlush.carryOut.1.registry.Renders watcher.decideFlush.next.map := by
  have undisturbed := undisturbed_decideFlush inLine.quiet
  obtain ⟨state, applied, carried⟩ := FlushDecision.exists_applied (accepts_writes inLine.tracks)
  rw [inLine.contests_eq_nil, List.foldl_nil] at carried
  rw [carried]
  intro name
  have mem_writes := @InLine.mem_writes _ inLine name
  have mem_unset := @InLine.mem_unset _ inLine name
  have unaffectedAgrees := @value?_of_unaffected _ inLine.tracks name
  have shown : watcher.decideFlush.folded.store.get? name =
      (watcher.current.map.value? name).map Value.render := by
    rw [undisturbed.folded]
    exact inLine.shows name
  have writes : watcher.decideFlush.writes = watcher.decideFlush.plan.writes := by
    rw [FlushDecision.writes, undisturbed.tones]
    exact List.nil_append _
  refine (applied.get? name).trans ?_
  rw [writes]
  generalize watcher.decideFlush = decision at shown mem_writes mem_unset unaffectedAgrees ⊢
  -- A name that is not written shows what is left when the others are unset.
  have unwritten (absent : ∀ value, (name, value) ∉ decision.plan.writes) :
      ((decision.folded.store.unsetAll decision.plan.unset).1.putAll
        decision.plan.writes).get? name =
      if name ∈ decision.plan.unset then none
      else (watcher.current.map.value? name).map Value.render := by
    rw [Store.get?_putAll_of_absent absent, Store.get?_unsetAll, shown]
  by_cases affected : name ∈ decision.affected
  · cases held : decision.next.map.value? name with
    | none =>
        rw [unwritten (by simp [mem_writes, held])]
        split
        · rfl
        · next stays =>
            have absent : watcher.current.map.contains name = false := by
              simpa [mem_unset, affected, held] using stays
            rw [(PropertyMap.contains_eq_false_iff _ _).1 absent]
    | some value =>
        apply Store.get?_putAll_of_mem (mem_writes.2 ⟨affected, held⟩)
        intro other member
        exact Option.some.inj ((mem_writes.1 member).2.symm.trans held)
  · rw [unwritten (by simp [mem_writes, affected]), unaffectedAgrees affected,
      if_neg (by simp [mem_unset, affected])]

/-! ## Runs -/

theorem InLine.mutate (inLine : watcher.InLine) (mutation : Mutation) :
    (watcher.mutate mutation).InLine := by
  rcases watcher.mutate_cases mutation with unchanged | stale
  · rw [unchanged]
    exact inLine
  · refine ⟨stale.tracks inLine.tracks, stale.isEnabled.trans inLine.isEnabled, ?_, ?_⟩
    · rw [stale.liveRoots]
      exact inLine.quiet
    · rw [registry, stale.store, stale.current]
      exact inLine.shows

theorem InLine.runFlush (inLine : watcher.InLine) : watcher.runFlush.1.InLine := by
  have settled := settled_runFlush watcher
  have undisturbed := undisturbed_decideFlush inLine.quiet
  have shows := inLine.renders_carryOut
  have tracks := inLine.tracks.runFlush
  generalize watcher.decideFlush = decision at settled undisturbed shows
  generalize watcher.runFlush.1 = next at settled tracks ⊢
  refine ⟨tracks, ?_, ?_, ?_⟩
  · rw [settled.isEnabled, undisturbed.folded]
    exact inLine.isEnabled
  · rw [settled.liveRoots, undisturbed.folded]
    rfl
  · rw [settled.registry, settled.current]
    exact shows

theorem InLine.flush (inLine : watcher.InLine) : watcher.flush.1.InLine := by
  rcases watcher.flush_cases with ⟨-, unchanged, -⟩ | ⟨-, -, made, -⟩
  · rw [unchanged]
    exact inLine
  · rw [made]
    exact inLine.runFlush

theorem InLine.call (inLine : watcher.InLine) (call : Call) : (watcher.call call).InLine := by
  cases call with
  | change mutation => exact inLine.mutate mutation
  | flush => exact inLine.flush

/-- A flush of a watcher in line leaves its documents alone. -/
theorem InLine.configuration_flush (inLine : watcher.InLine) :
    watcher.flush.1.configuration = watcher.configuration := by
  rcases watcher.flush_cases with ⟨-, unchanged, -⟩ | ⟨-, -, made, -⟩
  · rw [unchanged]
  · rw [made, (settled_runFlush watcher).configuration,
      (undisturbed_decideFlush inLine.quiet).folded]

/-- A watcher in line shows the map of its own documents once it is flushed. -/
theorem InLine.renders_flush (inLine : watcher.InLine) :
    watcher.flush.1.registry.Renders watcher.configuration.compute.map := by
  have flushed := inLine.flush
  have settled : watcher.flush.1.pending.needsRecompute = false := by
    rcases watcher.flush_cases with ⟨disabled | nothing, unchanged, -⟩ | ⟨-, -, made, -⟩
    · rw [inLine.isEnabled] at disabled
      cases disabled
    · rw [unchanged]
      exact Pending.needsRecompute_of_isEmpty nothing
    · rw [made, (settled_runFlush watcher).pending]
      rfl
  rw [← inLine.configuration_flush, ← flushed.tracks.fresh settled]
  exact flushed.shows

/-- What a change makes of the documents depends on nothing but the documents. -/
theorem configuration_mutate {first second : Watcher}
    (same : first.configuration = second.configuration) (mutation : Mutation) :
    (first.mutate mutation).configuration = (second.mutate mutation).configuration := by
  cases mutation with
  | setToken path value =>
      simp only [mutate, setToken, announce, note, same]
  | setPalette mode key ramp primary =>
      simp only [mutate, setPalette, replaceTheme, note, same]
  | deletePalette mode key =>
      simp only [mutate, deletePalette, same]
      split
      · exact same
      · simp only [announce, replaceTheme, note, same]
  | setCoreColor mode slot reference =>
      simp only [mutate, setCoreColor, setThemeLeaf, replaceTheme, note, same]
  | setLayerSurface mode layer reference =>
      simp only [mutate, setLayerSurface, setThemeLeaf, replaceTheme, note, same]
  | replaceTokens tokens => simp only [mutate, replaceTokens, note, same]
  | replaceTheme theme => simp only [mutate, replaceTheme, note, same]
  | replaceUiKit uiKit => simp only [mutate, replaceUiKit, note, same]
  | setOptions options => simp only [mutate, setOptions, note, same]

/-- A run of calls stays in line, and its flushes leave no trace in the documents. -/
theorem InLine.run (inLine : watcher.InLine) (calls : List Call) {other : Watcher}
    (same : watcher.configuration = other.configuration) :
    (calls.foldl Watcher.call watcher).InLine ∧
      (calls.foldl Watcher.call watcher).configuration =
        ((calls.filterMap Call.mutation?).foldl Watcher.mutate other).configuration := by
  induction calls generalizing watcher other with
  | nil => exact ⟨inLine, same⟩
  | cons call rest inductionHypothesis =>
      cases call with
      | change mutation =>
          exact inductionHypothesis (inLine.mutate mutation) (configuration_mutate same mutation)
      | flush =>
          exact inductionHypothesis inLine.flush (inLine.configuration_flush.trans same)

/-- Attaching to an empty registry at once, then changing the documents with flushes in
between and one at the end, leaves what a fresh watcher over the changed documents
writes when it is attached. -/
theorem flush_eq_rebuild (configuration : Configuration) (calls : List Call) (now later : Nat) :
    (calls.foldl call ((start configuration .empty).attach now).1).flush.1.registry.toList =
      ((start ((calls.filterMap Call.mutation?).foldl mutate
        (start configuration .empty)).configuration .empty).attach later).1.registry.toList := by
  have attached := inLine_attach configuration now
  have documents := configuration_attach configuration .empty now
  obtain ⟨inLine, same⟩ := @InLine.run _ attached calls (start configuration .empty) documents
  have flushed := inLine.renders_flush
  have rebuilt := inLine_attach ((calls.filterMap Call.mutation?).foldl mutate
    (start configuration .empty)).configuration later
  have computed := (sameDocuments_attach (start ((calls.filterMap Call.mutation?).foldl mutate
    (start configuration .empty)).configuration .empty) later).current
  refine Registry.toList_congr fun name => ?_
  rw [flushed name, rebuilt.shows name, computed, same]
  rfl

end Watcher

end Legible
