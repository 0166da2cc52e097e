import Mathlib.Data.List.Induction
import Legible.Watch.FixPass
import Legible.Watch.Flush

/-!
# Runs of a watcher

A run is a list of operations: changes to the documents, calls, and writes to the
registry by someone else. Whatever the order, the computation that a watcher holds is
that of some configuration, its graph is that of its map, and unless a document or
option has changed since, it is the computation of the watcher's own configuration.
-/

namespace Legible

open Property

/-- A change to the documents or the options. -/
inductive Mutation where
  | setToken (path : Token.Path) (value : Json)
  | setPalette (mode : Mode) (key ramp : String) (primary : Option Token.Level)
  | deletePalette (mode : Mode) (key : String)
  | setCoreColor (mode : Mode) (slot : CoreSlot) (reference : String)
  | setLayerSurface (mode : Mode) (layer : LayerId) (reference : String)
  | replaceTokens (tokens : Document)
  | replaceTheme (theme : Document)
  | replaceUiKit (uiKit : Document)
  | setOptions (options : Options)

/-- Something that is done with a watcher or to its registry. -/
inductive Operation where
  | mutate (mutation : Mutation)
  | watch (target : WatchTarget)
  | unwatch (target : WatchTarget)
  | attach (now : Nat)
  | notify (event : Event)
  | writeLive (name : Name) (text : String)
  | flush
  | check
  | validate (now : Nat)
  | enable
  | disable
  | takeEvents
  /-- Someone else sets a property. -/
  | setOutside (name : Name) (text : String)
  /-- Someone else unsets a property. -/
  | unsetOutside (name : Name)

namespace Watcher

/-- Makes a change to the documents or the options. -/
def mutate (watcher : Watcher) : Mutation → Watcher
  | .setToken path value => watcher.setToken path value
  | .setPalette mode key ramp primary => watcher.setPalette mode key ramp primary
  | .deletePalette mode key => (watcher.deletePalette mode key).1
  | .setCoreColor mode slot reference => watcher.setCoreColor mode slot reference
  | .setLayerSurface mode layer reference => watcher.setLayerSurface mode layer reference
  | .replaceTokens tokens => watcher.replaceTokens tokens
  | .replaceTheme theme => watcher.replaceTheme theme
  | .replaceUiKit uiKit => watcher.replaceUiKit uiKit
  | .setOptions options => watcher.setOptions options

/-- Does one operation. A refused live write changes nothing. -/
def operate (watcher : Watcher) : Operation → Watcher
  | .mutate mutation => watcher.mutate mutation
  | .watch target => watcher.watch target
  | .unwatch target => (watcher.unwatch target).1
  | .attach now => (watcher.attach now).1
  | .notify event => watcher.notify event
  | .writeLive name text =>
      match watcher.writeLive name text with
      | .ok (written, _) => written
      | .error _ => watcher
  | .flush => watcher.flush.1
  | .check => watcher.check.1
  | .validate now => (watcher.validate now).1
  | .enable => watcher.enable
  | .disable => watcher.disable
  | .takeEvents => watcher.takeEvents.1
  | .setOutside name text =>
      { watcher with
        store := { watcher.store with registry := watcher.registry.set name text } }
  | .unsetOutside name =>
      { watcher with store := { watcher.store with registry := watcher.registry.erase name } }

/-- A watcher that some run from a fresh start leads to. -/
def Reachable (watcher : Watcher) : Prop :=
  ∃ configuration registry operations,
    watcher = (operations : List Operation).foldl operate (start configuration registry)

/-- What a watcher knows about its documents: its computation is that of some
configuration, and of its own unless something has changed since. -/
structure Tracks (watcher : Watcher) : Prop where
  fresh : watcher.pending.needsRecompute = false → watcher.current = watcher.configuration.compute
  computed : ∃ configuration : Configuration, watcher.current = configuration.compute
  graph : watcher.graph = .ofMap watcher.current.map

/-! ## Pending changes -/

end Watcher

namespace Pending

theorem needsRecompute_iff (pending : Pending) :
    pending.needsRecompute = true ↔ ∃ change, change ≠ .live ∧ pending.has change = true := by
  rw [needsRecompute, List.any_eq_true]
  constructor
  · rintro ⟨change, member, other⟩
    exact ⟨change, by simpa using other, (List.mem_filter.1 member).2⟩
  · rintro ⟨change, other, has⟩
    refine ⟨change, List.mem_filter.2 ⟨?_, has⟩, by simpa using other⟩
    cases change <;> decide

/-- A change of a document or option asks for a computation. -/
theorem needsRecompute_insert {pending : Pending} {change : Change} (other : change ≠ .live) :
    (pending.insert change).needsRecompute = true :=
  (needsRecompute_iff _).2 ⟨change, other, (has_insert _ _ _).2 (.inr rfl)⟩

/-- A live change does not. -/
theorem needsRecompute_insert_live (pending : Pending) :
    (pending.insert .live).needsRecompute = pending.needsRecompute := by
  rw [Bool.eq_iff_iff, needsRecompute_iff, needsRecompute_iff]
  constructor
  · rintro ⟨change, other, has⟩
    exact ⟨change, other, ((has_insert _ _ _).1 has).resolve_right other⟩
  · rintro ⟨change, other, has⟩
    exact ⟨change, other, (has_insert _ _ _).2 (.inl has)⟩

theorem isEmpty_eq_false_iff (pending : Pending) :
    pending.isEmpty = false ↔ ∃ change, pending.has change = true := by
  rw [isEmpty, List.isEmpty_eq_false_iff_exists_mem]
  refine exists_congr fun change => ?_
  rw [toList, List.mem_filter]
  refine and_iff_right ?_
  cases change <;> decide

/-- After a change something is pending. -/
theorem isEmpty_insert (pending : Pending) (change : Change) :
    (pending.insert change).isEmpty = false :=
  (isEmpty_eq_false_iff _).2 ⟨change, (has_insert _ _ _).2 (.inr rfl)⟩

theorem needsRecompute_of_isEmpty {pending : Pending} (empty : pending.isEmpty = true) :
    pending.needsRecompute = false := by
  rw [needsRecompute, List.isEmpty_iff.1 empty]
  rfl

end Pending

namespace Watcher

/-! ## What the operations leave alone -/

/-- Two watchers with the same documents, computation and pending changes. -/
structure SameDocuments (first second : Watcher) : Prop where
  configuration : second.configuration = first.configuration
  current : second.current = first.current
  graph : second.graph = first.graph
  pending : second.pending.needsRecompute = first.pending.needsRecompute

theorem SameDocuments.tracks {first second : Watcher} (same : SameDocuments first second)
    (tracks : first.Tracks) : second.Tracks where
  fresh steady := by
    rw [same.current, same.configuration]
    exact tracks.fresh (same.pending ▸ steady)
  computed := by
    rw [same.current]
    exact tracks.computed
  graph := by
    rw [same.graph, same.current]
    exact tracks.graph

theorem sameDocuments_refl (watcher : Watcher) : SameDocuments watcher watcher := ⟨rfl, rfl, rfl, rfl⟩

theorem SameDocuments.trans {first second third : Watcher} (left : SameDocuments first second)
    (right : SameDocuments second third) : SameDocuments first third where
  configuration := right.configuration.trans left.configuration
  current := right.current.trans left.current
  graph := right.graph.trans left.graph
  pending := right.pending.trans left.pending

theorem sameDocuments_runFix (watcher : Watcher) (issues : List Issue) :
    SameDocuments watcher (watcher.runFix issues).1 := ⟨rfl, rfl, rfl, rfl⟩

theorem sameDocuments_validate (watcher : Watcher) (now : Nat) :
    SameDocuments watcher (watcher.validate now).1 := by
  rw [validate]
  dsimp only
  split
  · exact sameDocuments_refl watcher
  · split
    · next guard _ _ =>
        have guarded : SameDocuments watcher { watcher with guard } := ⟨rfl, rfl, rfl, rfl⟩
        exact guarded.trans (sameDocuments_runFix _ _)
    · exact sameDocuments_refl watcher

/-- A fix pass neither switches a watcher off nor notes a live change. -/
theorem quiet_runFix (watcher : Watcher) (issues : List Issue) :
    (watcher.runFix issues).1.isEnabled = watcher.isEnabled ∧
      (watcher.runFix issues).1.liveRoots = watcher.liveRoots := ⟨rfl, rfl⟩

/-- Nor does a validation. -/
theorem quiet_validate (watcher : Watcher) (now : Nat) :
    (watcher.validate now).1.isEnabled = watcher.isEnabled ∧
      (watcher.validate now).1.liveRoots = watcher.liveRoots := by
  rw [validate]
  dsimp only
  split
  · exact ⟨rfl, rfl⟩
  · split
    · next guard _ _ => exact quiet_runFix { watcher with guard } _
    · exact ⟨rfl, rfl⟩

/-- What writing the map keeps. -/
structure Writes (first second : Watcher) : Prop where
  documents : SameDocuments first second
  registry : second.registry =
    (first.store.apply first.current.map first.configuration.index).1.registry
  liveRoots : second.liveRoots = first.liveRoots
  isEnabled : second.isEnabled = first.isEnabled
  guard : second.guard = first.guard

theorem writes_writeMap (watcher : Watcher) : Writes watcher watcher.writeMap.1 :=
  ⟨⟨rfl, rfl, rfl, rfl⟩, rfl, rfl, rfl, rfl⟩

/-- Attaching writes the map and validates it the first time. -/
theorem attach_eq (watcher : Watcher) (now : Nat) :
    watcher.attach now =
      if watcher.isAttached then
        (watcher.writeMap.1, { report := Report.empty.extend watcher.writeMap.2.issues })
      else
        ((watcher.writeMap.1.validate now).1,
          { (watcher.writeMap.1.validate now).2 with
            report := (watcher.writeMap.1.validate now).2.report.extend
              watcher.writeMap.2.issues }) := by
  rw [attach]

theorem attach_of_fresh (watcher : Watcher) (now : Nat) (fresh : watcher.isAttached = false) :
    (watcher.attach now).1 = (watcher.writeMap.1.validate now).1 := by
  rw [attach_eq]
  generalize watcher.writeMap = made
  rw [fresh]
  rfl

theorem sameDocuments_attach (watcher : Watcher) (now : Nat) :
    SameDocuments watcher (watcher.attach now).1 := by
  have writes := writes_writeMap watcher
  rw [attach_eq]
  generalize watcher.writeMap = made at writes ⊢
  split
  · exact writes.documents
  · exact writes.documents.trans (sameDocuments_validate _ now)

theorem sameDocuments_notify (watcher : Watcher) (event : Event) :
    SameDocuments watcher (watcher.notify event) :=
  ⟨rfl, rfl, rfl, Pending.needsRecompute_insert_live _⟩

theorem sameDocuments_writeLive {watcher written : Watcher} {name : Name} {text : String}
    {verdict : Verdict} (ok : watcher.writeLive name text = .ok (written, verdict)) :
    SameDocuments watcher written := by
  rw [writeLive] at ok
  split at ok
  · cases ok
  · cases ok
    exact ⟨rfl, rfl, rfl, Pending.needsRecompute_insert_live _⟩

theorem sameDocuments_operate_writeLive (watcher : Watcher) (name : Name) (text : String) :
    SameDocuments watcher (watcher.operate (.writeLive name text)) := by
  rw [operate]
  split
  · next written _ ok => exact sameDocuments_writeLive ok
  · exact sameDocuments_refl watcher

/-! ## Changes to the documents -/

/-- A watcher whose documents are about to be computed again. -/
structure Stale (first second : Watcher) : Prop where
  current : second.current = first.current
  graph : second.graph = first.graph
  store : second.store = first.store
  interest : second.interest = first.interest
  liveRoots : second.liveRoots = first.liveRoots
  isEnabled : second.isEnabled = first.isEnabled
  pending : second.pending.needsRecompute = true

theorem Stale.tracks {first second : Watcher} (stale : Stale first second)
    (tracks : first.Tracks) : second.Tracks where
  fresh steady := by
    rw [stale.pending] at steady
    cases steady
  computed := by
    rw [stale.current]
    exact tracks.computed
  graph := by
    rw [stale.graph, stale.current]
    exact tracks.graph

theorem stale_setToken (watcher : Watcher) (path : Token.Path) (value : Json) :
    Stale watcher (watcher.setToken path value) :=
  ⟨rfl, rfl, rfl, rfl, rfl, rfl, Pending.needsRecompute_insert (by decide)⟩

theorem stale_setThemeLeaf (watcher : Watcher) (path : List String) (reference : String) :
    Stale watcher (watcher.setThemeLeaf path reference) :=
  ⟨rfl, rfl, rfl, rfl, rfl, rfl, Pending.needsRecompute_insert (by decide)⟩

/-- A change to the documents asks for a computation, or changes nothing at all. -/
theorem mutate_cases (watcher : Watcher) (mutation : Mutation) :
    watcher.mutate mutation = watcher ∨ Stale watcher (watcher.mutate mutation) := by
  have other {change : Change} (other : change ≠ .live) :
      (watcher.pending.insert change).needsRecompute = true :=
    Pending.needsRecompute_insert other
  cases mutation with
  | setToken path value => exact .inr (stale_setToken watcher path value)
  | setPalette mode key ramp primary => exact .inr ⟨rfl, rfl, rfl, rfl, rfl, rfl, other (by decide)⟩
  | deletePalette mode key =>
      simp only [mutate, deletePalette]
      split
      · exact .inl rfl
      · exact .inr ⟨rfl, rfl, rfl, rfl, rfl, rfl, other (by decide)⟩
  | setCoreColor mode slot reference => exact .inr (stale_setThemeLeaf watcher _ reference)
  | setLayerSurface mode layer reference => exact .inr (stale_setThemeLeaf watcher _ reference)
  | replaceTokens tokens => exact .inr ⟨rfl, rfl, rfl, rfl, rfl, rfl, other (by decide)⟩
  | replaceTheme theme => exact .inr ⟨rfl, rfl, rfl, rfl, rfl, rfl, other (by decide)⟩
  | replaceUiKit uiKit => exact .inr ⟨rfl, rfl, rfl, rfl, rfl, rfl, other (by decide)⟩
  | setOptions options => exact .inr ⟨rfl, rfl, rfl, rfl, rfl, rfl, other (by decide)⟩

theorem Tracks.mutate {watcher : Watcher} (tracks : watcher.Tracks) (mutation : Mutation) :
    (watcher.mutate mutation).Tracks := by
  rcases watcher.mutate_cases mutation with unchanged | stale
  · rw [unchanged]
    exact tracks
  · exact stale.tracks tracks

/-! ## Folding live changes back -/

/-- What folding live changes back keeps. -/
structure Folds (first second : Watcher) : Prop where
  current : second.current = first.current
  graph : second.graph = first.graph
  store : second.store = first.store
  tracks : first.Tracks → second.Tracks

theorem folds_refl (watcher : Watcher) : Folds watcher watcher := ⟨rfl, rfl, rfl, id⟩

theorem Stale.folds {first second : Watcher} (stale : Stale first second) : Folds first second :=
  ⟨stale.current, stale.graph, stale.store, stale.tracks⟩

theorem Folds.trans {first second third : Watcher} (left : Folds first second)
    (right : Folds second third) : Folds first third where
  current := right.current.trans left.current
  graph := right.graph.trans left.graph
  store := right.store.trans left.store
  tracks tracks := right.tracks (left.tracks tracks)

/-- One live change is folded back by setting a token or a leaf of the theme, or not at
all. -/
theorem watcher_adopt_cases (bindings : PropertyMap) (adoption : Adoption) (name : Name) :
    (adopt bindings adoption name).watcher = adoption.watcher ∨
      (∃ path value,
        (adopt bindings adoption name).watcher = adoption.watcher.setToken path value) ∨
      ∃ path reference,
        (adopt bindings adoption name).watcher = adoption.watcher.setThemeLeaf path reference := by
  rw [adopt]
  dsimp only
  split
  · next path _ =>
      cases adopted : adoption.watcher.adoptToken? name path with
      | none => exact .inl rfl
      | some changed =>
          unfold adoptToken? at adopted
          obtain ⟨text, -, rest⟩ := Option.bind_eq_some_iff.1 adopted
          obtain ⟨held, -, rest⟩ := Option.bind_eq_some_iff.1 rest
          obtain ⟨value, -, final⟩ := Option.bind_eq_some_iff.1 rest
          cases final
          exact .inr (.inl ⟨_, _, rfl⟩)
  · next path _ =>
      cases adopted : adoption.watcher.adoptTheme? name path with
      | none => exact .inl rfl
      | some changed =>
          unfold adoptTheme? at adopted
          split at adopted
          · split at adopted
            · obtain ⟨token, -, rfl⟩ := Option.map_eq_some_iff.1 adopted
              exact .inr (.inr ⟨_, _, rfl⟩)
            · cases adopted
          · cases adopted
  · exact .inl rfl
  · exact .inl rfl

/-- What holds of setting a token and of setting a leaf of the theme, and goes on from step
to step, holds of folding live changes back. -/
theorem relates_adoptAll {relates : Watcher → Watcher → Prop}
    (refl : ∀ watcher, relates watcher watcher)
    (trans : ∀ {first second third},
      relates first second → relates second third → relates first third)
    (token : ∀ watcher path value, relates watcher (setToken watcher path value))
    (leaf : ∀ watcher path reference, relates watcher (setThemeLeaf watcher path reference))
    (watcher : Watcher) (changed : List Name) :
    relates watcher (adoptAll watcher changed).watcher := by
  have step (adoption : Adoption) :
      relates adoption.watcher
        (changed.foldl (adopt watcher.current.map) adoption).watcher := by
    induction changed generalizing adoption with
    | nil => exact refl _
    | cons name rest inductionHypothesis =>
        refine trans ?_ (inductionHypothesis _)
        rcases watcher_adopt_cases watcher.current.map adoption name with
          same | ⟨path, value, set⟩ | ⟨path, reference, set⟩
        · rw [same]
          exact refl _
        · rw [set]
          exact token _ path value
        · rw [set]
          exact leaf _ path reference
  exact step { watcher }

/-- One live change is folded back by one change of a document, or by none. -/
theorem folds_adopt (bindings : PropertyMap) (adoption : Adoption) (name : Name) :
    Folds adoption.watcher (adopt bindings adoption name).watcher := by
  rcases watcher_adopt_cases bindings adoption name with
    same | ⟨path, value, set⟩ | ⟨path, reference, set⟩
  · rw [same]
    exact folds_refl _
  · rw [set]
    exact (stale_setToken _ path value).folds
  · rw [set]
    exact (stale_setThemeLeaf _ path reference).folds

theorem folds_adoptAll (watcher : Watcher) (changed : List Name) :
    Folds watcher (adoptAll watcher changed).watcher :=
  relates_adoptAll folds_refl Folds.trans (fun _ _ _ => (stale_setToken _ _ _).folds)
    (fun _ _ _ => (stale_setThemeLeaf _ _ _).folds) watcher changed

/-! ## The pass of a flush -/

section

variable (watcher : Watcher)

theorem changed_decideFlush :
    watcher.decideFlush.changed = watcher.liveRoots.toList.filter watcher.liveDiffers := rfl

theorem folded_decideFlush :
    watcher.decideFlush.folded =
      (adoptAll { watcher with liveRoots := ∅ } watcher.decideFlush.changed).watcher := rfl

theorem next_decideFlush :
    watcher.decideFlush.next =
      if watcher.decideFlush.folded.pending.needsRecompute then
        watcher.decideFlush.folded.configuration.compute
      else watcher.decideFlush.folded.current := rfl

theorem recomputed_decideFlush :
    watcher.decideFlush.recomputed = watcher.decideFlush.folded.pending.needsRecompute := rfl

theorem adopted_decideFlush :
    watcher.decideFlush.adopted =
      (adoptAll { watcher with liveRoots := ∅ } watcher.decideFlush.changed).adopted := rfl

theorem tones_decideFlush :
    watcher.decideFlush.tones =
      .ofOverrides watcher.decideFlush.folded.registry watcher.decideFlush.next
        (adoptAll { watcher with liveRoots := ∅ } watcher.decideFlush.changed).tones := rfl

theorem forced_decideFlush :
    watcher.decideFlush.forced =
      (adoptAll { watcher with liveRoots := ∅ } watcher.decideFlush.changed).forced ++
        watcher.decideFlush.tones.forced := rfl

end

/-- What a flush decides is about the watcher with its live changes folded back. -/
theorem folds_decideFlush (watcher : Watcher) : Folds watcher watcher.decideFlush.folded := by
  have cleared : Folds watcher { watcher with liveRoots := ∅ } :=
    ⟨rfl, rfl, rfl, fun tracks => ⟨tracks.fresh, tracks.computed, tracks.graph⟩⟩
  exact cleared.trans (folds_adoptAll _ _)

/-- What changes in the map or live is affected, and what depends on it before or now. -/
theorem affected_decideFlush (watcher : Watcher) :
    watcher.decideFlush.affected =
      ((watcher.graph.union (.ofMap watcher.decideFlush.next.map)).affected
        ((watcher.current.map.difference watcher.decideFlush.next.map).changed ++
          (watcher.current.map.difference watcher.decideFlush.next.map).removed ++
            watcher.decideFlush.changed)).toList := by
  have shape : watcher.decideFlush.affected =
      ((watcher.decideFlush.folded.graph.union (.ofMap watcher.decideFlush.next.map)).affected
        ((watcher.decideFlush.folded.current.map.difference watcher.decideFlush.next.map).changed ++
          (watcher.decideFlush.folded.current.map.difference
            watcher.decideFlush.next.map).removed ++ watcher.decideFlush.changed)).toList := by
    unfold decideFlush
    dsimp only
  have folds := folds_decideFlush watcher
  rw [shape, folds.graph, folds.current]

/-- The next computation is always that of the documents that a flush leaves. -/
theorem Tracks.next {watcher : Watcher} (tracks : watcher.Tracks) :
    watcher.decideFlush.next = watcher.decideFlush.folded.configuration.compute := by
  have folded := (folds_decideFlush watcher).tracks tracks
  rw [next_decideFlush]
  split
  · rfl
  · next steady => exact folded.fresh (by simpa using steady)

/-- One event says of each palette that was set which tones it has now. -/
theorem announcePalettes_eq (watcher : Watcher) :
    watcher.announcePalettes =
      { watcher with
        outbox := watcher.outbox ++ watcher.changedPalettes.toList.map fun palette =>
          ⟨.paletteChanged, watcher.current.map.tones palette.mode palette.key⟩
        changedPalettes := ∅ } := by
  have announced (palettes : List PaletteId) (start : Watcher) :
      palettes.foldl (fun (watcher : Watcher) palette =>
        watcher.announce .paletteChanged (watcher.current.map.tones palette.mode palette.key))
        start =
      { start with
        outbox := start.outbox ++ palettes.map fun palette =>
          ⟨.paletteChanged, start.current.map.tones palette.mode palette.key⟩ } := by
    induction palettes generalizing start with
    | nil => rw [List.foldl_nil, List.map_nil, List.append_nil]
    | cons palette rest inductionHypothesis =>
        rw [List.foldl_cons, inductionHypothesis, announce, List.map_cons, List.append_assoc]
        rfl
  rw [announcePalettes, announced]

/-- What a pass leaves in a watcher: the folded documents, the store as it was written,
the next computation, and nothing pending. -/
structure Settled (folded : Watcher) (store : Store) (computation : Computation)
    (graph : DependencyGraph) (next : Watcher) : Prop where
  configuration : next.configuration = folded.configuration
  current : next.current = computation
  graph : next.graph = graph
  registry : next.registry = store.registry
  pending : next.pending = .empty
  isEnabled : next.isEnabled = folded.isEnabled
  liveRoots : next.liveRoots = folded.liveRoots

theorem settled_settle (folded : Watcher) (store : Store) (computation : Computation)
    (graph : DependencyGraph) (recomputed : Bool) (seen : List Name) :
    Settled folded store computation graph
      ({ folded with store }.settle computation graph recomputed seen) := by
  rw [settle]
  dsimp only
  rw [announcePalettes_eq]
  exact ⟨rfl, rfl, rfl, rfl, rfl, rfl, rfl⟩

/-- The pass settles what was decided and carried out. -/
theorem settled_runFlush (watcher : Watcher) :
    Settled watcher.decideFlush.folded watcher.decideFlush.carryOut.1 watcher.decideFlush.next
      watcher.decideFlush.graph watcher.runFlush.1 := by
  rw [runFlush]
  exact settled_settle _ _ _ _ _ _

/-- The report of a pass is that of what was carried out. -/
theorem report_runFlush (watcher : Watcher) :
    watcher.runFlush.2 = watcher.decideFlush.carryOut.2 := by
  rw [runFlush]

theorem flush_eq (watcher : Watcher) :
    watcher.flush =
      if !watcher.isEnabled then (watcher, none)
      else if watcher.pending.isEmpty then (watcher, some {})
      else (watcher.runFlush.1, some watcher.runFlush.2) := by
  delta flush
  generalize watcher.runFlush = made
  rfl

/-- A flush does nothing, or makes its pass and reports it. -/
theorem flush_cases (watcher : Watcher) :
    ((watcher.isEnabled = false ∨ watcher.pending.isEmpty = true) ∧ watcher.flush.1 = watcher ∧
        ∀ report, watcher.flush.2 = some report → report = {}) ∨
      (watcher.isEnabled = true ∧ watcher.pending.isEmpty = false ∧
        watcher.flush.1 = watcher.runFlush.1 ∧ watcher.flush.2 = some watcher.runFlush.2) := by
  rw [flush_eq]
  generalize watcher.runFlush = made
  split
  · next disabled =>
      refine .inl ⟨.inl (by simpa using disabled), rfl, fun report reported => ?_⟩
      cases reported
  · next enabled =>
      split
      · next nothing =>
          refine .inl ⟨.inr nothing, rfl, fun report reported => ?_⟩
          cases reported
          rfl
      · next something => exact .inr ⟨by simpa using enabled, by simpa using something, rfl, rfl⟩

theorem check_eq (watcher : Watcher) :
    watcher.check =
      if !watcher.isEnabled then (watcher, none)
      else if (watcher.interest.changed watcher.current.map watcher.registry).isEmpty then
        watcher.flush
      else
        ({ watcher with
          liveRoots := watcher.liveRoots.insertMany
            (watcher.interest.changed watcher.current.map watcher.registry) }.note .live).flush := by
  rw [check]

/-- A check does nothing, or flushes, maybe with watched properties noted before. -/
theorem check_cases (watcher : Watcher) :
    watcher.check.1 = watcher ∨ watcher.check.1 = watcher.flush.1 ∨
      ∃ liveRoots, watcher.check.1 = ({ watcher with liveRoots }.note .live).flush.1 := by
  rw [check_eq]
  split
  · exact .inl rfl
  · split
    · exact .inr (.inl rfl)
    · exact .inr (.inr ⟨_, rfl⟩)

theorem Tracks.runFlush {watcher : Watcher} (tracks : watcher.Tracks) :
    watcher.runFlush.1.Tracks := by
  have settled := settled_runFlush watcher
  have next := tracks.next
  refine ⟨fun _ => ?_, ⟨watcher.decideFlush.folded.configuration, ?_⟩, ?_⟩
  · rw [settled.current, settled.configuration, next]
  · rw [settled.current, next]
  · rw [settled.graph, settled.current]
    rfl

theorem Tracks.flush {watcher : Watcher} (tracks : watcher.Tracks) : watcher.flush.1.Tracks := by
  rcases watcher.flush_cases with ⟨-, unchanged, -⟩ | ⟨-, -, made, -⟩
  · rw [unchanged]
    exact tracks
  · rw [made]
    exact tracks.runFlush

/-! ## Whole runs -/

theorem tracks_start (configuration : Configuration) (registry : Registry) :
    (start configuration registry).Tracks :=
  ⟨fun _ => rfl, ⟨configuration, rfl⟩, rfl⟩

theorem Tracks.operate {watcher : Watcher} (tracks : watcher.Tracks) (operation : Operation) :
    (watcher.operate operation).Tracks := by
  cases operation with
  | mutate mutation => exact tracks.mutate mutation
  | watch target => exact ⟨tracks.fresh, tracks.computed, tracks.graph⟩
  | unwatch target => exact ⟨tracks.fresh, tracks.computed, tracks.graph⟩
  | attach now => exact (sameDocuments_attach watcher now).tracks tracks
  | notify event => exact (sameDocuments_notify watcher event).tracks tracks
  | writeLive name text => exact (sameDocuments_operate_writeLive watcher name text).tracks tracks
  | flush => exact tracks.flush
  | check =>
      rcases watcher.check_cases with unchanged | flushed | ⟨roots, noted⟩
      · rw [Watcher.operate, unchanged]
        exact tracks
      · rw [Watcher.operate, flushed]
        exact tracks.flush
      · rw [Watcher.operate, noted]
        have same : SameDocuments watcher ({ watcher with liveRoots := roots }.note .live) :=
          ⟨rfl, rfl, rfl, Pending.needsRecompute_insert_live watcher.pending⟩
        exact (same.tracks tracks).flush
  | validate now => exact (sameDocuments_validate watcher now).tracks tracks
  | enable => exact ⟨tracks.fresh, tracks.computed, tracks.graph⟩
  | disable => exact ⟨tracks.fresh, tracks.computed, tracks.graph⟩
  | takeEvents => exact ⟨tracks.fresh, tracks.computed, tracks.graph⟩
  | setOutside name text => exact ⟨tracks.fresh, tracks.computed, tracks.graph⟩
  | unsetOutside name => exact ⟨tracks.fresh, tracks.computed, tracks.graph⟩

/-- What a fresh watcher has and every operation keeps, a watcher has after any run. -/
theorem Reachable.invariant {holds : Watcher → Prop}
    (fresh : ∀ configuration registry, holds (start configuration registry))
    (kept : ∀ watcher operation, holds watcher → holds (watcher.operate operation))
    {watcher : Watcher} (reachable : watcher.Reachable) : holds watcher := by
  obtain ⟨configuration, registry, operations, rfl⟩ := reachable
  induction operations using List.reverseRecOn with
  | nil => exact fresh configuration registry
  | append_singleton operations operation inductionHypothesis =>
      rw [List.foldl_append]
      exact kept _ operation inductionHypothesis

/-- Every watcher that a run leads to tracks its documents. -/
theorem Reachable.tracks {watcher : Watcher} (reachable : watcher.Reachable) : watcher.Tracks :=
  reachable.invariant tracks_start fun _ operation tracks => tracks.operate operation

end Watcher

/-! ## Small configurations and runs

A ramp of white, a gray and black, and one layer. On a bare layer stands a text; on
the others there is an interactive color as well, which starts at black. Where no layer
is needed there is a palette, or a component alone. It is on these that general results
are shown to apply, or to need what they assume. -/

namespace Sample

/-- A leaf of a document. -/
def leaf (value : Json) : Json := .object [("$value", value)]

/-- A ramp with some levels, and further categories. -/
def tokens (levels : List (String × String)) (more : List (String × Json)) : Document :=
  ⟨"tokens", .object (("color", .object
    [("gray", .object (levels.map fun (level, hex) => (level, leaf (.text hex))))]) :: more)⟩

/-- White, the lightest gray that is legible on white, and black. -/
def grays : List (String × String) := [("000", "#ffffff"), ("500", "#767676"), ("900", "#000000")]

/-- A light mode with core colors and one layer. -/
def theme (core layer : List (String × Json)) : Document :=
  ⟨"theme", .object
    [("themes", .object
      [("light", .object
        [("core-colors", .object core), ("layers", .object [("layer-0", .object layer)])])])]⟩

/-- Black and white bound to the ends of the ramp, and the interactive color to black. -/
def core : List (String × Json) :=
  [("black", leaf (.text "\x7btokens.color.gray.900\x7d")),
    ("white", leaf (.text "\x7btokens.color.gray.000\x7d")),
    ("interactive", .object [("default", leaf (.text "\x7btokens.color.gray.900\x7d"))])]

/-- White and black, and a layer that binds nothing. -/
def bare : Configuration :=
  .ofDocuments (tokens [("000", "#ffffff"), ("900", "#000000")] []) (theme [] [])
    (.empty "ui-kit") {}

/-- An interactive color on a white surface. -/
def onWhite : Configuration :=
  .ofDocuments (tokens grays [])
    (theme core [("surface", leaf (.text "\x7btokens.color.gray.000\x7d"))]) (.empty "ui-kit") {}

/-- An interactive color on a gray surface. -/
def onGray : Configuration :=
  .ofDocuments (tokens grays [])
    (theme core [("surface", leaf (.text "\x7btokens.color.gray.500\x7d"))]) (.empty "ui-kit") {}

/-- Text of less than full opacity, and a component that follows it. -/
def muted : Configuration :=
  .ofDocuments (tokens grays [("opacity", .object [("muted", leaf (.number (.real 0.75)))])])
    (theme core []) ⟨"ui-kit", .object [("label", leaf (.text "\x7bbrand.layer.0.text\x7d"))]⟩
    { textEmphasis := some "\x7btokens.opacity.muted\x7d" }

/-- A palette over a ramp of one gray, and no layer. -/
def accented : Configuration :=
  .ofDocuments
    ⟨"tokens", .object [("color", .object
      [("gray", .object [("000", leaf (.text "#ffffff")), ("900", leaf (.text "#000000"))]),
        ("stone", .object [("500", leaf (.text "#767676"))])])]⟩
    ⟨"theme", .object
      [("themes", .object
        [("light", .object
          [("core-colors", .object (core.take 2)),
            ("palettes", .object [("accent", leaf (.text "\x7btokens.color.stone\x7d"))])])])]⟩
    (.empty "ui-kit") {}

/-- White and black, and a component that is white. -/
def labelled : Configuration :=
  .ofDocuments (tokens [("000", "#ffffff"), ("900", "#000000")] []) (.empty "theme")
    ⟨"ui-kit", .object [("label", leaf (.text "\x7btokens.color.gray.000\x7d"))]⟩ {}

/-- The surface of the layer. -/
def surface : Property.Name := ⟨"--brand-light-layer-0-surface"⟩

/-- The text on the layer. -/
def text : Property.Name := ⟨"--brand-light-layer-0-text"⟩

/-- The interactive tone on the layer. -/
def tone : Property.Name := ⟨"--brand-light-layer-0-interactive-default-tone"⟩

/-- The on-tone that stands on it. -/
def onTone : Property.Name := ⟨"--brand-light-layer-0-interactive-default-on-tone"⟩

/-- The tone of the palette. -/
def accent : Property.Name := ⟨"--brand-light-palettes-accent-500-tone"⟩

/-- The on-tone that stands on it. -/
def onAccent : Property.Name := ⟨"--brand-light-palettes-accent-500-on-tone"⟩

/-- The color of the component. -/
def label : Property.Name := ⟨"--ui-label"⟩

/-- A property that no map holds. -/
def loose : Property.Name := ⟨"--loose"⟩

/-- A watcher that is attached at once and then used. -/
def attached (configuration : Configuration) (operations : List Operation) : Watcher :=
  (.attach 0 :: operations).foldl Watcher.operate (.start configuration .empty)

/-- A watcher over the bare layer that is told of its text, where the tokens and the
surface are shown. -/
def told (text : List (Property.Name × String)) : Watcher :=
  [.notify ⟨.propertiesUpdated, [Sample.text]⟩].foldl Watcher.operate
    (.start bare (.ofList
      ([(⟨"--tokens-color-gray-000"⟩, "#ffffff"), (⟨"--tokens-color-gray-900"⟩, "#000000"),
        (surface, "var(--tokens-color-gray-000)")] ++ text)))

theorem reachable_attached (configuration : Configuration) (operations : List Operation) :
    (attached configuration operations).Reachable := ⟨_, _, _, rfl⟩

theorem reachable_told (text : List (Property.Name × String)) : (told text).Reachable :=
  ⟨_, _, _, rfl⟩

end Sample

end Legible
