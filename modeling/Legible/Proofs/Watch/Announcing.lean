import Legible.Proofs.Watch.Once
import Legible.Proofs.Watch.Seen

/-!
# What a watcher announces

The store queues an event about everything that it sets or unsets, and every operation of
the watcher that goes through the store forwards the queue before it ends. The other events
of a watcher are about tokens and palettes. So what an operation announces as updated is
what it has set or unset, and nothing is left in the queue for the next one.
-/

namespace Legible

open Property

namespace Watcher

variable {watcher first second third before after : Watcher}
  {set set' unset unset' : List Name} {name : Name}

/-! ## Other events -/

/-- Between two states of a watcher no property was announced as set or unset. -/
def Mute (before after : Watcher) : Prop :=
  ∃ events, after.outbox = before.outbox ++ events ∧ Event.updatedIn events = []

theorem mute_of_same (same : after.outbox = before.outbox) : Mute before after :=
  ⟨[], same.trans (List.append_nil _).symm, rfl⟩

theorem Mute.trans (left : Mute first second) (right : Mute second third) : Mute first third := by
  obtain ⟨events, added, mute⟩ := left
  obtain ⟨events', added', mute'⟩ := right
  refine ⟨events ++ events', ?_, ?_⟩
  · rw [added', added, List.append_assoc]
  · rw [Event.updatedIn_append, mute, mute', List.append_nil]

/-- An event of another kind announces nothing as set or unset. -/
theorem mute_announce (watcher : Watcher) {kind : EventKind} (names : List Name)
    (other : kind ≠ .propertiesUpdated) : Mute watcher (watcher.announce kind names) := by
  refine ⟨[⟨kind, names⟩], rfl, Event.updatedIn_of_other fun event listed => ?_⟩
  rw [List.mem_singleton.1 listed]
  exact other

theorem mute_setToken (watcher : Watcher) (path : Token.Path) (value : Json) :
    Mute watcher (watcher.setToken path value) := by
  rw [setToken]
  exact mute_announce _ _ (by decide)

/-- A change to the documents is no change of a property. -/
theorem mute_mutate (watcher : Watcher) (mutation : Mutation) :
    Mute watcher (watcher.mutate mutation) := by
  cases mutation with
  | setToken path value => exact mute_setToken watcher path value
  | deletePalette mode key =>
      rw [mutate, deletePalette]
      split
      · exact mute_of_same rfl
      · exact mute_announce _ _ (by decide)
  | _ => exact mute_of_same rfl

theorem mute_adoptAll (watcher : Watcher) (changed : List Name) :
    Mute watcher (adoptAll watcher changed).watcher :=
  relates_adoptAll (fun _ => mute_of_same rfl) Mute.trans mute_setToken
    (fun _ _ _ => mute_of_same rfl) watcher changed

theorem mute_announcePalettes (watcher : Watcher) : Mute watcher watcher.announcePalettes := by
  rw [announcePalettes_eq]
  refine ⟨_, rfl, Event.updatedIn_of_other fun event listed => ?_⟩
  obtain ⟨palette, -, rfl⟩ := List.mem_map.1 listed
  exact (by decide : EventKind.paletteChanged ≠ .propertiesUpdated)

/-! ## Telling what was done -/

/-- A watcher that has told what it has set and unset: the names are announced in its outbox,
and no event is left in the queue of the store. -/
structure Tells (before : Watcher) (set unset : List Name) (after : Watcher) : Prop where
  changes : before.registry.Changes set unset after.registry
  announced : ∃ events, after.outbox = before.outbox ++ events ∧
    ∀ name, name ∈ Event.updatedIn events ↔ name ∈ set ∨ name ∈ unset
  forwarded : after.store.events = []

theorem Tells.trans (left : Tells first set unset second)
    (right : Tells second set' unset' third) :
    Tells first (set ++ set') (unset ++ unset') third where
  changes := left.changes.trans right.changes
  announced := Event.announced_trans left.announced right.announced
  forwarded := right.forwarded

/-- A watcher that leaves the registry and its store has nothing to tell. -/
theorem tells_nothing (idle : before.store.events = []) (same : after.store = before.store)
    (mute : Mute before after) : Tells before [] [] after := by
  obtain ⟨events, added, silent⟩ := mute
  refine ⟨?_, ⟨events, added, fun name => by simp [silent]⟩, same ▸ idle⟩
  rw [registry, registry, same]
  exact Registry.changes_refl _

/-- What was done through the store is told by putting its events into the outbox, after
other ones. -/
theorem tells_forwarded {written : Store} {middle : Watcher} (idle : before.store.events = [])
    (announces : before.store.Announces set unset written) (mute : Mute before middle)
    (store : after.store = { written with events := [] })
    (outbox : after.outbox = middle.outbox ++ written.events) :
    Tells before set unset after := by
  obtain ⟨queued, listed, names⟩ := announces.announced
  obtain ⟨events, added, silent⟩ := mute
  rw [idle, List.nil_append] at listed
  refine ⟨?_, ⟨events ++ queued, ?_, fun name => ?_⟩, congrArg Store.events store⟩
  · rw [registry, registry, store]
    exact announces.changes
  · rw [outbox, added, listed, List.append_assoc]
  · rw [Event.updatedIn_append, silent, List.nil_append, names]

/-! ## The operations -/

/-- Writing the map tells what it applies. -/
theorem tells_writeMap (idle : watcher.store.events = []) :
    Tells watcher watcher.writeMap.2.applied [] watcher.writeMap.1 :=
  tells_forwarded idle (watcher.store.announces_applyValues _ _) (mute_of_same rfl) rfl rfl

/-- A fix pass tells what it writes again. -/
theorem exists_tells_runFix (idle : watcher.store.events = []) (issues : List Issue) :
    ∃ set, Tells watcher set [] (watcher.runFix issues).1 :=
  ⟨_, tells_forwarded idle (watcher.store.announces_applyValues _ _) (mute_of_same rfl) rfl rfl⟩

theorem exists_tells_validate (idle : watcher.store.events = []) (now : Nat) :
    ∃ set, Tells watcher set [] (watcher.validate now).1 := by
  rcases watcher.validate_cases now with unchanged | ⟨guard, issues, fixed, -⟩
  · rw [unchanged]
    exact ⟨[], tells_nothing idle rfl (mute_of_same rfl)⟩
  · obtain ⟨set, tells⟩ := @exists_tells_runFix { watcher with guard } idle issues
    rw [fixed]
    exact ⟨set, tells.changes, tells.announced, tells.forwarded⟩

/-- Attaching tells what it applies, and then what it fixes. -/
theorem exists_tells_attach (idle : watcher.store.events = []) (now : Nat) :
    ∃ set, Tells watcher set [] (watcher.attach now).1 := by
  have written := tells_writeMap idle
  rw [attach_eq]
  generalize watcher.writeMap = made at written ⊢
  split
  · exact ⟨_, written⟩
  · obtain ⟨set, tells⟩ := exists_tells_validate written.forwarded now
    exact ⟨_, written.trans tells⟩

/-- A live write tells its property, unless it is refused. -/
theorem exists_tells_writeLive (idle : watcher.store.events = []) (name : Name) (text : String) :
    ∃ set, Tells watcher set [] (watcher.operate (.writeLive name text)) := by
  rcases watcher.operate_writeLive_cases name text with
    unchanged | ⟨store, verdict, written, noted⟩
  · rw [unchanged]
    exact ⟨[], tells_nothing idle rfl (mute_of_same rfl)⟩
  · rw [noted]
    exact ⟨[name], tells_forwarded idle (Store.announces_write written) (mute_of_same rfl) rfl rfl⟩

/-- Settling announces palettes, and then what was carried out. -/
theorem tells_settle {folded : Watcher} {store : Store} (idle : watcher.store.events = [])
    (announces : watcher.store.Announces set unset store) (mute : Mute watcher folded)
    (computation : Computation) (graph : DependencyGraph) (recomputed : Bool)
    (seen : List Name) :
    Tells watcher set unset
      ({ folded with store }.settle computation graph recomputed seen) := by
  let settled : Watcher :=
    { folded with
      store
      current := computation
      graph
      pending := .empty
      guard := if recomputed then folded.guard.reset else folded.guard }
  have announced : Mute folded settled.announcePalettes := settled.mute_announcePalettes
  refine tells_forwarded idle announces (mute.trans announced) ?_ ?_
  all_goals
    rw [settle]
    dsimp only
    rw [announcePalettes_eq]
    rfl

/-- A flush tells what it reports as written and as removed. -/
theorem exists_tells_flush (idle : watcher.store.events = []) :
    ∃ set unset, Tells watcher set unset watcher.flush.1 := by
  rcases watcher.flush_cases with ⟨-, unchanged, -⟩ | ⟨-, -, made, -⟩
  · rw [unchanged]
    exact ⟨[], [], tells_nothing idle rfl (mute_of_same rfl)⟩
  · have announces := watcher.decideFlush.carriedOut_carryOut.announced
    rw [(folds_decideFlush watcher).store] at announces
    have folded : Mute watcher watcher.decideFlush.folded := by
      rw [folded_decideFlush]
      exact mute_adoptAll { watcher with liveRoots := ∅ } watcher.decideFlush.changed
    rw [made, runFlush]
    generalize watcher.decideFlush = decision at announces folded ⊢
    exact ⟨_, _, tells_settle idle announces folded _ _ _ _⟩

theorem exists_tells_check (idle : watcher.store.events = []) :
    ∃ set unset, Tells watcher set unset watcher.check.1 := by
  rcases watcher.check_cases with unchanged | flushed | ⟨roots, noted⟩
  · rw [unchanged]
    exact ⟨[], [], tells_nothing idle rfl (mute_of_same rfl)⟩
  · rw [flushed]
    exact exists_tells_flush idle
  · obtain ⟨set, unset, tells⟩ :=
      @exists_tells_flush ({ watcher with liveRoots := roots }.note .live) idle
    rw [noted]
    exact ⟨set, unset, tells.changes, tells.announced, tells.forwarded⟩

/-- Every operation of a watcher tells what it sets and unsets, but for the one that hands
its events out. -/
theorem exists_tells_operate (idle : watcher.store.events = []) {operation : Operation}
    (own : operation.IsOwn) (collecting : operation ≠ .takeEvents) :
    ∃ set unset, Tells watcher set unset (watcher.operate operation) := by
  cases operation with
  | mutate mutation =>
      have same : (watcher.mutate mutation).store = watcher.store := by
        rcases watcher.mutate_cases mutation with unchanged | stale
        · rw [unchanged]
        · exact stale.store
      exact ⟨[], [], tells_nothing idle same (mute_mutate watcher mutation)⟩
  | attach now =>
      obtain ⟨set, tells⟩ := exists_tells_attach idle now
      exact ⟨set, [], tells⟩
  | writeLive name text =>
      obtain ⟨set, tells⟩ := exists_tells_writeLive idle name text
      exact ⟨set, [], tells⟩
  | flush => exact exists_tells_flush idle
  | check => exact exists_tells_check idle
  | validate now =>
      obtain ⟨set, tells⟩ := exists_tells_validate idle now
      exact ⟨set, [], tells⟩
  | takeEvents => exact absurd rfl collecting
  | setOutside name text => exact own.elim
  | unsetOutside name => exact own.elim
  | _ => exact ⟨[], [], tells_nothing idle rfl (mute_of_same rfl)⟩

/-- Between two operations no event waits in the queue of the store. -/
theorem Reachable.events_eq_nil (reachable : watcher.Reachable) : watcher.store.events = [] := by
  refine @Reachable.invariant (fun watcher => watcher.store.events = []) (fun _ _ => rfl)
    (fun watcher operation idle => ?_) _ reachable
  have told (own : operation.IsOwn) (collecting : operation ≠ .takeEvents) :
      (watcher.operate operation).store.events = [] := by
    obtain ⟨set, unset, tells⟩ := exists_tells_operate idle own collecting
    exact tells.forwarded
  cases operation with
  | setOutside name text => exact idle
  | unsetOutside name => exact idle
  | takeEvents => exact idle
  | _ => exact told trivial nofun

/-- Whatever is done with a watcher in a run, the properties that it sets or unsets are the
ones that the events which it adds to its outbox announce as updated, and none of its events
waits for the next operation. A live write that is refused leaves the whole watcher as it is. -/
theorem announced_of_operate (reachable : watcher.Reachable) {operation : Operation}
    (own : operation.IsOwn) (collecting : operation ≠ .takeEvents) :
    (∃ events, (watcher.operate operation).outbox = watcher.outbox ++ events ∧
        ∀ name, watcher.registry.Touched (watcher.operate operation).registry name ↔
          ∃ event ∈ events, event.kind = .propertiesUpdated ∧ name ∈ event.names) ∧
      (watcher.operate operation).store.events = [] ∧
      ∀ name text error, operation = .writeLive name text →
        watcher.writeLive name text = .error error → watcher.operate operation = watcher := by
  obtain ⟨set, unset, tells⟩ := exists_tells_operate reachable.events_eq_nil own collecting
  obtain ⟨events, added, names⟩ := tells.announced
  refine ⟨⟨events, added, fun name => ?_⟩, tells.forwarded, ?_⟩
  · rw [tells.changes.touched_iff, ← names, Event.mem_updatedIn]
  · rintro name text error rfl refused
    rw [operate, refused]

/-- A palette is deleted. The next flush unsets its tone, which is announced, and a live
write of a color that is no token is refused. -/
theorem announced_of_operate_accent :
    ∃ watcher : Watcher, watcher.Reachable ∧
      (∃ events, (watcher.operate .flush).outbox = watcher.outbox ++ events ∧
        ∃ event ∈ events, event.kind = .propertiesUpdated ∧ Sample.accent ∈ event.names) ∧
      (watcher.operate .flush).store.events = [] ∧
      (∃ error, watcher.writeLive Sample.accent "red" = .error error) ∧
      watcher.operate (.writeLive Sample.accent "red") = watcher := by
  have facts : (fun watcher : Watcher =>
      watcher.registry.contains Sample.accent = true ∧
        (watcher.operate .flush).registry.contains Sample.accent = false ∧
        (watcher.writeLive Sample.accent "red").toBool = false)
      (Sample.attached Sample.accented [.mutate (.deletePalette .light "accent")]) := by
    decide +kernel
  have reachable := Sample.reachable_attached Sample.accented
    [.mutate (.deletePalette .light "accent")]
  generalize Sample.attached Sample.accented _ = watcher at facts reachable
  obtain ⟨wasSet, isUnset, refused⟩ := facts
  obtain ⟨⟨events, added, touched⟩, forwarded, -⟩ :=
    @announced_of_operate watcher reachable .flush trivial nofun
  have unchanged := (@announced_of_operate watcher reachable (.writeLive Sample.accent "red")
    trivial nofun).2.2
  cases failed : watcher.writeLive Sample.accent "red" with
  | ok done =>
      rw [failed] at refused
      cases refused
  | error error =>
      exact ⟨watcher, reachable, ⟨events, added, (touched _).1 (.inr ⟨wasSet, isUnset⟩)⟩,
        forwarded, ⟨error, failed⟩, unchanged _ _ error rfl failed⟩

end Watcher

end Legible
