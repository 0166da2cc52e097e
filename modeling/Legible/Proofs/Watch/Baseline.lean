import Legible.Proofs.Watch.Treated

/-!
# What a watcher knows of a property

Of each property a watcher knows the live text that it saw last, and whether a change of
it was noted. From one pass to the next almost everything leaves that and the live text
as they are. A watch, an attachment and a fix pass that cover the property take its text
of then as seen, and the last two write it as well.
-/

namespace Legible

open Property

namespace Interest

variable {interest : Interest} {map : PropertyMap} {registry : Registry} {name : Name}

/-- What was remembered is the live text of then, and the rest stays as it was. -/
theorem baseline?_remember (interest : Interest) (registry : Registry) (names : List Name)
    (name : Name) :
    (interest.remember registry names).baseline? name =
      if name ∈ names then some (registry.get? name) else interest.baseline? name := by
  have rememberLast (names : List Name) (last : Name) :
      (interest.remember registry (names ++ [last])).baselines =
        (interest.remember registry names).baselines.insert last (registry.get? last) := by
    rw [remember, List.foldl_append]
    rfl
  induction names using List.reverseRecOn with
  | nil => rfl
  | append_singleton names last inductionHypothesis =>
      rw [baseline?] at inductionHypothesis
      rw [baseline?, rememberLast, Std.TreeMap.getElem?_insert, inductionHypothesis]
      by_cases same : last = name
      · simp [same]
      · simp [same, Ne.symm same]

/-- Adding a target leaves the texts that were seen. -/
theorem baseline?_insert (interest : Interest) (target : WatchTarget) (name : Name) :
    (interest.insert target).1.baseline? name = interest.baseline? name := by
  rw [insert]
  split <;> rfl

/-- A watched property has changed when it shows another text than was seen last. -/
theorem mem_changed {last : Option String} (covered : name ∈ interest.names map)
    (seen : interest.baseline? name = some last) (other : last ≠ registry.get? name) :
    name ∈ interest.changed map registry := by
  refine List.mem_filter.2 ⟨Std.TreeSet.mem_toList.2 covered, ?_⟩
  rw [seen]
  simpa using other

end Interest

namespace Watcher

variable {watcher : Watcher} {name : Name}

/-- What a later state keeps of an earlier one about a property: the map, its live text
and the text that was seen last, and what was noted. -/
structure Keeps (first second : Watcher) (name : Name) : Prop where
  current : second.current = first.current
  live : second.registry.get? name = first.registry.get? name
  baseline : second.interest.baseline? name = first.interest.baseline? name
  root : name ∈ first.liveRoots → name ∈ second.liveRoots
  pending : first.pending.isEmpty = false → second.pending.isEmpty = false

theorem keeps_refl (watcher : Watcher) (name : Name) : watcher.Keeps watcher name :=
  ⟨rfl, rfl, rfl, id, id⟩

theorem Keeps.trans {first second third : Watcher} (left : first.Keeps second name)
    (right : second.Keeps third name) : first.Keeps third name where
  current := right.current.trans left.current
  live := right.live.trans left.live
  baseline := right.baseline.trans left.baseline
  root := right.root ∘ left.root
  pending := right.pending ∘ left.pending

/-- Whether the live text is another one than was seen last is a matter of what is kept. -/
theorem Keeps.liveDiffers {first second : Watcher} (keeps : first.Keeps second name) :
    second.liveDiffers name = first.liveDiffers name := by
  have live : second.store.get? name = first.store.get? name := keeps.live
  rw [Watcher.liveDiffers, Watcher.liveDiffers, live, keeps.baseline, keeps.current]

theorem Keeps.idle {first second after : Watcher} (keeps : first.Keeps second name)
    (idle : second.Idle after name) : first.Idle after name := by
  rw [Idle, keeps.current, keeps.live] at idle
  exact idle

/-- A change of the documents leaves what is known until the map is computed again. -/
theorem Stale.keeps {first second : Watcher} (stale : Stale first second) (name : Name) :
    first.Keeps second name where
  current := stale.current
  live := by
    rw [registry, stale.store]
    rfl
  baseline := by rw [stale.interest]
  root := by
    rw [stale.liveRoots]
    exact id
  pending _ := by
    cases empty : second.pending.isEmpty with
    | false => rfl
    | true =>
        have steady := Pending.needsRecompute_of_isEmpty empty
        rw [stale.pending] at steady
        cases steady

/-! ## Fix passes -/

/-- A fix pass is about the properties with issues and their backgrounds. -/
theorem mem_fixTargets {map : PropertyMap} {issues : List Issue} :
    name ∈ fixTargets map issues ↔ ∃ issue ∈ issues,
      Name.ofText issue.locus = name ∨ map.background? (Name.ofText issue.locus) = some name := by
  rw [fixTargets, Std.TreeSet.mem_ofList, List.contains_iff_mem, List.mem_flatMap]
  refine exists_congr fun issue => and_congr_right fun _ => ?_
  rw [List.mem_cons, Option.mem_toList, eq_comm]

/-- A fix pass leaves what it is not about. -/
theorem keeps_runFix {issues : List Issue} (spared : name ∉ fixTargets watcher.current.map issues) :
    watcher.Keeps (watcher.runFix issues).1 name := by
  have untargeted : name ∉ (fixTargets watcher.current.map issues).toList := fun listed =>
    spared (Std.TreeSet.mem_toList.1 listed)
  refine ⟨rfl, ?_, ?_, id, id⟩
  · refine Store.get?_applyValues_of_absent fun value listed => untargeted ?_
    obtain ⟨target, member, given⟩ := List.mem_filterMap.1 listed
    obtain ⟨value', -, equal⟩ := Option.map_eq_some_iff.1 given
    rw [← (Prod.mk.inj equal).1]
    exact member
  · exact (Interest.baseline?_remember _ _ _ _).trans (if_neg untargeted)

/-- A validation changes nothing, or makes a fix pass for issues that it reports as fixed
or given up. -/
theorem validate_cases (watcher : Watcher) (now : Nat) :
    (watcher.validate now).1 = watcher ∨
      ∃ guard issues, (watcher.validate now).1 = ({ watcher with guard }.runFix issues).1 ∧
        ∀ issue ∈ issues, Name.ofText issue.locus ∈
          (watcher.validate now).2.fixed ++ (watcher.validate now).2.gaveUp := by
  rw [validate]
  dsimp only
  split
  · exact .inl rfl
  · split
    · next guard _ _ =>
        refine .inr ⟨guard, _, rfl, fun issue listed => ?_⟩
        rw [← List.map_append]
        exact List.mem_map_of_mem (List.mem_append.2 (List.mem_partition.1 listed).symm)
    · exact .inl rfl

/-! ## Operations -/

/-- Whether an operation leaves a property alone: nobody writes it, no watch, attachment
or fix pass covers it, and no pass is made. -/
def Spares (watcher : Watcher) (name : Name) : Operation → Prop
  | .watch target => name ∉ target.expand watcher.current.map
  | .attach _ => False
  | .writeLive other _ | .setOutside other _ | .unsetOutside other => other ≠ name
  | .validate now => ∀ failing ∈ (watcher.validate now).2.fixed ++ (watcher.validate now).2.gaveUp,
      failing ≠ name ∧ watcher.current.map.background? failing ≠ some name
  | .flush => watcher.isEnabled = false ∨ watcher.pending.isEmpty = true
  | .check => watcher.isEnabled = false
  | _ => True

/-- A validation whose fix pass is not about a property leaves it alone. -/
theorem keeps_validate {now : Nat} (spared : watcher.Spares name (.validate now)) :
    watcher.Keeps (watcher.validate now).1 name := by
  rcases watcher.validate_cases now with unchanged | ⟨guard, issues, fixed, reported⟩
  · rw [unchanged]
    exact keeps_refl watcher name
  · rw [fixed]
    have guarded : watcher.Keeps { watcher with guard } name := ⟨rfl, rfl, rfl, id, id⟩
    refine guarded.trans (keeps_runFix fun targeted => ?_)
    obtain ⟨issue, listed, about⟩ := mem_fixTargets.1 targeted
    obtain ⟨other, apart⟩ := spared _ (reported issue listed)
    exact about.elim other apart

/-- A live write goes through the store and is noted. -/
theorem exists_write_of_writeLive {written : Watcher} {other : Name} {text : String}
    {verdict : Verdict} (ok : watcher.writeLive other text = .ok (written, verdict)) :
    ∃ store, watcher.store.write other text watcher.configuration.index = .ok (store, verdict) ∧
      written = { { watcher with store }.forwardEvents with
        liveRoots := watcher.liveRoots.insert other }.note .live := by
  rw [writeLive] at ok
  split at ok
  · cases ok
  · next store verdict put =>
      cases ok
      exact ⟨store, put, rfl⟩

/-- A live write that is refused changes nothing; any other goes through the store and is
noted. -/
theorem operate_writeLive_cases (watcher : Watcher) (other : Name) (text : String) :
    watcher.operate (.writeLive other text) = watcher ∨
      ∃ store verdict,
        watcher.store.write other text watcher.configuration.index = .ok (store, verdict) ∧
        watcher.operate (.writeLive other text) =
          { { watcher with store }.forwardEvents with
            liveRoots := watcher.liveRoots.insert other }.note .live := by
  rw [operate]
  cases ok : watcher.writeLive other text with
  | error error => exact .inl rfl
  | ok done =>
      obtain ⟨written, verdict⟩ := done
      obtain ⟨store, put, own⟩ := exists_write_of_writeLive ok
      exact .inr ⟨store, verdict, put, own⟩

/-- An operation that spares a property leaves what is known of it. -/
theorem keeps_operate {operation : Operation} (spared : watcher.Spares name operation) :
    watcher.Keeps (watcher.operate operation) name := by
  cases operation with
  | mutate mutation =>
      rw [operate]
      rcases watcher.mutate_cases mutation with unchanged | stale
      · rw [unchanged]
        exact keeps_refl watcher name
      · exact stale.keeps name
  | watch target =>
      refine ⟨rfl, rfl, ?_, id, id⟩
      refine (Interest.baseline?_insert _ _ _).trans ?_
      rw [Interest.baseline?_remember, if_neg spared]
  | unwatch target => exact ⟨rfl, rfl, rfl, id, id⟩
  | attach now => exact spared.elim
  | notify event =>
      refine ⟨rfl, rfl, rfl, fun member => ?_, fun _ => Pending.isEmpty_insert _ _⟩
      exact Std.TreeSet.mem_insertMany_list.2 (.inl member)
  | writeLive other text =>
      rcases watcher.operate_writeLive_cases other text with
        unchanged | ⟨store, verdict, put, written⟩
      · rw [unchanged]
        exact keeps_refl watcher name
      · rw [written]
        have live := Store.get?_write_of_ne put spared
        refine ⟨rfl, live, rfl, fun member => ?_, fun _ => Pending.isEmpty_insert _ _⟩
        exact Std.TreeSet.mem_insert.2 (.inr member)
  | flush =>
      rw [operate]
      rcases watcher.flush_cases with ⟨-, unchanged, -⟩ | ⟨isEnabled, isPending, -, -⟩
      · rw [unchanged]
        exact keeps_refl watcher name
      · rcases spared with disabled | nothing
        · rw [isEnabled] at disabled
          cases disabled
        · rw [isPending] at nothing
          cases nothing
  | check =>
      have disabled : watcher.isEnabled = false := spared
      rw [operate, check_eq, disabled]
      exact keeps_refl watcher name
  | validate now => exact keeps_validate spared
  | enable => exact ⟨rfl, rfl, rfl, id, id⟩
  | disable => exact ⟨rfl, rfl, rfl, id, id⟩
  | takeEvents => exact ⟨rfl, rfl, rfl, id, id⟩
  | setOutside other text =>
      exact ⟨rfl, Registry.get?_set_of_ne _ _ spared, rfl, id, id⟩
  | unsetOutside other => exact ⟨rfl, Registry.get?_erase_of_ne _ spared, rfl, id, id⟩

/-! ## Checks -/

/-- A check that runs is a flush of the watcher with the changes of watched properties
noted. -/
structure Noticed (watcher noticed : Watcher) : Prop where
  check : watcher.check = noticed.flush
  documents : SameDocuments watcher noticed
  keeps : ∀ name, watcher.Keeps noticed name
  isEnabled : noticed.isEnabled = true
  unchanged : noticed.pending.isEmpty = true → noticed = watcher
  root : ∀ name ∈ watcher.interest.changed watcher.current.map watcher.registry,
    name ∈ noticed.liveRoots ∧ noticed.pending.isEmpty = false

theorem exists_noticed (isEnabled : watcher.isEnabled = true) :
    ∃ noticed, watcher.Noticed noticed := by
  have shape := watcher.check_eq
  rw [isEnabled, Bool.not_true, if_neg Bool.false_ne_true] at shape
  generalize changed : watcher.interest.changed watcher.current.map watcher.registry = names
    at shape
  by_cases none : names.isEmpty = true
  · rw [if_pos none] at shape
    refine ⟨watcher, shape, sameDocuments_refl watcher, keeps_refl watcher, isEnabled,
      fun _ => rfl, fun name listed => ?_⟩
    rw [changed, List.isEmpty_iff.1 none] at listed
    cases listed
  · rw [if_neg none] at shape
    refine ⟨_, shape, ⟨rfl, rfl, rfl, Pending.needsRecompute_insert_live watcher.pending⟩,
      fun name => ⟨rfl, rfl, rfl, fun member => ?_, fun _ => Pending.isEmpty_insert _ _⟩, rfl,
      fun empty => ?_, fun name listed => ⟨?_, Pending.isEmpty_insert _ _⟩⟩
    · exact Std.TreeSet.mem_insertMany_list.2 (.inl member)
    · rw [note, Pending.isEmpty_insert] at empty
      cases empty
    · rw [changed] at listed
      exact Std.TreeSet.mem_insertMany_list.2 (.inr (List.contains_iff_mem.2 listed))

/-! ## Runs -/

/-- What holds of each operation of a run, in the state in which it is done. -/
def Throughout (holds : Watcher → Operation → Prop) : Watcher → List Operation → Prop
  | _, [] => True
  | watcher, operation :: rest =>
      holds watcher operation ∧ Throughout holds (watcher.operate operation) rest

/-- A run that spares a property leaves what is known of it. -/
theorem keeps_run {operations : List Operation}
    (spared : Throughout (fun watcher => watcher.Spares name) watcher operations) :
    watcher.Keeps (operations.foldl operate watcher) name := by
  induction operations generalizing watcher with
  | nil => exact keeps_refl watcher name
  | cons operation rest inductionHypothesis =>
      exact (keeps_operate spared.1).trans (inductionHypothesis spared.2)

/-- The report of an operation that flushes. -/
def report? (watcher : Watcher) : Operation → Option FlushReport
  | .flush => watcher.flush.2
  | .check => watcher.check.2
  | _ => none

/-- The reports of a run, each with the watcher that the flush leaves. -/
def passes (watcher : Watcher) : List Operation → List (FlushReport × Watcher)
  | [] => []
  | operation :: rest =>
      ((watcher.report? operation).map fun report => (report, watcher.operate operation)).toList ++
        (watcher.operate operation).passes rest

theorem Tracks.run (tracks : watcher.Tracks) (operations : List Operation) :
    (operations.foldl Watcher.operate watcher).Tracks := by
  induction operations generalizing watcher with
  | nil => exact tracks
  | cons operation rest inductionHypothesis => exact inductionHypothesis (tracks.operate operation)

end Watcher

end Legible
