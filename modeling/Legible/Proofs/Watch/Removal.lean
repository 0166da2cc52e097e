import Legible.Proofs.Watch.Treated

/-!
# What has left the map

A flush unsets whatever the map held before and holds no longer, and writes nothing that
the next map does not hold. There is one exception. A palette tone that was changed live
is kept without a look at the next map, and its on-tone is written: where the palette is
gone by then, both stay behind.
-/

namespace Legible

open Property

namespace Watcher

variable {watcher : Watcher} {report : FlushReport} {state : Store × FlushReport} {name : Name}

/-- Every live palette tone that a flush keeps is still in the map. -/
def KeepsHeldTones (watcher : Watcher) : Prop :=
  ∀ tone ∈ watcher.decideFlush.tones.kept, watcher.decideFlush.next.map.contains tone = true

/-- What the tone plan has settled is in the map if the tones that it keeps are. -/
theorem contains_of_handled (tracks : watcher.Tracks) (held : watcher.KeepsHeldTones)
    (handled : name ∈ watcher.decideFlush.tones.handled) :
    watcher.decideFlush.next.map.contains name = true := by
  rcases handled_cases tracks handled with tone | ⟨mode, key, level, rfl, kept, anchors⟩
  · exact held name tone
  · have present := held _ kept
    rw [tracks.next, PropertyMap.contains_iff] at present ⊢
    obtain ⟨value, holds⟩ := present
    exact Configuration.exists_onTone_of_tone holds anchors

/-- Nothing is written that the next map does not hold. -/
theorem contains_of_mem_writes (tracks : watcher.Tracks) (held : watcher.KeepsHeldTones)
    (written : name ∈ watcher.decideFlush.writes.map Prod.fst) :
    watcher.decideFlush.next.map.contains name = true := by
  rcases FlushDecision.mem_writes.1 written with onTone | ⟨value, planned⟩
  · exact contains_of_handled tracks held (List.mem_append_left _ onTone)
  · rw [PropertyMap.contains_iff]
    exact ⟨value, value?_of_action_write (FlushDecision.mem_actions.1 planned).2.2⟩

/-- Nothing is contested that the next map does not hold. -/
theorem contains_of_contest {contest : Contest}
    (listed : contest ∈ watcher.decideFlush.plan.contests) :
    watcher.decideFlush.next.map.contains contest.name = true := by
  rw [PropertyMap.contains_iff]
  exact ⟨contest.generated, (value?_of_action_contest
    (FlushDecision.mem_actions.1 (FlushPlan.mem_contests.1 listed)).2.2).1⟩

/-- What is not in the next map is unset if it was in the map before, and otherwise left
alone. -/
theorem mem_unset_iff_of_left (tracks : watcher.Tracks) (held : watcher.KeepsHeldTones)
    (left : watcher.decideFlush.next.map.contains name = false) :
    (name, Action.unset) ∈ watcher.decideFlush.actions ↔
      watcher.current.map.contains name = true := by
  have action : watcher.decideFlush.folded.action watcher.decideFlush.next.map
      watcher.decideFlush.forced name =
        if watcher.current.map.contains name then .unset else .leave := by
    rw [Watcher.action, (PropertyMap.contains_eq_false_iff _ _).1 left,
      (folds_decideFlush watcher).current]
  constructor
  · intro planned
    have unset := (FlushDecision.mem_actions.1 planned).2.2
    rw [action] at unset
    split at unset
    · next before => exact before
    · cases unset
  · intro before
    refine FlushDecision.mem_actions.2 ⟨?_, fun handled => ?_, by rw [action, if_pos before]⟩
    · rw [affected_decideFlush, Std.TreeSet.mem_toList]
      refine DependencyGraph.mem_affected_of_root
        (List.mem_append_left _ (List.mem_append_right _ ?_))
      rw [PropertyMap.mem_removed]
      exact ⟨(PropertyMap.contains_iff _ _).1 before,
        (PropertyMap.contains_eq_false_iff _ _).1 left⟩
    · rw [contains_of_handled tracks held handled] at left
      cases left

/-- What is not in the next map shows nothing after a pass if it was in the map before,
and otherwise what it showed. -/
theorem Outcome.get?_of_left (tracks : watcher.Tracks) (outcome : watcher.Outcome report state)
    (held : watcher.KeepsHeldTones)
    (left : watcher.flush.1.current.map.contains name = false) :
    watcher.flush.1.registry.get? name =
      if watcher.current.map.contains name then none else watcher.registry.get? name := by
  rw [outcome.current] at left
  have uncontested (contest : Contest)
      (listed : contest ∈ watcher.decideFlush.plan.contests) : contest.name ≠ name := by
    rintro rfl
    rw [contains_of_contest listed] at left
    cases left
  have unwritten : name ∉ watcher.decideFlush.writes.map Prod.fst := fun written => by
    rw [contains_of_mem_writes tracks held written] at left
    cases left
  rw [outcome.get?_of_uncontested tracks uncontested, outcome.applied.get?_of_unwritten unwritten,
    (folds_decideFlush watcher).store]
  exact if_congr (mem_unset_iff_of_left tracks held left) rfl rfl

/-- After a flush whatever has left the map is unset, and everything that the flush has
written is in the map, as long as the live palette tones that it keeps are. -/
theorem unset_of_left (reachable : watcher.Reachable) (flushed : watcher.flush.2 = some report)
    (held : watcher.KeepsHeldTones) :
    (∀ name, watcher.flush.1.current.map.contains name = false →
        watcher.flush.1.registry.get? name =
          if watcher.current.map.contains name then none else watcher.registry.get? name) ∧
      ∀ name ∈ report.written, watcher.flush.1.current.map.contains name = true := by
  have tracks := reachable.tracks
  rcases watcher.flush_cases with ⟨-, unchanged, nothing⟩ | ⟨-, -, made, reported⟩
  · refine ⟨fun name left => ?_, fun name written => ?_⟩
    · rw [unchanged] at left ⊢
      rw [left]
      rfl
    · rw [nothing report flushed] at written
      cases written
  · obtain ⟨state, outcome⟩ := outcome_of_pass tracks flushed made reported
    refine ⟨fun name => outcome.get?_of_left tracks held, fun name written => ?_⟩
    rw [outcome.current]
    rcases outcome.written_cases tracks written with before | ⟨contest, listed, rfl⟩
    · exact contains_of_mem_writes tracks held before
    · exact contains_of_contest listed

/-- The tones of a palette that was deleted are unset. -/
theorem unset_of_left_accent :
    ∃ watcher : Watcher, ∃ report : FlushReport, watcher.Reachable ∧
      watcher.flush.2 = some report ∧ watcher.KeepsHeldTones ∧
      watcher.registry.get? Sample.accent ≠ none ∧
      watcher.flush.1.current.map.contains Sample.accent = false ∧
      watcher.flush.1.registry.get? Sample.accent = none ∧
      ∀ name ∈ report.written, watcher.flush.1.current.map.contains name = true := by
  have facts : (fun watcher : Watcher =>
      watcher.flush.2.isSome = true ∧ watcher.decideFlush.tones.kept = [] ∧
        watcher.registry.get? Sample.accent ≠ none ∧
        watcher.current.map.contains Sample.accent = true ∧
        watcher.flush.1.current.map.contains Sample.accent = false)
      (Sample.attached Sample.accented [.mutate (.deletePalette .light "accent")]) := by
    decide +kernel
  have reachable := Sample.reachable_attached Sample.accented
    [.mutate (.deletePalette .light "accent")]
  generalize Sample.attached Sample.accented _ = watcher at facts reachable
  obtain ⟨reported, noTones, shown, before, left⟩ := facts
  obtain ⟨report, flushed⟩ := Option.isSome_iff_exists.1 reported
  have held : watcher.KeepsHeldTones := fun tone kept => by
    rw [noTones] at kept
    cases kept
  obtain ⟨unset, written⟩ := unset_of_left reachable flushed held
  refine ⟨watcher, report, reachable, flushed, held, shown, left, ?_, written⟩
  rw [unset Sample.accent left, if_pos before]

/-- A palette tone was set to black, and its palette deleted. The flush keeps the tone and
writes its on-tone, although neither is in the map. -/
theorem live_of_left_accent :
    ∃ watcher : Watcher, ∃ report : FlushReport, watcher.Reachable ∧ watcher.isAttached = true ∧
      watcher.flush.2 = some report ∧
      watcher.current.map.contains Sample.accent = true ∧
      watcher.flush.1.current.map.contains Sample.accent = false ∧
      watcher.flush.1.registry.get? Sample.accent ≠ none ∧
      Sample.onAccent ∈ report.written ∧ Sample.onAccent.tier = .brand ∧
      watcher.flush.1.current.map.contains Sample.onAccent = false := by
  have facts : (fun watcher : Watcher =>
      watcher.isAttached = true ∧
        watcher.flush.2.map FlushReport.written = some [Sample.onAccent] ∧
        watcher.current.map.contains Sample.accent = true ∧
        watcher.flush.1.current.map.contains Sample.accent = false ∧
        watcher.flush.1.registry.get? Sample.accent ≠ none ∧
        watcher.flush.1.current.map.contains Sample.onAccent = false)
      (Sample.attached Sample.accented
        [.writeLive Sample.accent "var(--tokens-color-gray-900)",
          .mutate (.deletePalette .light "accent")]) := by
    decide +kernel
  have reachable := Sample.reachable_attached Sample.accented
    [.writeLive Sample.accent "var(--tokens-color-gray-900)",
      .mutate (.deletePalette .light "accent")]
  generalize Sample.attached Sample.accented _ = watcher at facts reachable
  obtain ⟨isAttached, reported, before, left, stays, onLeft⟩ := facts
  obtain ⟨report, flushed, writtenIs⟩ := Option.map_eq_some_iff.1 reported
  refine ⟨watcher, report, reachable, isAttached, flushed, before, left, stays, ?_, by decide,
    onLeft⟩
  rw [writtenIs]
  exact List.mem_cons_self

end Watcher

end Legible
