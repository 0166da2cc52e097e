import Legible.Proofs.Theme.Bound
import Legible.Proofs.Watch.Outcome

/-!
# What a flush looks at

A flush that makes its pass looks at the roots of the pass and at everything that depends
on them. Each of these properties is treated: the report says that it was folded back,
written, unset, kept or replaced. The only exception is a property that is in neither map,
or has left the map and is not set, where there is nothing to do.
-/

namespace Legible

open Property

/-- Whether a report says what became of a property. -/
def FlushReport.Treats (report : FlushReport) (name : Name) : Prop :=
  name ∈ report.adopted ∨ name ∈ report.written ∨ name ∈ report.removed ∨ name ∈ report.kept ∨
    name ∈ report.replaced

instance (report : FlushReport) (name : Name) : Decidable (report.Treats name) :=
  inferInstanceAs (Decidable (_ ∨ _ ∨ _ ∨ _ ∨ _))

namespace Watcher

variable {watcher : Watcher} {report : FlushReport} {name : Name}

/-- A flush would make its pass, and look at a property in it. -/
structure LooksAt (watcher : Watcher) (name : Name) : Prop where
  isEnabled : watcher.isEnabled = true
  isPending : watcher.pending.isEmpty = false
  affected : name ∈ watcher.decideFlush.affected

/-- There is nothing to do about a property between two states: the later map does not
hold it, and in the earlier state it was not in the map or not set. -/
def Idle (before after : Watcher) (name : Name) : Prop :=
  after.current.map.contains name = false ∧
    (before.current.map.contains name = false ∨ before.registry.get? name = none)

/-- A flush that looks at a property makes its pass. -/
theorem LooksAt.pass (looks : watcher.LooksAt name) :
    watcher.flush.1 = watcher.runFlush.1 ∧ watcher.flush.2 = some watcher.runFlush.2 := by
  rcases watcher.flush_cases with ⟨disabled | nothing, -, -⟩ | ⟨-, -, made, reported⟩
  · rw [looks.isEnabled] at disabled
    cases disabled
  · rw [looks.isPending] at nothing
    cases nothing
  · exact ⟨made, reported⟩

/-- What is reported is what the pass has done. -/
theorem LooksAt.outcome (looks : watcher.LooksAt name) (tracks : watcher.Tracks)
    (flushed : watcher.flush.2 = some report) : ∃ state, watcher.Outcome report state :=
  outcome_of_pass tracks flushed looks.pass.1 looks.pass.2

/-- A flush looks at the noted properties whose live text moved since it was last seen. -/
theorem looksAt_of_root (isEnabled : watcher.isEnabled = true)
    (isPending : watcher.pending.isEmpty = false) (root : name ∈ watcher.liveRoots)
    (moved : watcher.liveDiffers name = true) : watcher.LooksAt name := by
  refine ⟨isEnabled, isPending, mem_affected_of_root (List.mem_append_right _ ?_)⟩
  rw [changed_decideFlush]
  exact List.mem_filter.2 ⟨Std.TreeSet.mem_toList.2 root, moved⟩

/-- What the tone plan has settled is written or kept. -/
theorem Outcome.treats_of_handled {state : Store × FlushReport} (tracks : watcher.Tracks)
    (outcome : watcher.Outcome report state)
    (handled : name ∈ watcher.decideFlush.tones.handled) : report.Treats name := by
  have report := outcome.continues tracks
  rcases List.mem_append.1 handled with onTone | tone
  · refine .inr (.inl (report.written ?_))
    rw [outcome.applied.written]
    exact FlushDecision.mem_writes.2 (.inl onTone)
  · refine .inr (.inr (.inr (.inl (report.kept ?_))))
    rw [outcome.applied.kept]
    exact List.mem_append_left _ tone

/-- A property that a flush looks at is treated, unless there is nothing to do. -/
theorem treats_of_looksAt (tracks : watcher.Tracks) (looks : watcher.LooksAt name)
    (flushed : watcher.flush.2 = some report) :
    report.Treats name ∨ watcher.Idle watcher.flush.1 name := by
  obtain ⟨state, outcome⟩ := looks.outcome tracks flushed
  have continues := outcome.continues tracks
  have folds := folds_decideFlush watcher
  by_cases handled : name ∈ watcher.decideFlush.tones.handled
  · exact .inl (outcome.treats_of_handled tracks handled)
  have planned : (name, watcher.decideFlush.folded.action watcher.decideFlush.next.map
      watcher.decideFlush.forced name) ∈ watcher.decideFlush.actions :=
    FlushDecision.mem_actions.2 ⟨looks.affected, handled, rfl⟩
  cases decided : watcher.decideFlush.folded.action watcher.decideFlush.next.map
      watcher.decideFlush.forced name with
  | leave =>
      obtain ⟨gone, absent⟩ := of_action_leave decided
      rw [folds.current] at absent
      refine .inr ⟨?_, .inl absent⟩
      rw [outcome.current, PropertyMap.contains_eq_false_iff]
      exact gone
  | unset =>
      rw [decided] at planned
      by_cases set : watcher.registry.get? name = none
      · refine .inr ⟨?_, .inr set⟩
        rw [outcome.current, PropertyMap.contains_eq_false_iff]
        exact value?_of_action_unset decided
      · refine .inl (.inr (.inr (.inl ?_)))
        rw [continues.removed, outcome.applied.removed]
        refine Store.mem_removed_unsetAll (FlushPlan.mem_unset.2 planned) ?_
        rw [folds.store]
        exact set
  | write value =>
      rw [decided] at planned
      refine .inl (.inr (.inl (continues.written ?_)))
      rw [outcome.applied.written]
      exact FlushDecision.mem_writes.2 (.inr ⟨value, planned⟩)
  | keep =>
      rw [decided] at planned
      refine .inl (.inr (.inr (.inr (.inl (continues.kept ?_)))))
      rw [outcome.applied.kept]
      exact List.mem_append_right _ (FlushPlan.mem_kept.2 planned)
  | contest background generated =>
      rw [decided] at planned
      have contested := @FlushPlan.mem_contests watcher.decideFlush.actions
        ⟨name, background, generated⟩
      rcases outcome.settles_contest tracks (contested.2 planned) with ⟨kept, -⟩ | ⟨-, replaced, -⟩
      · exact .inl (.inr (.inr (.inr (.inl kept))))
      · exact .inl (.inr (.inr (.inr (.inr replaced))))

/-- A flush that looks at a property reports what became of it, unless there is nothing
to do. -/
theorem LooksAt.exists_treats (looks : watcher.LooksAt name) (tracks : watcher.Tracks) :
    ∃ report, watcher.flush.2 = some report ∧
      (report.Treats name ∨ watcher.Idle watcher.flush.1 name) := by
  have flushed := looks.pass.2
  exact ⟨_, flushed, treats_of_looksAt tracks looks flushed⟩

end Watcher

end Legible
