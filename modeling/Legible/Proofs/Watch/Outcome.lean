import Legible.Proofs.Watch.Judge
import Legible.Proofs.Watch.Tones

/-!
# What a flush leaves

A pass unsets what has left the map, writes the tone plan and the planned values, and
then judges the contests in the order of their names. Its report lists exactly that. What
becomes of a property can therefore be read off the plan: it is written, unset, left
alone, or settled by its contest.
-/

namespace Legible

open Property

namespace FlushDecision

variable {decision : FlushDecision}

/-- Everything that a decision writes before it judges the contests. -/
def writes (decision : FlushDecision) : List (Name × Value) :=
  decision.tones.writes ++ decision.plan.writes

/-- The state of a pass when everything is unset and written, and nothing judged yet. -/
structure Applied (decision : FlushDecision) (state : Store × FlushReport) : Prop where
  get? : ∀ name, state.1.get? name =
    ((decision.folded.store.unsetAll decision.plan.unset).1.putAll decision.writes).get? name
  written : state.2.written = decision.writes.map Prod.fst
  kept : state.2.kept = decision.tones.kept ++ decision.plan.kept
  issues : state.2.issues = decision.tones.issues
  replaced : state.2.replaced = []
  removed : state.2.removed = (decision.folded.store.unsetAll decision.plan.unset).2
  adopted : state.2.adopted = decision.adopted

/-- Carrying out a decision judges the contests after everything is written. -/
theorem exists_applied
    (accepted : Store.Accepts decision.folded.configuration.index decision.writes) :
    ∃ state, decision.Applied state ∧ decision.carryOut =
      decision.plan.contests.foldl
        (Contest.judge decision.next.map decision.folded.configuration.index) state := by
  rw [carryOut]
  dsimp only
  rw [show decision.tones.writes ++ decision.plan.writes = decision.writes from rfl,
    Store.applyValues_of_accepts _ accepted]
  exact ⟨_, ⟨fun name => rfl, rfl, rfl, List.append_nil _, rfl, rfl, rfl⟩, rfl⟩

/-- What is written before the contests is an on-tone of the tone plan, or planned. -/
theorem mem_writes {name : Name} :
    name ∈ decision.writes.map Prod.fst ↔
      name ∈ decision.tones.writes.map Prod.fst ∨
        ∃ value, (name, Action.write value) ∈ decision.actions := by
  rw [writes, List.map_append, List.mem_append]
  refine or_congr_right ?_
  constructor
  · intro listed
    obtain ⟨⟨_, value⟩, member, rfl⟩ := List.mem_map.1 listed
    exact ⟨value, FlushPlan.mem_writes.1 member⟩
  · rintro ⟨value, planned⟩
    exact List.mem_map_of_mem (FlushPlan.mem_writes.2 planned)

/-- A name that is not written is unset or left alone. -/
theorem Applied.get?_of_unwritten {state : Store × FlushReport} (applied : decision.Applied state)
    {name : Name} (unwritten : name ∉ decision.writes.map Prod.fst) :
    state.1.get? name =
      if (name, Action.unset) ∈ decision.actions then none
      else decision.folded.store.get? name := by
  rw [applied.get?, Store.get?_putAll_of_absent fun value member =>
    unwritten (List.mem_map_of_mem member), Store.get?_unsetAll]
  exact if_congr FlushPlan.mem_unset rfl rfl

/-- The contests stand in the order of their names. -/
theorem pairwise_contests
    (ordered : decision.affected.Pairwise fun first second => compare first second = .lt) :
    decision.plan.contests.Pairwise fun first second =>
      compare first.name second.name = .lt := by
  rw [plan, FlushPlan.ofActions, actions, List.pairwise_filterMap, List.pairwise_map]
  refine (ordered.sublist List.filter_sublist).imp fun {first second} less => ?_
  intro contest given contest' given'
  dsimp only at given given'
  split at given
  · split at given'
    · cases given
      cases given'
      exact less
    · cases given'
  · cases given

end FlushDecision

namespace Watcher

variable {watcher : Watcher}

/-- The generated values of the contests are accepted as they are. -/
theorem isAccepted_of_mem_contests (tracks : watcher.Tracks) {contest : Contest}
    (member : contest ∈ watcher.decideFlush.plan.contests) :
    contest.IsAccepted watcher.decideFlush.folded.configuration.index := by
  have planned := (FlushDecision.mem_actions.1 (FlushPlan.mem_contests.1 member)).2.2
  have held := (value?_of_action_contest planned).1
  rw [tracks.next] at held
  exact Configuration.validate_of_value? held

/-- The contests of a flush stand in the order of their names. -/
theorem pairwise_contests_decideFlush (watcher : Watcher) :
    watcher.decideFlush.plan.contests.Pairwise fun first second =>
      compare first.name second.name = .lt := by
  refine FlushDecision.pairwise_contests ?_
  rw [affected_decideFlush]
  exact Std.TreeSet.ordered_toList

/-- What a flush that reports something has done. -/
structure Outcome (watcher : Watcher) (report : FlushReport) (state : Store × FlushReport) :
    Prop where
  applied : watcher.decideFlush.Applied state
  configuration : watcher.flush.1.configuration = watcher.decideFlush.folded.configuration
  current : watcher.flush.1.current = watcher.decideFlush.next
  registry : watcher.flush.1.registry = (watcher.decideFlush.plan.contests.foldl
    (Contest.judge watcher.decideFlush.next.map watcher.decideFlush.folded.configuration.index)
    state).1.registry
  report_eq : report = (watcher.decideFlush.plan.contests.foldl
    (Contest.judge watcher.decideFlush.next.map watcher.decideFlush.folded.configuration.index)
    state).2

/-- A flush that makes its pass reports what the pass has done. -/
theorem outcome_of_pass (tracks : watcher.Tracks) {report : FlushReport}
    (flushed : watcher.flush.2 = some report) (made : watcher.flush.1 = watcher.runFlush.1)
    (reported : watcher.flush.2 = some watcher.runFlush.2) :
    ∃ state, watcher.Outcome report state := by
  obtain ⟨state, applied, carried⟩ := FlushDecision.exists_applied (accepts_writes tracks)
  have settled := settled_runFlush watcher
  rw [← made] at settled
  have own : report = watcher.decideFlush.carryOut.2 := by
    rw [← report_runFlush]
    exact Option.some.inj (flushed.symm.trans reported)
  refine ⟨state, applied, settled.configuration, settled.current, ?_, ?_⟩
  · rw [settled.registry, carried]
  · rw [own, carried]

/-- A flush reports nothing, or what its pass has done. -/
theorem outcome_of_flush (tracks : watcher.Tracks) {report : FlushReport}
    (flushed : watcher.flush.2 = some report) :
    report = {} ∨ ∃ state, watcher.Outcome report state := by
  rcases watcher.flush_cases with ⟨-, -, nothing⟩ | ⟨-, -, made, reported⟩
  · exact .inl (nothing report flushed)
  · exact .inr (outcome_of_pass tracks flushed made reported)

variable {report : FlushReport} {state : Store × FlushReport}

/-- The report of a flush goes on from what was written before the contests. -/
theorem Outcome.continues (tracks : watcher.Tracks) (outcome : watcher.Outcome report state) :
    state.2.Continues report := by
  rw [outcome.report_eq]
  exact Contest.continues_judgeAll fun contest => isAccepted_of_mem_contests tracks

/-- What a flush reports as written was written before the contests, or is contested. -/
theorem Outcome.written_cases (tracks : watcher.Tracks) (outcome : watcher.Outcome report state)
    {name : Name} (written : name ∈ report.written) :
    name ∈ watcher.decideFlush.writes.map Prod.fst ∨
      ∃ contest ∈ watcher.decideFlush.plan.contests, contest.name = name := by
  rw [outcome.report_eq] at written
  rw [← outcome.applied.written]
  exact Contest.written_judgeAll (fun contest => isAccepted_of_mem_contests tracks) written

/-- What a flush keeps is settled by the tone plan, or planned to stay, or contested and judged
to stay, and since then only contests with later names have been replaced. -/
theorem Outcome.kept_cases (tracks : watcher.Tracks) (outcome : watcher.Outcome report state)
    {name : Name} (kept : name ∈ report.kept) :
    name ∈ watcher.decideFlush.tones.kept ∨
      (name, Action.keep) ∈ watcher.decideFlush.actions ∨
      ∃ contest ∈ watcher.decideFlush.plan.contests, contest.name = name ∧
        ∃ registry : Registry,
          Inspection.measurePair watcher.decideFlush.next.map registry name contest.background =
            none ∧
          ∀ other, watcher.flush.1.registry.get? other = registry.get? other ∨
            compare name other = .lt ∧ other ∈ report.replaced := by
  rw [outcome.report_eq] at kept
  rcases Contest.split_of_kept (fun contest => isAccepted_of_mem_contests tracks) kept with
    earlier | ⟨before, contest, after, registry, split, rfl, legible, since⟩
  · rw [outcome.applied.kept] at earlier
    exact (List.mem_append.1 earlier).imp_right fun planned => .inl (FlushPlan.mem_kept.1 planned)
  · have listed : contest ∈ watcher.decideFlush.plan.contests := by
      rw [split]
      exact List.mem_append_right _ List.mem_cons_self
    have ordered := pairwise_contests_decideFlush watcher
    rw [split, List.pairwise_append, List.pairwise_cons] at ordered
    refine .inr (.inr ⟨contest, listed, rfl, registry, legible, fun other => ?_⟩)
    rw [outcome.registry, outcome.report_eq]
    refine (since other).imp_right ?_
    rintro ⟨⟨later, following, rfl⟩, replaced⟩
    exact ⟨ordered.2.1.1 later following, replaced⟩

/-- The contests leave what is not contested. -/
theorem Outcome.get?_of_uncontested (tracks : watcher.Tracks)
    (outcome : watcher.Outcome report state) {name : Name}
    (uncontested : ∀ contest ∈ watcher.decideFlush.plan.contests, contest.name ≠ name) :
    watcher.flush.1.registry.get? name = state.1.get? name := by
  rw [outcome.registry]
  exact (Contest.get?_judgeAll (fun contest => isAccepted_of_mem_contests tracks)
    name).resolve_right fun ⟨⟨contest, listed, named⟩, _⟩ => uncontested contest listed named

/-- A contested property keeps its text and is kept, or it shows the generated value, is
written and replaced, and an issue says so. -/
theorem Outcome.settles_contest (tracks : watcher.Tracks) (outcome : watcher.Outcome report state)
    {contest : Contest} (listed : contest ∈ watcher.decideFlush.plan.contests) :
    (contest.name ∈ report.kept ∧
        watcher.flush.1.registry.get? contest.name = state.1.get? contest.name) ∨
      (contest.name ∈ report.written ∧ contest.name ∈ report.replaced ∧
        (∃ issue ∈ report.issues, issue.locus = contest.name.text) ∧
        watcher.flush.1.registry.get? contest.name = some contest.generated.render) := by
  have distinct := (pairwise_contests_decideFlush watcher).imp
    fun {first second : Contest} (less : compare first.name second.name = .lt) =>
      (fun same => by simp [same] at less : first.name ≠ second.name)
  rw [outcome.report_eq, outcome.registry]
  exact Contest.settled_judgeAll (fun contest => isAccepted_of_mem_contests tracks) distinct listed

end Watcher

end Legible
