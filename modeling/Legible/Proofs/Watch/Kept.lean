import Legible.Proofs.Watch.Outcome

/-!
# Live changes that a flush keeps

A live foreground is kept when it is legible at the moment it is judged. Contests are
judged in the order of their names, so a contest that comes later may still replace
what a kept foreground shows or stands on. Nothing else can: a kept foreground stays
legible unless such a property is reached from it or from its background.
-/

namespace Legible

open Property

namespace Watcher

variable {watcher : Watcher}

/-- What a flush keeps with a background was contested and judged to stay, and since
then only contests with later names have been replaced. -/
theorem judged_of_kept (tracks : watcher.Tracks) {report : FlushReport}
    {state : Store × FlushReport} (outcome : watcher.Outcome report state) {name background : Name}
    (kept : name ∈ report.kept)
    (pair : watcher.decideFlush.next.map.background? name = some background) :
    ∃ registry : Registry,
      Inspection.measurePair watcher.decideFlush.next.map registry name background = none ∧
        ∀ other, watcher.flush.1.registry.get? other = registry.get? other ∨
          compare name other = .lt ∧ other ∈ report.replaced := by
  rcases outcome.kept_cases tracks kept with tone | planned | ⟨contest, listed, rfl, judged⟩
  -- Nothing that is kept without a contest has a background.
  · rw [background?_of_tones_kept tracks tone] at pair
    cases pair
  · rw [background?_of_action_keep (FlushDecision.mem_actions.1 planned).2.2] at pair
    cases pair
  · have own := (value?_of_action_contest
      (FlushDecision.mem_actions.1 (FlushPlan.mem_contests.1 listed)).2.2).2
    have same : contest.background = background := Option.some.inj (own.symm.trans pair)
    exact same ▸ judged

/-- A kept foreground is legible in the state that a flush leaves, unless a contest with
a later name was replaced that is reached from the foreground or its background. -/
theorem legible_of_kept (reachable : watcher.Reachable) {report : FlushReport}
    (flushed : watcher.flush.2 = some report) {name background : Name}
    (kept : name ∈ report.kept)
    (pair : watcher.flush.1.current.map.background? name = some background)
    (settled : ∀ replaced ∈ report.replaced, compare name replaced = .lt →
      ¬ watcher.flush.1.registry.Reaches name replaced ∧
        ¬ watcher.flush.1.registry.Reaches background replaced) :
    Inspection.measurePair watcher.flush.1.current.map watcher.flush.1.registry name background =
      none := by
  have tracks := reachable.tracks
  rcases outcome_of_flush tracks flushed with rfl | ⟨state, outcome⟩
  · cases kept
  · rw [outcome.current] at pair ⊢
    obtain ⟨registry, legible, since⟩ := judged_of_kept tracks outcome kept pair
    have unchanged {side : Name}
        (apart : ∀ replaced ∈ report.replaced, compare name replaced = .lt →
          ¬ watcher.flush.1.registry.Reaches side replaced) :
        watcher.flush.1.registry.color side = registry.color side := by
      refine Registry.color_congr fun reached path => ?_
      rcases since reached with same | ⟨later, replaced⟩
      · exact same
      · exact absurd path (apart reached replaced later)
    rw [← legible]
    exact Inspection.measurePair_congr
      (unchanged fun replaced member later => (settled replaced member later).1)
      (unchanged fun replaced member later => (settled replaced member later).2)

/-- A text that was set to black in a spelling of its own is kept on the white surface. -/
theorem legible_of_kept_text :
    ∃ watcher : Watcher, ∃ report : FlushReport, watcher.Reachable ∧
      watcher.flush.2 = some report ∧ Sample.text ∈ report.kept ∧
      watcher.flush.1.current.map.background? Sample.text = some Sample.surface ∧
      report.replaced = [] ∧
      Inspection.measurePair watcher.flush.1.current.map watcher.flush.1.registry Sample.text
        Sample.surface = none := by
  have facts : (fun watcher : Watcher =>
      (watcher.flush.2.map fun report => (report.kept, report.replaced),
        watcher.flush.1.current.map.background? Sample.text))
      (Sample.told [(Sample.text, "var( --tokens-color-gray-900 )")]) =
        (some ([Sample.text], []), some Sample.surface) := by
    decide +kernel
  have reachable := Sample.reachable_told [(Sample.text, "var( --tokens-color-gray-900 )")]
  generalize Sample.told [(Sample.text, "var( --tokens-color-gray-900 )")] = watcher
    at facts reachable
  obtain ⟨reported, pair⟩ := Prod.mk.inj facts
  obtain ⟨report, flushed, lists⟩ := Option.map_eq_some_iff.1 reported
  obtain ⟨keptIs, replacedIs⟩ := Prod.mk.inj lists
  have kept : Sample.text ∈ report.kept := by
    rw [keptIs]
    exact List.mem_cons_self
  refine ⟨watcher, report, reachable, flushed, kept, pair, replacedIs,
    legible_of_kept reachable flushed kept pair fun replaced member => ?_⟩
  rw [replacedIs] at member
  cases member

/-- A black on-tone is judged on a tone that is still white and kept. Then the tone is
judged on the white surface and replaced by black. -/
theorem illegible_of_kept_onTone :
    ∃ watcher : Watcher, ∃ report : FlushReport, watcher.Reachable ∧ watcher.isAttached = true ∧
      watcher.flush.2 = some report ∧ Sample.onTone ∈ report.kept ∧
      watcher.flush.1.current.map.background? Sample.onTone = some Sample.tone ∧
      Inspection.measurePair watcher.flush.1.current.map watcher.flush.1.registry Sample.onTone
        Sample.tone ≠ none := by
  have facts : (fun watcher : Watcher =>
      (watcher.isAttached, watcher.flush.2.map FlushReport.kept,
        watcher.flush.1.current.map.background? Sample.onTone,
        (Inspection.measurePair watcher.flush.1.current.map watcher.flush.1.registry
          Sample.onTone Sample.tone).isSome))
      (Sample.attached Sample.onWhite
        [.writeLive Sample.tone "var(--tokens-color-gray-000)",
          .writeLive Sample.onTone "var(--tokens-color-gray-900)"]) =
        (true, some [Sample.onTone], some Sample.tone, true) := by
    decide +kernel
  have reachable := Sample.reachable_attached Sample.onWhite
    [.writeLive Sample.tone "var(--tokens-color-gray-000)",
      .writeLive Sample.onTone "var(--tokens-color-gray-900)"]
  generalize Sample.attached Sample.onWhite _ = watcher at facts reachable
  obtain ⟨isAttached, rest⟩ := Prod.mk.inj facts
  obtain ⟨reported, rest⟩ := Prod.mk.inj rest
  obtain ⟨pair, illegible⟩ := Prod.mk.inj rest
  obtain ⟨report, flushed, keptIs⟩ := Option.map_eq_some_iff.1 reported
  refine ⟨watcher, report, reachable, isAttached, flushed, ?_, pair, ?_⟩
  · rw [keptIs]
    exact List.mem_cons_self
  · intro none
    rw [none] at illegible
    cases illegible

end Watcher

end Legible
