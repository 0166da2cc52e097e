import Legible.Proofs.Watch.Treated

/-!
# Live changes that stand on something

A property with a background that holds neither what was generated for it before nor
what is generated now was set by somebody. When a flush looks at it, it is judged: it
stays as it is and is listed as kept, or the generated value is written over it, it is
listed as replaced, and an issue says so. The on-tone of a palette tone that is kept in
the same flush is the exception. It is chosen again with its tone, and nobody asks what
it held.
-/

namespace Legible

open Property

namespace Watcher

variable {watcher : Watcher} {report : FlushReport} {name background : Name}

/-- A property holds a live change: it is set, and shows neither the text that was
generated for it before the flush nor the one that is generated in it. -/
structure Overrides (watcher : Watcher) (name : Name) (text : String) (generated : Value) :
    Prop where
  live : watcher.registry.get? name = some text
  held : watcher.flush.1.current.map.value? name = some generated
  previous : (watcher.current.map.value? name).map Value.render ≠ some text
  next : generated.render ≠ text

/-- What has a background is settled by the tone plan only together with it. -/
theorem unhandled_of_background (tracks : watcher.Tracks)
    (pair : watcher.decideFlush.next.map.background? name = some background)
    (stays : background ∉ watcher.decideFlush.tones.kept) :
    name ∉ watcher.decideFlush.tones.handled := by
  intro handled
  rcases handled_cases tracks handled with tone | ⟨mode, key, level, rfl, kept, -⟩
  · rw [background?_of_tones_kept tracks tone] at pair
    cases pair
  · rw [tracks.next] at pair
    rw [Configuration.background?_onToneProperty pair] at stays
    exact stays kept

/-- Nothing with a background is written without a look at its live text. -/
theorem unforced_of_background (tracks : watcher.Tracks)
    (pair : watcher.decideFlush.next.map.background? name = some background) :
    name ∉ watcher.decideFlush.forced := by
  intro forced
  obtain ⟨binding, bound⟩ := binding?_of_mem_forced forced
  obtain ⟨configuration, computed⟩ := tracks.computed
  rw [tracks.next] at pair
  rw [computed, Configuration.binding?_of_background? configuration pair] at bound
  cases bound

/-- A live change that has to be legible is contested. -/
theorem action_of_override {next : PropertyMap} {forced : List Name} {text : String}
    {generated : Value} (live : watcher.store.get? name = some text)
    (held : next.value? name = some generated)
    (previous : (watcher.current.map.value? name).map Value.render ≠ some text)
    (other : generated.render ≠ text) (pair : next.background? name = some background)
    (unforced : name ∉ forced) :
    watcher.action next forced name = .contest background generated := by
  have overridden : watcher.isOverride name generated = true := by
    rw [isOverride, live]
    simp [Ne.symm previous, Ne.symm other]
  simp [action, held, overridden, unforced, pair]

/-- A live change with a background that a flush looks at stays and is listed as kept, or
the generated value is written over it, and it is listed as replaced and reported. The
flush must not keep a palette tone that it stands on. -/
theorem kept_or_replaced_of_override (reachable : watcher.Reachable)
    (flushed : watcher.flush.2 = some report) (looks : watcher.LooksAt name)
    (pair : watcher.flush.1.current.map.background? name = some background) {text : String}
    {generated : Value} (overrides : watcher.Overrides name text generated)
    (stays : background ∉ watcher.decideFlush.tones.kept) :
    (watcher.flush.1.registry.get? name = some text ∧ name ∈ report.kept) ∨
      (watcher.flush.1.registry.get? name = some generated.render ∧ name ∈ report.written ∧
        name ∈ report.replaced ∧ ∃ issue ∈ report.issues, issue.locus = name.text) := by
  have tracks := reachable.tracks
  obtain ⟨state, outcome⟩ := looks.outcome tracks flushed
  have folds := folds_decideFlush watcher
  have held := overrides.held
  rw [outcome.current] at pair held
  have live : watcher.decideFlush.folded.store.get? name = some text := by
    rw [folds.store]
    exact overrides.live
  have previous : (watcher.decideFlush.folded.current.map.value? name).map Value.render ≠
      some text := by
    rw [folds.current]
    exact overrides.previous
  have unhandled := unhandled_of_background tracks pair stays
  have planned : (name, Action.contest background generated) ∈ watcher.decideFlush.actions :=
    FlushDecision.mem_actions.2 ⟨looks.affected, unhandled,
      action_of_override live held previous overrides.next pair
        (unforced_of_background tracks pair)⟩
  -- Until it is judged the change is left as it is: it is neither written nor unset.
  have untouched : state.1.get? name = some text := by
    have unwritten : name ∉ watcher.decideFlush.writes.map Prod.fst := by
      intro written
      rcases FlushDecision.mem_writes.1 written with onTone | ⟨value, member⟩
      · exact unhandled (List.mem_append_left _ onTone)
      · cases FlushDecision.eq_of_mem_actions planned member
    rw [outcome.applied.get?_of_unwritten unwritten, if_neg, live]
    intro unset
    cases FlushDecision.eq_of_mem_actions planned unset
  have listed : (⟨name, background, generated⟩ : Contest) ∈ watcher.decideFlush.plan.contests :=
    FlushPlan.mem_contests.2 planned
  rcases outcome.settles_contest tracks listed with ⟨kept, same⟩ | ⟨written, replaced, said, shows⟩
  · exact .inl ⟨same.trans untouched, kept⟩
  · exact .inr ⟨shows, written, replaced, said⟩

/-- A text that was set to white on a white surface is replaced by black. -/
theorem replaced_of_override_text :
    ∃ watcher : Watcher, ∃ report : FlushReport, ∃ text : String, ∃ generated : Value,
      watcher.Reachable ∧ watcher.flush.2 = some report ∧ watcher.LooksAt Sample.text ∧
      watcher.flush.1.current.map.background? Sample.text = some Sample.surface ∧
      watcher.Overrides Sample.text text generated ∧
      Sample.surface ∉ watcher.decideFlush.tones.kept ∧ Sample.text ∉ report.kept ∧
      watcher.flush.1.registry.get? Sample.text = some generated.render ∧
      Sample.text ∈ report.replaced ∧ ∃ issue ∈ report.issues, issue.locus = Sample.text.text := by
  have facts : (fun watcher : Watcher =>
      watcher.flush.2.map FlushReport.kept = some [] ∧
        watcher.flush.1.current.map.background? Sample.text = some Sample.surface ∧
        (watcher.isEnabled = true ∧ watcher.pending.isEmpty = false ∧
          Sample.text ∈ watcher.decideFlush.affected) ∧
        watcher.registry.get? Sample.text = some "var(--tokens-color-gray-000)" ∧
        (watcher.flush.1.current.map.value? Sample.text).map Value.render =
          some "var(--tokens-color-gray-900)" ∧
        (watcher.current.map.value? Sample.text).map Value.render =
          some "var(--tokens-color-gray-900)" ∧
        Sample.surface ∉ watcher.decideFlush.tones.kept)
      (Sample.told [(Sample.text, "var(--tokens-color-gray-000)")]) := by
    decide +kernel
  have reachable := Sample.reachable_told [(Sample.text, "var(--tokens-color-gray-000)")]
  generalize Sample.told [(Sample.text, "var(--tokens-color-gray-000)")] = watcher
    at facts reachable
  obtain ⟨reported, pair, ⟨isEnabled, isPending, affected⟩, live, held, previous, stays⟩ := facts
  obtain ⟨report, flushed, keptIs⟩ := Option.map_eq_some_iff.1 reported
  have looks : watcher.LooksAt Sample.text := ⟨isEnabled, isPending, affected⟩
  obtain ⟨generated, held, renders⟩ := Option.map_eq_some_iff.1 held
  have overrides : watcher.Overrides Sample.text "var(--tokens-color-gray-000)" generated :=
    ⟨live, held, by rw [previous]; decide, by rw [renders]; decide⟩
  have unkept : Sample.text ∉ report.kept := by
    rw [keptIs]
    exact List.not_mem_nil
  rcases kept_or_replaced_of_override reachable flushed looks pair overrides stays with
    ⟨-, kept⟩ | ⟨shows, -, replaced, said⟩
  · exact absurd kept unkept
  · exact ⟨watcher, report, _, _, reachable, flushed, looks, pair, overrides, stays, unkept,
      shows, replaced, said⟩

/-- A palette tone was set to black and its on-tone to a gray. The tone is kept, and the
on-tone becomes white: it is neither kept nor replaced, and nothing is said. -/
theorem silent_of_override_onAccent :
    ∃ watcher : Watcher, ∃ report : FlushReport, ∃ text : String, ∃ generated : Value,
      watcher.Reachable ∧ watcher.isAttached = true ∧ watcher.flush.2 = some report ∧
      watcher.LooksAt Sample.onAccent ∧
      watcher.flush.1.current.map.background? Sample.onAccent = some Sample.accent ∧
      watcher.Overrides Sample.onAccent text generated ∧
      watcher.flush.1.registry.get? Sample.onAccent ≠ some text ∧
      Sample.onAccent ∉ report.kept ∧ Sample.onAccent ∉ report.replaced ∧ report.issues = [] := by
  have facts : (fun watcher : Watcher =>
      watcher.isAttached = true ∧
        (watcher.flush.2.map fun report => (report.kept, report.replaced, report.issues)) =
          some ([Sample.accent], [], []) ∧
        watcher.flush.1.current.map.background? Sample.onAccent = some Sample.accent ∧
        (watcher.isEnabled = true ∧ watcher.pending.isEmpty = false ∧
          Sample.onAccent ∈ watcher.decideFlush.affected) ∧
        watcher.registry.get? Sample.onAccent = some "var(--tokens-color-stone-500)" ∧
        (watcher.flush.1.current.map.value? Sample.onAccent).map Value.render =
          some "var(--tokens-color-gray-900)" ∧
        (watcher.current.map.value? Sample.onAccent).map Value.render =
          some "var(--tokens-color-gray-900)" ∧
        watcher.flush.1.registry.get? Sample.onAccent = some "var(--tokens-color-gray-000)")
      (Sample.attached Sample.accented
        [.writeLive Sample.accent "var(--tokens-color-gray-900)",
          .writeLive Sample.onAccent "var(--tokens-color-stone-500)"]) := by
    decide +kernel
  have reachable := Sample.reachable_attached Sample.accented
    [.writeLive Sample.accent "var(--tokens-color-gray-900)",
      .writeLive Sample.onAccent "var(--tokens-color-stone-500)"]
  generalize Sample.attached Sample.accented _ = watcher at facts reachable
  obtain ⟨isAttached, reported, pair, ⟨isEnabled, isPending, affected⟩, live, held, previous,
    left⟩ := facts
  obtain ⟨report, flushed, lists⟩ := Option.map_eq_some_iff.1 reported
  obtain ⟨generated, held, renders⟩ := Option.map_eq_some_iff.1 held
  obtain ⟨keptIs, lists⟩ := Prod.mk.inj lists
  obtain ⟨replacedIs, silent⟩ := Prod.mk.inj lists
  refine ⟨watcher, report, _, _, reachable, isAttached, flushed,
    ⟨isEnabled, isPending, affected⟩, pair,
    ⟨live, held, by rw [previous]; decide, by rw [renders]; decide⟩, by rw [left]; decide, ?_, ?_,
    silent⟩
  · rw [keptIs]
    decide
  · rw [replacedIs]
    exact List.not_mem_nil

end Watcher

end Legible
