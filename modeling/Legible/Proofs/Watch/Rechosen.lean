import Legible.Proofs.Watch.Outcome

/-!
# On-tones that are chosen again

A palette tone that was changed live is kept, and its on-tone is chosen again for the
color that the tone shows when the flush decides. That is before the batch is written: a
tone that reads what the same flush changes shows another color afterwards, and nobody
looks again. A tone that was changed live in an earlier flush, or before it was a tone, is
kept as well, but then its on-tone is the one of the generated tone.
-/

namespace Legible

open Property

namespace TonePlan

variable {registry : Registry} {next : Computation} {overrides : List ToneOverride}

/-- Every live tone is kept, or it is to be written again. -/
theorem mem_kept_or_forced {override : ToneOverride} (listed : override ∈ overrides) :
    override.tone ∈ (ofOverrides registry next overrides).kept ∨
      override.tone ∈ (ofOverrides registry next overrides).forced := by
  induction overrides using List.reverseRecOn with
  | nil => cases listed
  | append_singleton overrides last inductionHypothesis =>
      rw [ofOverrides, List.foldl_append, List.foldl_cons, List.foldl_nil, ← ofOverrides]
      rcases decide_cases registry next (ofOverrides registry next overrides) last with
        ⟨choice, issues, -, decided⟩ | decided
      · rw [decided]
        rcases List.mem_append.1 listed with earlier | own
        · exact (inductionHypothesis earlier).imp_left (List.mem_append_left _)
        · rw [List.mem_singleton.1 own]
          exact .inl (List.mem_append_right _ (List.mem_singleton_self _))
      · rw [decided]
        rcases List.mem_append.1 listed with earlier | own
        · exact (inductionHypothesis earlier).imp_right (List.mem_append_left _)
        · rw [List.mem_singleton.1 own]
          exact .inr (List.mem_append_right _ (List.mem_singleton_self _))

/-- Whatever is said about live tones is about on-tones. -/
theorem kind_of_mem_issues {issue : Issue}
    (given : issue ∈ (ofOverrides registry next overrides).issues) : issue.kind = .onTone := by
  induction overrides using List.reverseRecOn with
  | nil => cases given
  | append_singleton overrides last inductionHypothesis =>
      rw [ofOverrides, List.foldl_append, List.foldl_cons, List.foldl_nil, ← ofOverrides,
        decide] at given
      dsimp only at given
      split at given
      · rcases List.mem_append.1 given with earlier | own
        · exact inductionHypothesis earlier
        · split at own
          · cases own
          · rw [List.mem_singleton.1 own]
            rfl
      · exact inductionHypothesis given

end TonePlan

namespace Watcher

variable {watcher : Watcher} {mode : Mode} {key : String} {level : Option Token.Level}

/-- What is kept without a plan for it is not to be written whatever it holds. -/
theorem not_mem_forced_of_action_keep {next : PropertyMap} {forced : List Name} {name : Name}
    (planned : watcher.action next forced name = .keep) : name ∉ forced := by
  intro listed
  rw [action] at planned
  split at planned
  · split at planned <;> cases planned
  · simp only [List.contains_iff_mem.2 listed, Bool.not_true, Bool.false_and, Bool.false_eq_true,
      if_false] at planned
    cases planned

/-- A tone of the current map is bound as the tone that it is. -/
theorem binding?_toneProperty (tracks : watcher.Tracks)
    (present : watcher.current.map.contains (Palette.toneProperty mode key level) = true) :
    watcher.current.map.binding? (Palette.toneProperty mode key level) =
      some (.tone mode key level) := by
  obtain ⟨configuration, computed⟩ := tracks.computed
  rw [computed] at present ⊢
  obtain ⟨value, held⟩ := (PropertyMap.contains_iff _ _).1 present
  rw [Configuration.compute_map] at held ⊢
  obtain ⟨entry, member, -⟩ := PropertyMap.mem_of_value? held
  obtain ⟨_, _, _, -, -, rfl⟩ := (Configuration.part_of_mem member).of_toneProperty
  obtain ⟨binding, bound⟩ := PropertyMap.exists_binding?_of_mem member rfl
  rw [bound]
  obtain ⟨entry', member', own⟩ := PropertyMap.mem_of_binding? bound
  obtain ⟨_, _, _, -, -, rfl⟩ := (Configuration.part_of_mem member').of_toneProperty
  exact congrArg some (Option.some.inj own).symm

/-- A palette tone that was noted and differs is kept by the tone plan, if a flush keeps
it at all. -/
theorem mem_tones_kept_of_kept (tracks : watcher.Tracks) {report : FlushReport}
    {state : Store × FlushReport} (outcome : watcher.Outcome report state)
    (kept : Palette.toneProperty mode key level ∈ report.kept)
    (noted : Palette.toneProperty mode key level ∈ watcher.liveRoots)
    (differs : watcher.liveDiffers (Palette.toneProperty mode key level) = true)
    (present : watcher.current.map.contains (Palette.toneProperty mode key level) = true) :
    Palette.toneProperty mode key level ∈ watcher.decideFlush.tones.kept := by
  have changed : Palette.toneProperty mode key level ∈ watcher.decideFlush.changed := by
    rw [changed_decideFlush]
    exact List.mem_filter.2 ⟨Std.TreeSet.mem_toList.2 noted, differs⟩
  have bound := binding?_toneProperty tracks present
  have live : (⟨Palette.toneProperty mode key level, mode, key, level⟩ : ToneOverride) ∈
      (adoptAll { watcher with liveRoots := ∅ } watcher.decideFlush.changed).tones :=
    mem_tones.2 ⟨changed, bound⟩
  rcases outcome.kept_cases tracks kept with settled | planned | ⟨contest, listed, named, -⟩
  · exact settled
  · -- A tone that could not be evaluated is written, not kept.
    rw [tones_decideFlush]
    refine (TonePlan.mem_kept_or_forced live).resolve_right fun unshown => ?_
    refine not_mem_forced_of_action_keep (FlushDecision.mem_actions.1 planned).2.2 ?_
    rw [forced_decideFlush, tones_decideFlush]
    exact List.mem_append_right _ unshown
  · have stands := (value?_of_action_contest
      (FlushDecision.mem_actions.1 (FlushPlan.mem_contests.1 listed)).2.2).2
    rw [named, tracks.next, Configuration.background?_toneProperty] at stands
    cases stands

/-- What the tone plan has settled is neither planned nor contested. -/
theorem ne_of_mem_handled {name : Name} (handled : name ∈ watcher.decideFlush.tones.handled) :
    (∀ value, (name, value) ∉ watcher.decideFlush.plan.writes) ∧
      ∀ contest ∈ watcher.decideFlush.plan.contests, contest.name ≠ name := by
  constructor
  · intro value planned
    exact (FlushDecision.mem_actions.1 (FlushPlan.mem_writes.1 planned)).2.1 handled
  · rintro contest listed rfl
    exact (FlushDecision.mem_actions.1 (FlushPlan.mem_contests.1 listed)).2.1 handled

/-- A tone that the tone plan keeps has an on-tone that the plan writes. -/
theorem exists_write_of_tones_kept (tracks : watcher.Tracks)
    (kept : Palette.toneProperty mode key level ∈ watcher.decideFlush.tones.kept) :
    Palette.onToneProperty mode key level ∈ watcher.decideFlush.tones.writes.map Prod.fst := by
  obtain ⟨overrides, named, settles⟩ := settles_decideFlush tracks
  obtain ⟨override, listed, same, settled⟩ := settles.kept _ kept
  obtain ⟨rfl, rfl, rfl⟩ := Palette.toneProperty_inj ((named override listed).symm.trans same)
  refine (List.mem_append.1 settled).resolve_right fun asTone => ?_
  obtain ⟨other, listed', same', -⟩ := settles.kept _ asTone
  exact Palette.toneProperty_ne_onToneProperty _ _ _ _ _ _ ((named other listed').symm.trans same')

/-- The on-tone of a palette tone is the one of black and white that is chosen for the
color that the tone shows, and unless it is legible the report says so. -/
def FitsTone (watcher : Watcher) (report : FlushReport) (mode : Mode) (key : String)
    (level : Option Token.Level) : Prop :=
  ∃ color black white,
    watcher.registry.color (Palette.toneProperty mode key level) = .ok color ∧
    (watcher.current.anchors? mode).bind Anchors.contrasting? = some (black, white) ∧
    watcher.registry.get? (Palette.onToneProperty mode key level) =
      some (Value.reference (OnTone.choose color black white).anchor.property).render ∧
    ((OnTone.choose color black white).isLegible = false →
      ∃ issue ∈ report.issues, issue.kind = .onTone ∧
        issue.locus = (Palette.onToneProperty mode key level).text)

/-- What the tone plan keeps fits, if the tone shows after the flush what it showed
before. -/
theorem fitsTone_of_tones_kept (tracks : watcher.Tracks) {report : FlushReport}
    {state : Store × FlushReport} (outcome : watcher.Outcome report state)
    (kept : Palette.toneProperty mode key level ∈ watcher.decideFlush.tones.kept)
    (steady : watcher.flush.1.registry.color (Palette.toneProperty mode key level) =
      watcher.registry.color (Palette.toneProperty mode key level)) :
    watcher.flush.1.FitsTone report mode key level := by
  have own := exists_write_of_tones_kept tracks kept
  have handled : Palette.onToneProperty mode key level ∈ watcher.decideFlush.tones.handled :=
    List.mem_append_left _ own
  obtain ⟨unplanned, uncontested⟩ := ne_of_mem_handled handled
  have among : Palette.onToneProperty mode key level ∈
      watcher.decideFlush.writes.map Prod.fst :=
    List.map_append ▸ List.mem_append_left _ own
  obtain ⟨value, member, put⟩ := @Store.exists_of_get?_putAll
    (watcher.decideFlush.folded.store.unsetAll watcher.decideFlush.plan.unset).1 _ _ among
  have written : (Palette.onToneProperty mode key level, value) ∈
      watcher.decideFlush.tones.writes :=
    (List.mem_append.1 member).resolve_right (unplanned value)
  obtain ⟨overrides, named, settles⟩ := settles_decideFlush tracks
  obtain ⟨override, listed, choice, same, rfl, -, reported⟩ := settles.writes _ _ written
  obtain ⟨rfl, rfl, rfl⟩ := Palette.onToneProperty_inj same
  have unchanged : watcher.decideFlush.folded.registry = watcher.registry :=
    congrArg Store.registry (folds_decideFlush watcher).store
  refine ⟨choice.color, choice.black, choice.white, ?_, ?_, ?_, fun illegible => ?_⟩
  · rw [steady, ← unchanged, ← named override listed]
    exact choice.shown
  · rw [outcome.current]
    exact choice.anchors
  · rw [outcome.get?_of_uncontested tracks uncontested, outcome.applied.get?]
    exact put
  · obtain ⟨issue, given, locus⟩ := reported.resolve_left fun legible => by
      rw [ToneOverride.Choice.onTone, illegible] at legible
      cases legible
    refine ⟨issue, (outcome.continues tracks).issues ?_, ?_, locus⟩
    · rw [outcome.applied.issues]
      exact given
    · rw [tones_decideFlush] at given
      exact TonePlan.kind_of_mem_issues given

/-- A palette tone of the current map that a flush finds changed live and keeps has an
on-tone that fits, if the tone shows after the flush what it showed before. -/
theorem fitsTone_of_kept (reachable : watcher.Reachable) {report : FlushReport}
    (flushed : watcher.flush.2 = some report)
    (kept : Palette.toneProperty mode key level ∈ report.kept)
    (noted : Palette.toneProperty mode key level ∈ watcher.liveRoots)
    (differs : watcher.liveDiffers (Palette.toneProperty mode key level) = true)
    (present : watcher.current.map.contains (Palette.toneProperty mode key level) = true)
    (steady : watcher.flush.1.registry.color (Palette.toneProperty mode key level) =
      watcher.registry.color (Palette.toneProperty mode key level)) :
    watcher.flush.1.FitsTone report mode key level := by
  have tracks := reachable.tracks
  rcases outcome_of_flush tracks flushed with rfl | ⟨state, outcome⟩
  · cases kept
  · exact fitsTone_of_tones_kept tracks outcome
      (mem_tones_kept_of_kept tracks outcome kept noted differs present) steady

/-- A tone that was set to black is kept, with an on-tone that fits. -/
theorem fitsTone_of_kept_accent :
    ∃ watcher : Watcher, ∃ report : FlushReport, ∃ mode key level, watcher.Reachable ∧
      watcher.flush.2 = some report ∧ Palette.toneProperty mode key level ∈ report.kept ∧
      Palette.toneProperty mode key level ∈ watcher.liveRoots ∧
      watcher.liveDiffers (Palette.toneProperty mode key level) = true ∧
      watcher.current.map.contains (Palette.toneProperty mode key level) = true ∧
      watcher.flush.1.registry.color (Palette.toneProperty mode key level) =
        watcher.registry.color (Palette.toneProperty mode key level) ∧
      watcher.flush.1.FitsTone report mode key level := by
  have facts : (fun (watcher : Watcher) (tone : Name) =>
      (watcher.flush.2.map fun report => report.kept.contains tone,
        (watcher.liveRoots.contains tone, watcher.liveDiffers tone,
          watcher.current.map.contains tone),
        (watcher.flush.1.registry.color tone, watcher.registry.color tone)))
      (Sample.attached Sample.accented [.writeLive Sample.accent "var(--tokens-color-gray-900)"])
      (Palette.toneProperty .light "accent" (some ⟨500⟩)) =
        (some true, (true, true, true), (.ok .black, .ok .black)) := by
    decide +kernel
  have reachable := Sample.reachable_attached Sample.accented
    [.writeLive Sample.accent "var(--tokens-color-gray-900)"]
  generalize Sample.attached Sample.accented _ = watcher at facts reachable
  obtain ⟨reported, rest⟩ := Prod.mk.inj facts
  obtain ⟨live, colors⟩ := Prod.mk.inj rest
  obtain ⟨noted, rest⟩ := Prod.mk.inj live
  obtain ⟨differs, present⟩ := Prod.mk.inj rest
  obtain ⟨after, before⟩ := Prod.mk.inj colors
  obtain ⟨report, flushed, listed⟩ := Option.map_eq_some_iff.1 reported
  have kept := List.contains_iff_mem.1 listed
  have noted' := Std.TreeSet.contains_iff_mem.1 noted
  have steady := after.trans before.symm
  exact ⟨watcher, report, _, _, _, reachable, flushed, kept, noted', differs, present, steady,
    fitsTone_of_kept reachable flushed kept noted' differs present steady⟩

/-- An on-tone that refers to another anchor than the one that is chosen does not fit. -/
theorem not_fitsTone {report : FlushReport} {color : Color} {black white : Anchor} {text : String}
    (shown : watcher.registry.color (Palette.toneProperty mode key level) = .ok color)
    (anchors : (watcher.current.anchors? mode).bind Anchors.contrasting? = some (black, white))
    (held : watcher.registry.get? (Palette.onToneProperty mode key level) = some text)
    (other : (Value.reference (OnTone.choose color black white).anchor.property).render ≠ text) :
    ¬ watcher.FitsTone report mode key level := by
  rintro ⟨color', black', white', shown', anchors', held', -⟩
  cases shown.symm.trans shown'
  cases anchors.symm.trans anchors'
  exact other (Option.some.inj (held'.symm.trans held))

end Watcher

/-- A palette over one gray, and a ramp that no palette shows. -/
def Sample.shaded : Configuration :=
  Sample.accented.withTokens
    ⟨"tokens", .object [("color", .object
      [("gray", .object [("000", leaf (.text "#ffffff")), ("900", leaf (.text "#000000"))]),
        ("stone", .object [("500", leaf (.text "#767676"))]),
        ("slate", .object [("900", leaf (.text "#000000"))])])]⟩

namespace Watcher

/-- A tone that was set to a black token is kept while that token becomes white in the same
flush: its on-tone is white, as it was chosen for black, and nothing is reported. -/
theorem not_fitsTone_of_kept :
    ∃ watcher : Watcher, ∃ report : FlushReport, ∃ mode key level, watcher.Reachable ∧
      watcher.isAttached = true ∧ watcher.flush.2 = some report ∧
      Palette.toneProperty mode key level ∈ report.kept ∧
      watcher.flush.1.current.map.contains (Palette.toneProperty mode key level) = true ∧
      report.issues = [] ∧ ¬ watcher.flush.1.FitsTone report mode key level := by
  have facts : (fun (watcher : Watcher) (tone : Name) =>
        (watcher.isAttached,
          watcher.flush.2.map fun report => (report.kept.contains tone, report.issues),
          watcher.flush.1.current.map.contains tone, watcher.flush.1.registry.color tone))
        (Sample.attached Sample.shaded
          [.writeLive Sample.accent "var(--tokens-color-slate-900)",
            .mutate (.setToken (.color "slate" ⟨900⟩) (.text "#ffffff"))])
        (Palette.toneProperty .light "accent" (some ⟨500⟩)) =
          (true, some (true, []), true, .ok .white) ∧
      (fun (watcher : Watcher) (onTone : Name) =>
        ((watcher.flush.1.current.anchors? .light).bind Anchors.contrasting?,
          watcher.flush.1.registry.get? onTone))
        (Sample.attached Sample.shaded
          [.writeLive Sample.accent "var(--tokens-color-slate-900)",
            .mutate (.setToken (.color "slate" ⟨900⟩) (.text "#ffffff"))])
        (Palette.onToneProperty .light "accent" (some ⟨500⟩)) =
          (some (⟨.color "gray" ⟨900⟩, .black⟩, ⟨.color "gray" ⟨0⟩, .white⟩),
            some "var(--tokens-color-gray-000)") := by
    decide +kernel
  have reachable := Sample.reachable_attached Sample.shaded
    [.writeLive Sample.accent "var(--tokens-color-slate-900)",
      .mutate (.setToken (.color "slate" ⟨900⟩) (.text "#ffffff"))]
  generalize Sample.attached Sample.shaded _ = watcher at facts reachable
  obtain ⟨flushes, chosen⟩ := facts
  obtain ⟨isAttached, rest⟩ := Prod.mk.inj flushes
  obtain ⟨reported, rest⟩ := Prod.mk.inj rest
  obtain ⟨present, shown⟩ := Prod.mk.inj rest
  obtain ⟨anchors, held⟩ := Prod.mk.inj chosen
  obtain ⟨report, flushed, lists⟩ := Option.map_eq_some_iff.1 reported
  obtain ⟨listed, silent⟩ := Prod.mk.inj lists
  exact ⟨watcher, report, _, _, _, reachable, isAttached, flushed, List.contains_iff_mem.1 listed,
    present, silent, not_fitsTone shown anchors held (by decide +kernel)⟩

end Watcher

end Legible
