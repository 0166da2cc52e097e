import Legible.Proofs.Live.Changes
import Legible.Proofs.Watch.Outcome

/-!
# One write for each property

A flush writes in three places: the on-tones of live tones, the planned values, and the
generated values of lost contests. No name comes up in two of them, or twice in one: the
plan gives each affected name one action and leaves out what the live tones settle, and two
live tones do not have one on-tone.
-/

namespace Legible

open Property

namespace FlushPlan

variable {actions : List (Name × Action)}

/-- What is read from steps about distinct names has distinct names. -/
theorem nodup_map_filterMap {Item : Type} {read : Name × Action → Option Item}
    {nameOf : Item → Name} (own : ∀ step item, read step = some item → nameOf item = step.1)
    (distinct : (actions.map Prod.fst).Nodup) :
    ((actions.filterMap read).map nameOf).Nodup := by
  rw [List.Nodup, List.pairwise_map, List.pairwise_filterMap]
  refine (List.pairwise_map.1 distinct).imp fun {first second} apart => ?_
  intro item given item' given'
  rw [own _ _ given, own _ _ given']
  exact apart

/-- The names that a plan writes are distinct. -/
theorem nodup_writes (distinct : (actions.map Prod.fst).Nodup) :
    ((ofActions actions).writes.map Prod.fst).Nodup := by
  refine nodup_map_filterMap ?_ distinct
  rintro ⟨name, action⟩ item given
  cases action <;> cases given
  rfl

/-- The names that are contested are distinct. -/
theorem nodup_contests (distinct : (actions.map Prod.fst).Nodup) :
    ((ofActions actions).contests.map Contest.name).Nodup := by
  refine nodup_map_filterMap ?_ distinct
  rintro ⟨name, action⟩ item given
  cases action <;> cases given
  rfl

end FlushPlan

/-! ## Distinct on-tones -/

namespace TonePlan

/-- The on-tones that are chosen again are those of live tones, each at most once. -/
theorem sublist_writes (registry : Registry) (next : Computation)
    (overrides : List ToneOverride) :
    ((ofOverrides registry next overrides).writes.map Prod.fst).Sublist
      (overrides.map ToneOverride.onToneName) := by
  induction overrides using List.reverseRecOn with
  | nil => exact .slnil
  | append_singleton overrides last inductionHypothesis =>
      rw [ofOverrides, List.foldl_append, List.foldl_cons, List.foldl_nil, List.map_append]
      rcases decide_cases registry next (overrides.foldl (decide registry next) {}) last with
        ⟨choice, issues, -, decided⟩ | decided
      · rw [decided, List.map_append]
        exact inductionHypothesis.append (List.Sublist.refl _)
      · rw [decided]
        exact inductionHypothesis.trans (List.sublist_append_left _ _)

end TonePlan

namespace Watcher

variable {watcher : Watcher}

/-- The live tones are changed properties, each at most once. -/
theorem sublist_tones (watcher : Watcher) (changed : List Name) :
    ((adoptAll watcher changed).tones.map ToneOverride.tone).Sublist changed := by
  induction changed using List.reverseRecOn with
  | nil => exact .slnil
  | append_singleton changed last inductionHypothesis =>
      have earlier := inductionHypothesis.trans (List.sublist_append_left changed [last])
      rw [adoptAll, List.foldl_append, List.foldl_cons, List.foldl_nil, ← adoptAll, adopt]
      dsimp only
      split
      · split <;> exact earlier
      · split <;> exact earlier
      · rw [List.map_append]
        exact inductionHypothesis.append (List.Sublist.refl _)
      · exact earlier

/-- Distinct live tones have distinct on-tones. -/
theorem nodup_onToneNames
    (computed : ∃ configuration : Configuration, watcher.current = configuration.compute)
    {changed : List Name} (distinct : changed.Nodup) :
    ((adoptAll watcher changed).tones.map ToneOverride.onToneName).Nodup := by
  have tones := List.pairwise_map.1 (distinct.sublist (sublist_tones watcher changed))
  refine List.pairwise_map.2 (tones.imp_of_mem fun {first second} live live' apart same => ?_)
  obtain ⟨mode, key, level⟩ := Palette.onToneProperty_inj same
  rw [tone_of_mem_tones computed live, tone_of_mem_tones computed live', mode, key, level] at apart
  exact apart rfl

end Watcher

/-! ## Distinct names -/

namespace FlushDecision

variable {decision : FlushDecision} {name : Name}

/-- The names that a decision may write, in the order in which it does. -/
def writable (decision : FlushDecision) : List Name :=
  decision.writes.map Prod.fst ++ decision.plan.contests.map Contest.name

/-- A name that the plan acts on is not settled by a live tone. -/
theorem not_mem_tones_writes {action : Action} (planned : (name, action) ∈ decision.actions) :
    name ∉ decision.tones.writes.map Prod.fst := fun settled =>
  (mem_actions.1 planned).2.1 (List.mem_append_left _ settled)

/-- Where the affected names and the chosen on-tones are distinct, all names are that may be
written. -/
theorem nodup_writable (affected : decision.affected.Nodup)
    (chosen : (decision.tones.writes.map Prod.fst).Nodup) : decision.writable.Nodup := by
  have planned : (decision.actions.map Prod.fst).Nodup := by
    rw [actions, List.map_map]
    exact (List.map_id' _).symm ▸ affected.sublist List.filter_sublist
  rw [writable, writes, List.map_append, List.nodup_append, List.nodup_append]
  refine ⟨⟨chosen, FlushPlan.nodup_writes planned, ?_⟩, FlushPlan.nodup_contests planned, ?_⟩
  · rintro name settled _ written rfl
    obtain ⟨⟨_, value⟩, listed, rfl⟩ := List.mem_map.1 written
    exact not_mem_tones_writes (FlushPlan.mem_writes.1 listed) settled
  · rintro name written _ contested rfl
    obtain ⟨contest, listed, rfl⟩ := List.mem_map.1 contested
    have contested := FlushPlan.mem_contests.1 listed
    rw [← List.map_append] at written
    rcases mem_writes.1 written with settled | ⟨value, write⟩
    · exact not_mem_tones_writes contested settled
    · cases eq_of_mem_actions contested write

/-- What may be written is not what is unset. -/
theorem not_mem_unset (writable : name ∈ decision.writable) : name ∉ decision.plan.unset := by
  intro listed
  have unset := FlushPlan.mem_unset.1 listed
  rcases List.mem_append.1 writable with write | contested
  · rcases mem_writes.1 write with settled | ⟨value, write⟩
    · exact not_mem_tones_writes unset settled
    · cases eq_of_mem_actions unset write
  · obtain ⟨contest, given, rfl⟩ := List.mem_map.1 contested
    cases eq_of_mem_actions unset (FlushPlan.mem_contests.1 given)

end FlushDecision

/-- The names that a flush may write are distinct. -/
theorem Watcher.nodup_writable_decideFlush {watcher : Watcher}
    (computed : ∃ configuration : Configuration, watcher.current = configuration.compute) :
    watcher.decideFlush.writable.Nodup := by
  refine FlushDecision.nodup_writable watcher.nodup_affected ?_
  rw [tones_decideFlush]
  exact (@nodup_onToneNames { watcher with liveRoots := ∅ } computed _
    watcher.nodup_changed).sublist (TonePlan.sublist_writes _ _ _)

/-! ## What a pass reports and does -/

/-- Between two states of a pass some names were written, in the order of a list, and
nothing was removed. -/
structure Rewrites (names : List Name) (before after : Store × FlushReport)
    (newly : List Name) : Prop where
  listed : newly.Sublist names
  written : after.2.written = before.2.written ++ newly
  removed : after.2.removed = before.2.removed
  announced : before.1.Announces newly [] after.1

namespace Contest

variable {next : PropertyMap} {index : Token.Index}

/-- Judging one contest writes its property or nothing. -/
theorem rewrites_judge (state : Store × FlushReport) (contest : Contest) :
    ∃ newly, Rewrites [contest.name] state (judge next index state contest) newly := by
  obtain ⟨store, report⟩ := state
  rw [judge]
  dsimp only
  split
  · exact ⟨[], List.nil_sublist _, (List.append_nil _).symm, rfl, Store.announces_refl store⟩
  · exact ⟨_, Store.sublist_applied_applyValues store [(contest.name, contest.generated)] index,
      rfl, rfl, Store.announces_applyValues store _ index⟩

theorem rewrites_judgeAll (state : Store × FlushReport) (contests : List Contest) :
    ∃ newly, Rewrites (contests.map Contest.name) state
      (contests.foldl (judge next index) state) newly := by
  induction contests using List.reverseRecOn with
  | nil =>
      exact ⟨[], List.nil_sublist _, (List.append_nil _).symm, rfl, Store.announces_refl state.1⟩
  | append_singleton contests last inductionHypothesis =>
      obtain ⟨newly, earlier⟩ := inductionHypothesis
      obtain ⟨newly', later⟩ :=
        rewrites_judge (contests.foldl (judge next index) state) last
      rw [List.foldl_append, List.map_append]
      refine ⟨newly ++ newly', earlier.listed.append later.listed, ?_,
        later.removed.trans earlier.removed, earlier.announced.trans later.announced⟩
      rw [← List.append_assoc, ← earlier.written]
      exact later.written

end Contest

namespace FlushDecision

/-- A state of a pass that has set what it reports as written and unset what it reports as
removed. -/
structure CarriedOut (decision : FlushDecision) (names : List Name)
    (state : Store × FlushReport) : Prop where
  announced : decision.folded.store.Announces state.2.written state.2.removed state.1
  written : state.2.written.Sublist names
  removed : state.2.removed.Sublist decision.plan.unset

/-- What is done before the contests are judged. -/
theorem exists_unjudged (decision : FlushDecision) :
    ∃ state, decision.CarriedOut (decision.writes.map Prod.fst) state ∧
      decision.carryOut = decision.plan.contests.foldl
        (Contest.judge decision.next.map decision.folded.configuration.index) state := by
  have unset := decision.folded.store.announces_unsetAll decision.plan.unset
  have removed := decision.folded.store.sublist_unsetAll decision.plan.unset
  rw [carryOut]
  dsimp only
  generalize decision.folded.store.unsetAll decision.plan.unset = state at unset removed ⊢
  have applied := state.1.announces_applyValues decision.writes
    decision.folded.configuration.index
  rw [show decision.tones.writes ++ decision.plan.writes = decision.writes from rfl]
  refine ⟨_, ⟨?_, ?_, removed⟩, rfl⟩
  · simpa using unset.trans applied
  · exact state.1.sublist_applied_applyValues _ _

theorem carriedOut_carryOut (decision : FlushDecision) :
    decision.CarriedOut decision.writable decision.carryOut := by
  obtain ⟨state, unjudged, carried⟩ := decision.exists_unjudged
  obtain ⟨newly, rewrites⟩ := @Contest.rewrites_judgeAll decision.next.map
    decision.folded.configuration.index state decision.plan.contests
  rw [carried]
  refine ⟨?_, ?_, ?_⟩
  · rw [rewrites.written, rewrites.removed]
    simpa using unjudged.announced.trans rewrites.announced
  · rw [rewrites.written]
    exact unjudged.written.append rewrites.listed
  · rw [rewrites.removed]
    exact unjudged.removed

end FlushDecision

/-! ## Flushes -/

/-- A flush between two states of the registry that has set each name it reports as
written once and no other name, has unset what it reports as removed, and has left the
texts of all others. -/
structure FlushReport.WritesOnce (before : Registry) (report : FlushReport) (after : Registry) :
    Prop where
  distinct : report.written.Nodup
  apart : ∀ name ∈ report.written, name ∉ report.removed
  counted : ∀ name, after.writeCount name =
    before.writeCount name + if name ∈ report.written then 1 else 0
  unset : ∀ name ∈ report.removed, after.get? name = none
  kept : ∀ name ∉ report.written, name ∉ report.removed → after.get? name = before.get? name

namespace Watcher

variable {watcher : Watcher}

/-- A flush that writes nothing and removes nothing. -/
theorem writesOnce_empty (registry : Registry) :
    FlushReport.WritesOnce registry {} registry where
  distinct := List.nodup_nil
  apart _ listed := absurd listed List.not_mem_nil
  counted _ := rfl
  unset _ listed := absurd listed List.not_mem_nil
  kept _ _ _ := rfl

/-- Whatever is noted and whatever someone else has written, a flush sets every name that
it reports as written once and no other name. What it reports as removed is something else
and unset, and what it reports as neither keeps its text. -/
theorem writesOnce_of_flush
    (computed : ∃ configuration : Configuration, watcher.current = configuration.compute)
    {report : FlushReport} (ran : watcher.flush.2 = some report) :
    report.WritesOnce watcher.registry watcher.flush.1.registry := by
  rcases watcher.flush_cases with ⟨-, unchanged, nothing⟩ | ⟨-, -, made, reported⟩
  · rw [unchanged, nothing report ran]
    exact writesOnce_empty watcher.registry
  · obtain rfl := Option.some.inj (reported.symm.trans ran)
    have carried := watcher.decideFlush.carriedOut_carryOut
    have distinct := (nodup_writable_decideFlush computed).sublist carried.written
    have changes := carried.announced.changes
    have apart : ∀ name ∈ watcher.decideFlush.carryOut.2.written,
        name ∉ watcher.decideFlush.carryOut.2.removed := fun name written removed =>
      FlushDecision.not_mem_unset (carried.written.subset written)
        (carried.removed.subset removed)
    rw [made, (settled_runFlush watcher).registry, report_runFlush]
    rw [(folds_decideFlush watcher).store] at changes
    refine ⟨distinct, apart, fun name => ?_, fun name removed => ?_, changes.kept⟩
    · exact (changes.counted name).trans (congrArg _ distinct.count)
    · have unset := (changes.gone name (fun written => apart name written removed) removed).2
      rw [Registry.contains_eq_isSome] at unset
      simpa using unset

/-- Text on white is turned white by a live write, and the interactive color is bound to
nothing that can be read. The next flush writes the text once more and removes the
interactive tone. -/
theorem writesOnce_of_flush_text :
    ∃ (watcher : Watcher) (report : FlushReport), watcher.Reachable ∧
      watcher.flush.2 = some report ∧ Sample.text ∈ report.written ∧
      Sample.text ∈ report.replaced ∧ Sample.tone ∈ report.removed ∧
      report.WritesOnce watcher.registry watcher.flush.1.registry := by
  have facts : (fun watcher : Watcher => (watcher.flush.2.any fun report =>
        decide (Sample.text ∈ report.written ∧ Sample.text ∈ report.replaced ∧
          Sample.tone ∈ report.removed)) = true)
      (Sample.attached Sample.onWhite
        [.writeLive Sample.text "var(--tokens-color-gray-000)",
          .mutate (.setCoreColor .light (.interactive .default) "none")]) := by
    decide +kernel
  have reachable := Sample.reachable_attached Sample.onWhite
    [.writeLive Sample.text "var(--tokens-color-gray-000)",
      .mutate (.setCoreColor .light (.interactive .default) "none")]
  generalize Sample.attached Sample.onWhite _ = watcher at facts reachable
  obtain ⟨report, ran, listed⟩ := (Option.any_eq_true _ _).1 facts
  obtain ⟨written, replaced, removed⟩ := of_decide_eq_true listed
  exact ⟨watcher, report, reachable, ran, written, replaced, removed,
    writesOnce_of_flush reachable.tracks.computed ran⟩

end Watcher

end Legible
