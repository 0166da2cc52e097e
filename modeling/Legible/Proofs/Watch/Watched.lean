import Legible.Proofs.Watch.Baseline

/-!
# Changes that nobody reported

A check compares every watched property with the text that was seen last. So a change
that someone else made is found by the next check that runs, as long as nothing in
between takes the changed text as seen without looking at the property.
-/

namespace Legible

open Property

namespace Watcher

variable {watcher : Watcher} {name : Name}

/-- A watched target covers a property. -/
def Covers (watcher : Watcher) (name : Name) : Prop :=
  name ∈ watcher.interest.names watcher.current.map

instance (watcher : Watcher) (name : Name) : Decidable (watcher.Covers name) :=
  inferInstanceAs (Decidable (_ ∈ _))

/-- An operation does not lose sight of a watched property: it leaves it alone and
watched, or it is a flush that looks at it. -/
inductive Attends (watcher : Watcher) (name : Name) : Operation → Prop
  | spares {operation : Operation} (spared : watcher.Spares name operation)
      (covered : (watcher.operate operation).Covers name) : Attends watcher name operation
  | looks (looks : watcher.LooksAt name) : Attends watcher name .flush

/-- A check that runs treats a watched property that shows another text than was seen
last, unless there is nothing to do. -/
theorem exists_treats_of_check (tracks : watcher.Tracks) (isEnabled : watcher.isEnabled = true)
    (covered : watcher.Covers name) {last : Option String}
    (seen : watcher.interest.baseline? name = some last)
    (changed : last ≠ watcher.registry.get? name) :
    ∃ report, watcher.check.2 = some report ∧
      (report.Treats name ∨ watcher.Idle watcher.check.1 name) := by
  obtain ⟨noticed, notices⟩ := exists_noticed isEnabled
  have keeps := notices.keeps name
  obtain ⟨root, isPending⟩ := notices.root name (Interest.mem_changed covered seen changed)
  have moved : noticed.liveDiffers name = true := by
    have live : watcher.store.get? name ≠ last := changed.symm
    rw [keeps.liveDiffers, liveDiffers, seen]
    simpa using live
  have looks := looksAt_of_root notices.isEnabled isPending root moved
  rw [notices.check]
  obtain ⟨report, flushed, treated⟩ := looks.exists_treats (notices.documents.tracks tracks)
  exact ⟨report, flushed, treated.imp_right keeps.idle⟩

/-- A watched property that shows another text than was seen last is treated by the end
of the next check that runs, in the report of that check or of an earlier flush, unless
there is nothing to do. Nothing in between may lose sight of it. -/
theorem treats_of_watched (reachable : watcher.Reachable) (covered : watcher.Covers name)
    {last : Option String} (seen : watcher.interest.baseline? name = some last)
    (changed : last ≠ watcher.registry.get? name) {between : List Operation}
    (attended : Throughout (fun watcher => watcher.Attends name) watcher between)
    (isEnabled : (between.foldl operate watcher).isEnabled = true) :
    ∃ pass ∈ watcher.passes (between ++ [.check]),
      pass.1.Treats name ∨ watcher.Idle pass.2 name := by
  have tracks := reachable.tracks
  clear reachable
  induction between generalizing watcher with
  | nil =>
      obtain ⟨report, reported, treated⟩ :=
        exists_treats_of_check tracks isEnabled covered seen changed
      refine ⟨(report, watcher.check.1), ?_, treated⟩
      rw [List.nil_append, passes, report?, reported]
      exact List.mem_cons_self
  | cons operation rest inductionHypothesis =>
      rw [List.cons_append, passes]
      cases attended.1 with
      | spares spared still =>
          -- The property still shows the changed text, and still another one was seen last.
          have keeps := keeps_operate spared
          obtain ⟨pass, listed, treated⟩ := inductionHypothesis still (keeps.baseline.trans seen)
            (keeps.live ▸ changed) attended.2 isEnabled (tracks.operate operation)
          exact ⟨pass, List.mem_append_right _ listed, treated.imp_right keeps.idle⟩
      | looks looks =>
          obtain ⟨report, flushed, treated⟩ := looks.exists_treats tracks
          refine ⟨(report, watcher.flush.1), List.mem_append_left _ ?_, treated⟩
          rw [report?, flushed]
          exact List.mem_cons_self

/-- A watched component that someone else turned red is treated by the next check,
although the watcher was switched off and used in between. -/
theorem treats_of_watched_label :
    ∃ watcher : Watcher, ∃ last : Option String, ∃ between : List Operation, watcher.Reachable ∧
      watcher.Covers Sample.label ∧ watcher.interest.baseline? Sample.label = some last ∧
      last ≠ watcher.registry.get? Sample.label ∧
      Throughout (fun watcher => watcher.Attends Sample.label) watcher between ∧
      (between.foldl operate watcher).isEnabled = true ∧
      ∃ pass ∈ watcher.passes (between ++ [.check]), pass.1.Treats Sample.label := by
  have facts : (fun watcher : Watcher =>
      watcher.Covers Sample.label ∧ (watcher.watch (.property Sample.loose)).Covers Sample.label ∧
        watcher.current.map.contains Sample.label = true ∧
        watcher.interest.baseline? Sample.label = some (some "var(--tokens-color-gray-000)") ∧
        watcher.registry.get? Sample.label = some "red")
      (Sample.attached Sample.labelled
        [.watch (.property Sample.label), .setOutside Sample.label "red"]) := by
    decide +kernel
  have reachable := Sample.reachable_attached Sample.labelled
    [.watch (.property Sample.label), .setOutside Sample.label "red"]
  generalize Sample.attached Sample.labelled _ = watcher at facts reachable
  obtain ⟨covered, both, held, seen, live⟩ := facts
  have changed : some "var(--tokens-color-gray-000)" ≠ watcher.registry.get? Sample.label := by
    rw [live]
    decide
  have attended : Throughout (fun watcher => watcher.Attends Sample.label) watcher
      [.disable, .flush, .mutate (.setOptions {}), .enable, .watch (.property Sample.loose)] := by
    refine ⟨.spares trivial covered, .spares (.inl rfl) covered, .spares trivial covered,
      .spares trivial covered, .spares ?_ both, trivial⟩
    show Sample.label ∉ [Sample.loose]
    decide
  obtain ⟨pass, listed, treated⟩ :=
    treats_of_watched reachable covered seen changed attended rfl
  refine ⟨watcher, _, _, reachable, covered, seen, changed, attended, rfl, pass, listed,
    treated.resolve_right ?_⟩
  rintro ⟨-, absent | unset⟩
  · rw [held] at absent
    cases absent
  · rw [live] at unset
    cases unset

/-- Someone else changes the text of a watched property that was seen before, and no
report of what comes next treats the property, up to and including a check that runs. -/
def IsOverlooked (before : Watcher) (change : Operation) (between : List Operation)
    (name : Name) : Prop :=
  before.Covers name ∧ (before.interest.baseline? name).isSome = true ∧
    (before.operate change).registry.get? name ≠ before.registry.get? name ∧
    (between.foldl operate (before.operate change)).isEnabled = true ∧
    ∀ pass ∈ (before.operate change).passes (between ++ [.check]), ¬pass.1.Treats name

instance (before : Watcher) (change : Operation) (between : List Operation) (name : Name) :
    Decidable (before.IsOverlooked change between name) :=
  inferInstanceAs (Decidable (_ ∧ _ ∧ _ ∧ _ ∧ _))

/-- A change of a watched property is overlooked when a watch takes it as seen, when the
watch ends, when the map is attached again, when a fix pass writes over it, when a flush
for something else ends by taking it as seen, when it brings back the text that was seen
last, when the property was unset and leaves the map, and when no map holds it. -/
theorem isOverlooked_of_watched :
    (Sample.attached Sample.labelled [.watch (.property Sample.label)]).IsOverlooked
        (.setOutside Sample.label "red") [.watch (.property Sample.label)] Sample.label ∧
      (Sample.attached Sample.labelled [.watch (.property Sample.label)]).IsOverlooked
        (.setOutside Sample.label "red") [.unwatch (.property Sample.label)] Sample.label ∧
      (Sample.attached Sample.labelled [.watch (.property Sample.label)]).IsOverlooked
        (.setOutside Sample.label "red") [.attach 1] Sample.label ∧
      (Sample.attached Sample.labelled [.watch (.property Sample.label)]).IsOverlooked
        (.setOutside Sample.label "red") [.validate 0] Sample.label ∧
      (Sample.attached Sample.labelled [.watch (.property Sample.label)]).IsOverlooked
        (.setOutside Sample.label "red") [.mutate (.setOptions {}), .flush] Sample.label ∧
      (Sample.attached Sample.labelled [.watch (.property Sample.label),
          .setOutside Sample.label "red"]).IsOverlooked
        (.setOutside Sample.label "var(--tokens-color-gray-000)") [] Sample.label ∧
      (Sample.attached Sample.labelled [.watch (.property Sample.label)]).IsOverlooked
        (.unsetOutside Sample.label) [.mutate (.replaceUiKit (.empty "ui-kit"))] Sample.label ∧
      (Sample.attached Sample.labelled [.watch (.property Sample.loose)]).IsOverlooked
        (.setOutside Sample.loose "red") [] Sample.loose := by
  decide +kernel

end Watcher

end Legible
