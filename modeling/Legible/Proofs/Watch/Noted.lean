import Legible.Proofs.Watch.Baseline

/-!
# Changes that were reported

A change that the watcher has heard of waits for the next flush. If the property shows
another text than was seen last, that flush looks at it, whatever was done in between
that left the property alone.
-/

namespace Legible

open Property

namespace Watcher

variable {before watcher : Watcher} {name : Name}

/-- A watcher hears of a change: it writes the property itself, or an event names it. -/
inductive Hears (before : Watcher) (name : Name) : Watcher → Prop
  | written {watcher : Watcher} {text : String} {verdict : Verdict}
      (ok : before.writeLive name text = .ok (watcher, verdict)) : Hears before name watcher
  | told {event : Event} (named : name ∈ event.names) : Hears before name (before.notify event)

/-- What was heard of is noted. -/
theorem Hears.root (heard : before.Hears name watcher) :
    name ∈ watcher.liveRoots ∧ watcher.pending.isEmpty = false := by
  cases heard with
  | written ok =>
      obtain ⟨store, -, rfl⟩ := exists_write_of_writeLive ok
      exact ⟨Std.TreeSet.mem_insert_self, Pending.isEmpty_insert _ _⟩
  | told named =>
      refine ⟨Std.TreeSet.mem_insertMany_list.2 (.inr ?_), Pending.isEmpty_insert _ _⟩
      exact List.contains_iff_mem.2 named

theorem Hears.tracks (heard : before.Hears name watcher) (tracks : before.Tracks) :
    watcher.Tracks := by
  cases heard with
  | written ok => exact (sameDocuments_writeLive ok).tracks tracks
  | told named => exact (sameDocuments_notify before _).tracks tracks

/-- A watcher that is enabled and has noted a moved property looks at it when it flushes,
and when it checks. -/
theorem exists_treats_of_root (tracks : watcher.Tracks) (isEnabled : watcher.isEnabled = true)
    (root : name ∈ watcher.liveRoots) (isPending : watcher.pending.isEmpty = false)
    (moved : watcher.liveDiffers name = true) {last : Operation}
    (flushes : last = .flush ∨ last = .check) :
    ∃ report, watcher.report? last = some report ∧
      (report.Treats name ∨ watcher.Idle (watcher.operate last) name) := by
  rcases flushes with rfl | rfl
  · exact (looksAt_of_root isEnabled isPending root moved).exists_treats tracks
  · -- A check only adds to what was noted.
    obtain ⟨noticed, notices⟩ := exists_noticed isEnabled
    have keeps := notices.keeps name
    have looks := looksAt_of_root notices.isEnabled (keeps.pending isPending) (keeps.root root)
      (keeps.liveDiffers.trans moved)
    rw [report?, operate, notices.check]
    obtain ⟨report, flushed, treated⟩ := looks.exists_treats (notices.documents.tracks tracks)
    exact ⟨report, flushed, treated.imp_right keeps.idle⟩

/-- A change that a watcher has heard of, and that shows another text than was seen last,
is treated by the next flush that runs, unless there is nothing to do. In between the
property has to be left alone. -/
theorem treats_of_heard (reachable : before.Reachable) (heard : before.Hears name watcher)
    (moved : watcher.liveDiffers name = true) {between : List Operation}
    (spared : Throughout (fun watcher => watcher.Spares name) watcher between)
    (isEnabled : (between.foldl operate watcher).isEnabled = true) {last : Operation}
    (flushes : last = .flush ∨ last = .check) :
    ∃ report, (between.foldl operate watcher).report? last = some report ∧
      (report.Treats name ∨
        watcher.Idle ((between.foldl operate watcher).operate last) name) := by
  have keeps := keeps_run spared
  have tracks := (heard.tracks reachable.tracks).run between
  obtain ⟨root, isPending⟩ := heard.root
  obtain ⟨report, reported, treated⟩ := exists_treats_of_root tracks isEnabled (keeps.root root)
    (keeps.pending isPending) (keeps.liveDiffers.trans moved) flushes
  exact ⟨report, reported, treated.imp_right keeps.idle⟩

/-- A component that someone else turned red is treated by the next flush after an event
has named it, although the watcher was switched off and used in between. -/
theorem treats_of_heard_label :
    ∃ before watcher : Watcher, ∃ between : List Operation, ∃ report : FlushReport,
      before.Reachable ∧ before.Hears Sample.label watcher ∧
      watcher.liveDiffers Sample.label = true ∧
      Throughout (fun watcher => watcher.Spares Sample.label) watcher between ∧
      (between.foldl operate watcher).isEnabled = true ∧
      (between.foldl operate watcher).flush.2 = some report ∧ report.Treats Sample.label := by
  have facts : (fun before : Watcher =>
      (before.notify ⟨.propertiesUpdated, [Sample.label]⟩).liveDiffers Sample.label = true ∧
        before.current.map.contains Sample.label = true ∧
        before.registry.get? Sample.label ≠ none ∧
        ((before.notify ⟨.propertiesUpdated, [Sample.label]⟩).disable.validate 1).2.fixed = [] ∧
        ((before.notify ⟨.propertiesUpdated, [Sample.label]⟩).disable.validate 1).2.gaveUp = [])
      (Sample.attached Sample.labelled [.setOutside Sample.label "red"]) := by
    decide +kernel
  have reachable := Sample.reachable_attached Sample.labelled [.setOutside Sample.label "red"]
  generalize Sample.attached Sample.labelled _ = before at facts reachable
  obtain ⟨moved, held, set, notFixed, notGivenUp⟩ := facts
  have heard : before.Hears Sample.label (before.notify ⟨.propertiesUpdated, [Sample.label]⟩) :=
    .told List.mem_cons_self
  have spared : Throughout (fun watcher => watcher.Spares Sample.label)
      (before.notify ⟨.propertiesUpdated, [Sample.label]⟩)
      [.disable, .validate 1, .mutate (.setOptions {}), .flush, .enable,
        .watch (.property Sample.loose)] := by
    have unfixed : ∀ failing ∈
        ((before.notify ⟨.propertiesUpdated, [Sample.label]⟩).disable.validate 1).2.fixed ++
          ((before.notify ⟨.propertiesUpdated, [Sample.label]⟩).disable.validate 1).2.gaveUp,
        failing ≠ Sample.label ∧ before.current.map.background? failing ≠ some Sample.label := by
      rw [notFixed, notGivenUp]
      intro failing member
      cases member
    have disabled := (quiet_validate
      (before.notify ⟨.propertiesUpdated, [Sample.label]⟩).disable 1).1
    refine ⟨trivial, unfixed, trivial, .inl disabled, trivial, ?_, trivial⟩
    show Sample.label ∉ [Sample.loose]
    decide
  obtain ⟨report, reported, treated⟩ := treats_of_heard reachable heard moved spared rfl (.inl rfl)
  refine ⟨before, _, _, report, reachable, heard, moved, spared, rfl, reported,
    treated.resolve_right ?_⟩
  rintro ⟨-, absent | unset⟩
  · rw [show before.current.map.contains Sample.label = false from absent] at held
    cases held
  · exact set unset

/-- Since the last flush or attachment a property was changed to a text that is not the
generated one either, the watcher has heard of it, and the next flush does not treat it. -/
def IsMissed (before : Watcher) (heard between : List Operation) (name : Name) : Prop :=
  (heard.foldl operate before).liveRoots.contains name = true ∧
    (heard.foldl operate before).registry.get? name ≠ before.registry.get? name ∧
    (heard.foldl operate before).registry.get? name ≠
      (before.current.map.value? name).map Value.render ∧
    ((between.foldl operate (heard.foldl operate before)).flush.2.any fun report =>
      !decide (report.Treats name)) = true

instance (before : Watcher) (heard between : List Operation) (name : Name) :
    Decidable (before.IsMissed heard between name) :=
  inferInstanceAs (Decidable (_ ∧ _ ∧ _ ∧ _))

/-- A reported change is missed when a fix pass writes over it, when a watch takes it as
seen, when it brings back the text that was seen last after a change that nobody
reported, and when no map holds the property. -/
theorem isMissed_of_heard :
    (Sample.attached Sample.labelled []).IsMissed
        [.setOutside Sample.label "red", .notify ⟨.propertiesUpdated, [Sample.label]⟩]
        [.validate 0] Sample.label ∧
      (Sample.attached Sample.labelled []).IsMissed
        [.setOutside Sample.label "red", .notify ⟨.propertiesUpdated, [Sample.label]⟩]
        [.watch (.property Sample.label)] Sample.label ∧
      (Sample.attached Sample.labelled
          [.writeLive Sample.label "var(--tokens-color-gray-900)", .flush,
            .setOutside Sample.label "red", .mutate (.setOptions {}), .flush]).IsMissed
        [.writeLive Sample.label "var(--tokens-color-gray-900)"] [] Sample.label ∧
      (Sample.attached Sample.labelled []).IsMissed [.writeLive Sample.loose "red"] []
        Sample.loose := by
  decide +kernel

end Watcher

end Legible
