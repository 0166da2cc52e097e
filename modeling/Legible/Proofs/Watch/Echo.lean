import Legible.Proofs.Watch.Rebuild
import Legible.Proofs.Watch.Seen

/-!
# Echoes of own writes

Whatever a watcher is told right after a flush, the next flush finds nothing to do. Every
computed property shows the text that was seen last, so what differs live is outside the
map. Nothing outside the map is bound, nothing is derived from it, and nothing is to
become of it.
-/

namespace Legible

open Property

/-- Whether an operation only passes events on. -/
def Operation.IsNotice : Operation → Prop
  | .notify _ | .takeEvents => True
  | _ => False

theorem Property.PropertyMap.binding?_of_value?_none {map : PropertyMap} {name : Name}
    (absent : map.value? name = none) : map.binding? name = none := by
  rw [PropertyMap.value?, Option.map_eq_none_iff] at absent
  rw [binding?, absent]
  rfl

/-- A decision that plans nothing is carried out by doing nothing. -/
theorem FlushDecision.carryOut_of_idle {decision : FlushDecision}
    (leaves : ∀ name action, (name, action) ∈ decision.actions → action = .leave)
    (tones : decision.tones = {}) (adopted : decision.adopted = [])
    (recomputed : decision.recomputed = false) :
    decision.carryOut = (decision.folded.store, {}) := by
  have plan : decision.plan = ⟨[], [], [], []⟩ := by
    have unset : decision.plan.unset = [] := List.eq_nil_iff_forall_not_mem.2 fun name member => by
      cases leaves _ _ (FlushPlan.mem_unset.1 member)
    have kept : decision.plan.kept = [] := List.eq_nil_iff_forall_not_mem.2 fun name member => by
      cases leaves _ _ (FlushPlan.mem_kept.1 member)
    have writes : decision.plan.writes = [] :=
      List.eq_nil_iff_forall_not_mem.2 fun entry member => by
        cases leaves _ _ (FlushPlan.mem_writes.1 member)
    have contests : decision.plan.contests = [] :=
      List.eq_nil_iff_forall_not_mem.2 fun contest member => by
        cases leaves _ _ (FlushPlan.mem_contests.1 member)
    generalize decision.plan = plan at unset kept writes contests
    cases plan
    simp_all
  have emitted (store : Store) : store.emit (Event.updated []) = store := by
    rw [Store.emit, show Event.updated [] = [] from rfl, List.append_nil]
  rw [carryOut]
  simp only [plan, tones, adopted, recomputed]
  simp [Store.unsetAll, Store.applyValues, emitted, BatchReport.issues]

namespace Watcher

variable {watcher : Watcher} {name : Name}

/-- What is affected by changes outside a map that stays is outside the map: nothing is
derived from it. -/
theorem value?_of_affected (tracks : watcher.Tracks)
    (next : watcher.decideFlush.next = watcher.current)
    (outside : ∀ name ∈ watcher.decideFlush.changed, watcher.current.map.value? name = none)
    (affected : name ∈ watcher.decideFlush.affected) :
    watcher.current.map.value? name = none := by
  obtain ⟨configuration, computed⟩ := tracks.computed
  rw [affected_decideFlush, Std.TreeSet.mem_toList, next, tracks.graph] at affected
  refine @DependencyGraph.affected_subset _ (watcher.current.map.value? · = none) _
    (fun input gone dependent edge => ?_) (fun root listed => ?_) name affected
  · rw [DependencyGraph.mem_dependentsOf_union, or_self,
      DependencyGraph.mem_dependentsOf_ofMap, computed] at edge
    obtain ⟨origin, derived, member⟩ := edge
    have held := ((Configuration.isSound_compute configuration).closed dependent origin
      derived).1 input member
    rw [← computed, (PropertyMap.contains_eq_false_iff _ _).2 gone] at held
    cases held
  · rcases List.mem_append.1 listed with different | changed
    · refine absurd different (PropertyMap.not_mem_difference_self fun value held => ?_)
      rw [computed] at held
      exact Configuration.hasFixedWeight_of_value? held
    · exact outside root changed

/-- Where every computed property shows the text that was seen last, a pass that computes
nothing again does nothing. -/
theorem carryOut_of_seen (tracks : watcher.Tracks)
    (steady : watcher.pending.needsRecompute = false)
    (seen : ∀ name value, watcher.current.map.value? name = some value →
      watcher.liveDiffers name = false) :
    watcher.decideFlush.carryOut = (watcher.store, {}) := by
  have outside (name : Name) (changed : name ∈ watcher.decideFlush.changed) :
      watcher.current.map.value? name = none := by
    rw [changed_decideFlush] at changed
    cases held : watcher.current.map.value? name with
    | none => rfl
    | some value =>
        have differs := (List.mem_filter.1 changed).2
        rw [seen name value held] at differs
        cases differs
  have undisturbed := undisturbed_of_unbound fun name changed =>
    PropertyMap.binding?_of_value?_none (outside name changed)
  have recomputed : watcher.decideFlush.recomputed = false := by
    rw [recomputed_decideFlush, undisturbed.folded]
    exact steady
  have next : watcher.decideFlush.next = watcher.current := by
    rw [next_decideFlush, ← recomputed_decideFlush, recomputed, undisturbed.folded]
    rfl
  have leaves (name : Name) (action : Action)
      (planned : (name, action) ∈ watcher.decideFlush.actions) : action = .leave := by
    obtain ⟨listed, -, rfl⟩ := FlushDecision.mem_actions.1 planned
    have gone := value?_of_affected tracks next outside listed
    rw [action, next, gone, undisturbed.folded]
    refine if_neg ?_
    rw [(PropertyMap.contains_eq_false_iff _ _).2 gone]
    exact Bool.false_ne_true
  rw [FlushDecision.carryOut_of_idle leaves undisturbed.tones undisturbed.adopted recomputed,
    undisturbed.folded]

/-- A flush that finds nothing to do changes no text and reports so. -/
theorem flush_of_seen (tracks : watcher.Tracks) (isEnabled : watcher.isEnabled = true)
    (steady : watcher.pending.needsRecompute = false)
    (seen : ∀ name value, watcher.current.map.value? name = some value →
      watcher.liveDiffers name = false) :
    watcher.flush.2 = some {} ∧ watcher.flush.1.registry = watcher.registry := by
  have idle := carryOut_of_seen tracks steady seen
  have live := (settled_runFlush watcher).registry
  have said := report_runFlush watcher
  rw [idle] at live said
  rw [flush_eq, isEnabled]
  generalize watcher.runFlush = made at live said ⊢
  split
  · next disabled => cases disabled
  · split
    · exact ⟨rfl, rfl⟩
    · exact ⟨congrArg some said, live⟩

/-! ## After a flush -/

/-- A watcher that is switched on and has nothing to do. -/
structure IsRested (watcher : Watcher) : Prop where
  isEnabled : watcher.isEnabled = true
  pending : watcher.pending.isEmpty = true

/-- A watcher that is switched on rests after a flush. -/
theorem isRested_flush (isEnabled : watcher.isEnabled = true) : watcher.flush.1.IsRested := by
  rcases watcher.flush_cases with ⟨rest, unchanged, -⟩ | ⟨-, -, made, -⟩
  · rw [unchanged]
    exact ⟨isEnabled, rest.resolve_left (by rw [isEnabled]; exact nofun)⟩
  · have settled := settled_runFlush watcher
    have folded : watcher.decideFlush.folded.isEnabled = watcher.isEnabled :=
      view_folded Watcher.isEnabled (fun _ _ _ => rfl) (fun _ _ _ => rfl) watcher
    rw [made]
    refine ⟨?_, ?_⟩
    · rw [settled.isEnabled, folded, isEnabled]
    · rw [settled.pending]
      rfl

/-- An aware watcher that rests shows the text that was seen last everywhere. -/
theorem IsAware.liveDiffers (aware : watcher.IsAware) (rested : watcher.IsRested)
    {value : Value} (held : watcher.current.map.value? name = some value) :
    watcher.liveDiffers name = false :=
  (aware.knows name value held).resolve_left (aware.noted rested.pending name)

/-- What a watcher keeps while it is only told of events. -/
structure Echoes (flushed watcher : Watcher) : Prop where
  isEnabled : watcher.isEnabled = flushed.isEnabled
  registry : watcher.registry = flushed.registry
  documents : SameDocuments flushed watcher
  keeps : ∀ name, flushed.Keeps watcher name

theorem echoes_of_notices {notices : List Operation}
    (told : ∀ notice ∈ notices, notice.IsNotice) :
    watcher.Echoes (notices.foldl operate watcher) := by
  have single (earlier : Watcher) (echoes : watcher.Echoes earlier) {notice : Operation}
      (isNotice : notice.IsNotice) : watcher.Echoes (earlier.operate notice) := by
    cases notice with
    | notify event =>
        exact ⟨echoes.isEnabled, echoes.registry,
          echoes.documents.trans (sameDocuments_notify earlier event),
          fun name => (echoes.keeps name).trans (keeps_operate trivial)⟩
    | takeEvents =>
        exact ⟨echoes.isEnabled, echoes.registry,
          echoes.documents.trans ⟨rfl, rfl, rfl, rfl⟩,
          fun name => (echoes.keeps name).trans (keeps_operate trivial)⟩
    | _ => exact isNotice.elim
  induction notices using List.reverseRecOn with
  | nil => exact ⟨rfl, rfl, sameDocuments_refl watcher, keeps_refl watcher⟩
  | append_singleton notices notice inductionHypothesis =>
      rw [List.foldl_append]
      exact single _
        (inductionHypothesis fun earlier member => told earlier (List.mem_append_left _ member))
        (told notice (List.mem_append_right _ List.mem_cons_self))

/-- A flush or a check switches nothing on or off, and it leaves a watcher at rest or does
nothing. -/
theorem operate_cases_of_flushes (watcher : Watcher) {operation : Operation}
    (flushes : operation = .flush ∨ operation = .check) :
    (watcher.isEnabled = false ∧ watcher.operate operation = watcher) ∨
      (watcher.isEnabled = true ∧ (watcher.operate operation).IsRested) := by
  cases isEnabled : watcher.isEnabled with
  | false =>
      refine .inl ⟨rfl, ?_⟩
      rcases flushes with rfl | rfl
      · rw [operate, flush_eq, isEnabled]
        rfl
      · rw [operate, check_eq, isEnabled]
        rfl
  | true =>
      refine .inr ⟨rfl, ?_⟩
      rcases flushes with rfl | rfl
      · exact isRested_flush isEnabled
      · obtain ⟨noticed, notices⟩ := exists_noticed isEnabled
        rw [operate, notices.check]
        exact isRested_flush notices.isEnabled

/-- As long as nobody but an attached watcher writes the registry, whatever the watcher is
told right after a flush or a check, flushing again does nothing. If it is switched on it
reports that nothing was computed, written, removed, folded back, kept or replaced, and in
any case the registry stays as it is. -/
theorem flush_of_notices (owns : watcher.OwnsRegistry) {operation : Operation}
    (flushes : operation = .flush ∨ operation = .check) {notices : List Operation}
    (told : ∀ notice ∈ notices, notice.IsNotice) :
    (notices.foldl operate (watcher.operate operation)).flush.2 =
        (if watcher.isEnabled then some {} else none) ∧
      (notices.foldl operate (watcher.operate operation)).flush.1.registry =
        (watcher.operate operation).registry := by
  have own : operation.IsOwn := by
    rcases flushes with rfl | rfl <;> trivial
  have aware := owns.isAware.operate own
  have cases := watcher.operate_cases_of_flushes flushes
  generalize watcher.operate operation = flushed at aware cases ⊢
  have echoes : flushed.Echoes (notices.foldl operate flushed) := echoes_of_notices told
  generalize notices.foldl operate flushed = heard at echoes ⊢
  rw [← echoes.registry]
  rcases cases with ⟨disabled, rfl⟩ | ⟨isEnabled, rested⟩
  · rw [flush_eq, echoes.isEnabled, disabled]
    exact ⟨rfl, rfl⟩
  · have steady : heard.pending.needsRecompute = false :=
      echoes.documents.pending.trans (Pending.needsRecompute_of_isEmpty rested.pending)
    rw [isEnabled]
    refine flush_of_seen (echoes.documents.tracks aware.tracks)
      (echoes.isEnabled.trans rested.isEnabled) steady fun name value held => ?_
    rw [echoes.documents.current] at held
    rw [(echoes.keeps name).liveDiffers]
    exact aware.liveDiffers rested held

end Watcher

/-- A watcher that is attached at once owns its registry while it alone is used. -/
theorem Sample.ownsRegistry_attached (configuration : Configuration) {operations : List Operation}
    (own : ∀ operation ∈ operations, operation.IsOwn) :
    (attached configuration operations).OwnsRegistry := by
  induction operations using List.reverseRecOn with
  | nil => exact .attached ⟨configuration, .empty, [], rfl⟩ 0
  | append_singleton operations operation inductionHypothesis =>
      rw [attached, ← List.cons_append, List.foldl_append]
      exact .operated
        (inductionHypothesis fun earlier member => own earlier (List.mem_append_left _ member))
        (own operation (List.mem_append_right _ List.mem_cons_self))

namespace Watcher

/-- Taking the events of a watcher and telling it of each. -/
def retelling (watcher : Watcher) : List Operation :=
  .takeEvents :: watcher.outbox.map .notify

/-- A component is set to another tone by a live write and is kept. Being told of all that
it has announced, of the component too, the watcher does nothing. -/
theorem flush_of_notices_label :
    ∃ watcher flushed : Watcher, watcher.OwnsRegistry ∧ flushed = watcher.operate .flush ∧
      (watcher.report? .flush).map FlushReport.kept = some [Sample.label] ∧
      (∃ event ∈ flushed.outbox, Sample.label ∈ event.names) ∧
      (flushed.retelling.foldl operate flushed).pending.isEmpty = false ∧
      (flushed.retelling.foldl operate flushed).flush.2 = some {} ∧
      (flushed.retelling.foldl operate flushed).flush.1.registry = flushed.registry := by
  have facts : (fun (watcher flushed : Watcher) =>
      watcher.isEnabled = true ∧
        (watcher.report? .flush).map FlushReport.kept = some [Sample.label] ∧
        (∃ event ∈ flushed.outbox, Sample.label ∈ event.names) ∧
        (flushed.retelling.foldl operate flushed).pending.isEmpty = false)
      (Sample.attached Sample.labelled [.writeLive Sample.label "var(--tokens-color-gray-900)"])
      ((Sample.attached Sample.labelled
        [.writeLive Sample.label "var(--tokens-color-gray-900)"]).operate .flush) := by
    decide +kernel
  have owns : (Sample.attached Sample.labelled
      [.writeLive Sample.label "var(--tokens-color-gray-900)"]).OwnsRegistry :=
    Sample.ownsRegistry_attached Sample.labelled (by simp [Operation.IsOwn])
  generalize Sample.attached Sample.labelled _ = watcher at facts owns
  obtain ⟨isEnabled, kept, announced, isPending⟩ := facts
  have told : ∀ notice ∈ (watcher.operate .flush).retelling, notice.IsNotice := by
    simp [retelling, Operation.IsNotice]
  have quiet := flush_of_notices owns (.inl rfl) told
  rw [isEnabled] at quiet
  exact ⟨watcher, _, owns, rfl, kept, announced, isPending, quiet⟩

end Watcher

end Legible
