import Legible.Proofs.Watch.Passes

/-!
# What a watcher has seen

Whatever a watcher does to the registry, it takes the texts that it leaves as seen: when
it is attached, after a fix pass and after a flush. A live write is noted. So as long as
nobody else writes, every computed property shows the text that was seen last, or a change
of it is noted for the next flush.
-/

namespace Legible

open Property

/-- Whether the registry is left alone, or changed by the watcher itself. -/
def Operation.IsOwn : Operation → Prop
  | .setOutside _ _ | .unsetOutside _ => False
  | _ => True

/-- Everything watched is taken as seen. -/
theorem Interest.baseline?_record (interest : Interest) (map : PropertyMap) (registry : Registry)
    (name : Name) :
    (interest.record map registry).baseline? name =
      if name ∈ interest.names map then some (registry.get? name)
      else interest.baseline? name := by
  rw [record, baseline?_remember]
  exact if_congr Std.TreeSet.mem_toList rfl rfl

namespace Watcher

variable {watcher : Watcher} {name : Name} {value : Value}

/-- A property shows the text that was seen last, or a change of it was noted. -/
def Knows (watcher : Watcher) (name : Name) : Prop :=
  name ∈ watcher.liveRoots ∨ watcher.liveDiffers name = false

/-- What is kept of a property is known as before. -/
theorem Keeps.knows {first second : Watcher} (keeps : first.Keeps second name)
    (knows : first.Knows name) : second.Knows name :=
  knows.imp keeps.root keeps.liveDiffers.trans

/-- A text that was just seen does not differ. -/
theorem liveDiffers_of_seen
    (seen : watcher.interest.baseline? name = some (watcher.registry.get? name)) :
    watcher.liveDiffers name = false := by
  rw [liveDiffers, seen]
  exact bne_self_eq_false _

/-! ## Operations that write -/

theorem knows_runFix (knows : watcher.Knows name) (issues : List Issue) :
    (watcher.runFix issues).1.Knows name := by
  by_cases targeted : name ∈ fixTargets watcher.current.map issues
  · refine .inr (liveDiffers_of_seen ?_)
    exact (Interest.baseline?_remember _ _ _ _).trans
      (if_pos (Std.TreeSet.mem_toList.2 targeted))
  · exact (keeps_runFix targeted).knows knows

theorem knows_validate (knows : watcher.Knows name) (now : Nat) :
    (watcher.validate now).1.Knows name := by
  rcases watcher.validate_cases now with unchanged | ⟨guard, issues, fixed, -⟩
  · rw [unchanged]
    exact knows
  · have guarded : ({ watcher with guard } : Watcher).Knows name := knows
    rw [fixed]
    exact knows_runFix guarded issues

/-- Attaching takes the whole map as seen. -/
theorem knows_attach (held : watcher.current.map.value? name = some value) (now : Nat) :
    (watcher.attach now).1.Knows name := by
  have written : watcher.writeMap.1.Knows name := by
    refine .inr (liveDiffers_of_seen ?_)
    exact (Interest.baseline?_remember _ _ _ _).trans
      (if_pos ((PropertyMap.mem_names _ _).2 ⟨value, held⟩))
  rw [attach_eq]
  generalize watcher.writeMap = made at written ⊢
  split
  · exact written
  · exact knows_validate written now

/-- A live write is noted. -/
theorem knows_writeLive (knows : watcher.Knows name) (other : Name) (text : String) :
    (watcher.operate (.writeLive other text)).Knows name := by
  by_cases same : other = name
  · subst same
    rcases watcher.operate_writeLive_cases other text with unchanged | ⟨_, _, -, written⟩
    · rw [unchanged]
      exact knows
    · rw [written]
      exact .inl Std.TreeSet.mem_insert_self
  · have keeps : watcher.Keeps (watcher.operate (.writeLive other text)) name :=
      keeps_operate same
    exact keeps.knows knows

/-! ## A pass -/

/-- An on-tone that is chosen again was derived from a live tone, if the next map holds it. -/
theorem mem_affected_of_tones_writes (tracks : watcher.Tracks)
    (written : name ∈ watcher.decideFlush.tones.writes.map Prod.fst)
    (held : watcher.decideFlush.next.map.value? name = some value) :
    name ∈ watcher.decideFlush.affected := by
  obtain ⟨⟨_, chosen⟩, listed, rfl⟩ := List.mem_map.1 written
  rw [tones_decideFlush] at listed
  obtain ⟨override, live, -, rfl, -⟩ :=
    (TonePlan.settles_ofOverrides _ _ _).writes _ chosen listed
  have named := @tone_of_mem_tones { watcher with liveRoots := ∅ } tracks.computed _ _ live
  rw [tracks.next] at held
  obtain ⟨origin, derived, back⟩ :=
    Option.bind_eq_some_iff.1 (Configuration.background?_of_onToneProperty held)
  obtain ⟨_, rests⟩ := Configuration.rests_of_origin? derived
  rw [← tracks.next] at derived
  refine mem_affected_of_input derived (rests.background _ back) ?_
  rw [← named]
  exact mem_affected_of_root (List.mem_append_right _ (mem_tones.1 live).1)

/-- A pass leaves the text of a computed property that it does not look at. -/
theorem Outcome.get?_of_unaffected {report : FlushReport} {state : Store × FlushReport}
    (tracks : watcher.Tracks) (outcome : watcher.Outcome report state)
    (unaffected : name ∉ watcher.decideFlush.affected)
    (held : watcher.decideFlush.next.map.value? name = some value) :
    watcher.flush.1.registry.get? name = watcher.registry.get? name := by
  have unplanned (action : Action) : (name, action) ∉ watcher.decideFlush.actions :=
    fun planned => unaffected (FlushDecision.mem_actions.1 planned).1
  have uncontested (contest : Contest)
      (listed : contest ∈ watcher.decideFlush.plan.contests) : contest.name ≠ name := by
    rintro rfl
    exact unplanned _ (FlushPlan.mem_contests.1 listed)
  have unwritten : name ∉ watcher.decideFlush.writes.map Prod.fst := by
    rw [FlushDecision.mem_writes]
    rintro (onTone | ⟨value, planned⟩)
    · exact unaffected (mem_affected_of_tones_writes tracks onTone held)
    · exact unplanned _ planned
  rw [outcome.get?_of_uncontested tracks uncontested,
    outcome.applied.get?_of_unwritten unwritten, if_neg (unplanned _),
    (folds_decideFlush watcher).store]
  rfl

/-- After a pass a property was just seen, or it is neither affected nor noted with another
text, and what was seen of it is as before. -/
theorem baseline?_runFlush (watcher : Watcher) (name : Name) :
    watcher.runFlush.1.interest.baseline? name =
        some (watcher.runFlush.1.registry.get? name) ∨
      name ∉ watcher.decideFlush.affected ∧ name ∉ watcher.decideFlush.changed ∧
        watcher.runFlush.1.interest.baseline? name = watcher.interest.baseline? name := by
  have folded : watcher.decideFlush.folded.interest = watcher.interest :=
    view_folded Watcher.interest (fun _ _ _ => rfl) (fun _ _ _ => rfl) watcher
  rw [(settled_runFlush watcher).registry, runFlush]
  generalize watcher.decideFlush = decision at folded ⊢
  rw [← folded]
  dsimp only
  rw [(seen_settle _ _ _ _ _ _).2, Interest.baseline?_remember, Interest.baseline?_record]
  split
  · exact .inl rfl
  · next unseen =>
      rw [List.mem_append, not_or] at unseen
      split
      · exact .inl rfl
      · exact .inr ⟨unseen.1, unseen.2, rfl⟩

/-- A pass that knows every computed property leaves none with another text than was seen. -/
theorem liveDiffers_runFlush (tracks : watcher.Tracks)
    (knows : ∀ name value, watcher.current.map.value? name = some value → watcher.Knows name)
    {report : FlushReport} {state : Store × FlushReport} (outcome : watcher.Outcome report state)
    (made : watcher.flush.1 = watcher.runFlush.1)
    (held : watcher.flush.1.current.map.value? name = some value) :
    watcher.flush.1.liveDiffers name = false := by
  rcases watcher.baseline?_runFlush name with seen | ⟨unaffected, unchanged, baseline⟩
  · rw [made]
    exact liveDiffers_of_seen seen
  · rw [outcome.current] at held
    have live := outcome.get?_of_unaffected tracks unaffected held
    have before : watcher.liveDiffers name = false := by
      rw [value?_of_unaffected tracks unaffected] at held
      refine (knows name value held).elim (fun root => ?_) id
      refine Bool.of_not_eq_true fun differs => unchanged ?_
      rw [changed_decideFlush]
      exact List.mem_filter.2 ⟨Std.TreeSet.mem_toList.2 root, differs⟩
    have same := value?_of_unaffected tracks unaffected
    rw [← made] at baseline
    rw [← outcome.current] at same
    rw [registry, registry] at live
    rw [liveDiffers, Store.get?, baseline, same, live]
    exact before

/-! ## What is noted -/

/-- When nothing is pending, no live change was noted. -/
def IsNoted (watcher : Watcher) : Prop :=
  watcher.pending.isEmpty = true → ∀ name, name ∉ watcher.liveRoots

theorem IsNoted.flush (noted : watcher.IsNoted) : watcher.flush.1.IsNoted := by
  rcases watcher.flush_cases with ⟨-, unchanged, -⟩ | ⟨-, -, made, -⟩
  · rw [unchanged]
    exact noted
  · intro _ name member
    have folded : watcher.decideFlush.folded.liveRoots = ∅ :=
      view_folded Watcher.liveRoots (fun _ _ _ => rfl) (fun _ _ _ => rfl) watcher
    rw [made, (settled_runFlush watcher).liveRoots, folded] at member
    exact Std.TreeSet.not_mem_emptyc member

/-- A watcher for which something is pending may have anything noted. -/
theorem isNoted_of_pending (isPending : watcher.pending.isEmpty = false) : watcher.IsNoted := by
  intro empty
  rw [isPending] at empty
  cases empty

theorem IsNoted.validate (noted : watcher.IsNoted) (now : Nat) :
    (watcher.validate now).1.IsNoted := by
  rcases watcher.validate_cases now with unchanged | ⟨guard, issues, fixed, -⟩
  · rw [unchanged]
    exact noted
  · rw [fixed]
    exact noted

theorem IsNoted.operate (noted : watcher.IsNoted) (operation : Operation) :
    (watcher.operate operation).IsNoted := by
  cases operation with
  | mutate mutation =>
      rw [Watcher.operate]
      rcases watcher.mutate_cases mutation with unchanged | stale
      · rw [unchanged]
        exact noted
      · refine isNoted_of_pending (Bool.of_not_eq_true fun empty => ?_)
        have steady := Pending.needsRecompute_of_isEmpty empty
        rw [stale.pending] at steady
        cases steady
  | attach now =>
      have written : watcher.writeMap.1.IsNoted := noted
      rw [Watcher.operate, attach_eq]
      generalize watcher.writeMap = made at written ⊢
      split
      · exact written
      · exact written.validate now
  | notify event => exact isNoted_of_pending (Pending.isEmpty_insert _ _)
  | writeLive name text =>
      rcases watcher.operate_writeLive_cases name text with unchanged | ⟨_, _, -, written⟩
      · rw [unchanged]
        exact noted
      · rw [written]
        exact isNoted_of_pending (Pending.isEmpty_insert _ _)
  | flush => exact noted.flush
  | check =>
      rw [Watcher.operate]
      rcases watcher.check_cases with unchanged | flushed | ⟨roots, flushed⟩
      · rw [unchanged]
        exact noted
      · rw [flushed]
        exact noted.flush
      · rw [flushed]
        exact (isNoted_of_pending (Pending.isEmpty_insert _ _)).flush
  | validate now => exact noted.validate now
  | _ => exact noted

theorem Reachable.isNoted (reachable : watcher.Reachable) : watcher.IsNoted :=
  reachable.invariant (fun _ _ _ _ => Std.TreeSet.not_mem_emptyc)
    fun _ operation noted => noted.operate operation

/-! ## Runs -/

/-- A watcher that knows every computed property. -/
structure IsAware (watcher : Watcher) : Prop where
  tracks : watcher.Tracks
  noted : watcher.IsNoted
  knows : ∀ name value, watcher.current.map.value? name = some value → watcher.Knows name

theorem isAware_attach (reachable : watcher.Reachable) (now : Nat) :
    (watcher.attach now).1.IsAware where
  tracks := reachable.tracks.operate (.attach now)
  noted := reachable.isNoted.operate (.attach now)
  knows name value held := by
    rw [(sameDocuments_attach watcher now).current] at held
    exact knows_attach held now

theorem IsAware.flush (aware : watcher.IsAware) : watcher.flush.1.IsAware := by
  rcases watcher.flush_cases with ⟨-, unchanged, -⟩ | ⟨-, -, made, reported⟩
  · rw [unchanged]
    exact aware
  · obtain ⟨state, outcome⟩ := outcome_of_pass aware.tracks reported made reported
    exact ⟨aware.tracks.flush, aware.noted.flush, fun name value held =>
      .inr (liveDiffers_runFlush aware.tracks aware.knows outcome made held)⟩

/-- What an aware watcher notices in a check it is aware of too. -/
theorem Noticed.isAware {noticed : Watcher} (notices : watcher.Noticed noticed)
    (aware : watcher.IsAware) : noticed.IsAware where
  tracks := notices.documents.tracks aware.tracks
  noted empty := notices.unchanged empty ▸ aware.noted (notices.unchanged empty ▸ empty)
  knows name value held := by
    rw [notices.documents.current] at held
    exact (notices.keeps name).knows (aware.knows name value held)

theorem IsAware.check (aware : watcher.IsAware) : watcher.check.1.IsAware := by
  cases isEnabled : watcher.isEnabled with
  | false =>
      rw [check_eq, isEnabled]
      exact aware
  | true =>
      obtain ⟨noticed, notices⟩ := exists_noticed isEnabled
      rw [notices.check]
      exact (notices.isAware aware).flush

/-- A watcher stays aware as long as nobody else writes. -/
theorem IsAware.operate (aware : watcher.IsAware) {operation : Operation}
    (own : operation.IsOwn) : (watcher.operate operation).IsAware := by
  refine ⟨aware.tracks.operate operation, aware.noted.operate operation,
    fun name value held => ?_⟩
  have kept (keeps : watcher.Keeps (watcher.operate operation) name) :
      (watcher.operate operation).Knows name :=
    keeps.knows (aware.knows name value (keeps.current ▸ held))
  cases operation with
  | mutate mutation => exact kept (keeps_operate trivial)
  | watch target =>
      by_cases covered : name ∈ target.expand watcher.current.map
      · refine .inr (liveDiffers_of_seen ?_)
        refine (Interest.baseline?_insert _ _ _).trans ?_
        exact (Interest.baseline?_remember _ _ _ _).trans (if_pos covered)
      · exact kept (keeps_operate covered)
  | unwatch target => exact kept (keeps_operate trivial)
  | attach now =>
      rw [Watcher.operate, (sameDocuments_attach watcher now).current] at held
      exact knows_attach held now
  | notify event => exact kept (keeps_operate trivial)
  | writeLive other text =>
      rw [(sameDocuments_operate_writeLive watcher other text).current] at held
      exact knows_writeLive (aware.knows name value held) other text
  | flush => exact aware.flush.knows name value held
  | check => exact aware.check.knows name value held
  | validate now =>
      rw [Watcher.operate, (sameDocuments_validate watcher now).current] at held
      exact knows_validate (aware.knows name value held) now
  | enable => exact kept (keeps_operate trivial)
  | disable => exact kept (keeps_operate trivial)
  | takeEvents => exact kept (keeps_operate trivial)
  | setOutside other text => exact own.elim
  | unsetOutside other => exact own.elim

/-- Since it was attached, nobody but the watcher has written the registry. -/
inductive OwnsRegistry : Watcher → Prop where
  | attached {watcher : Watcher} (reachable : watcher.Reachable) (now : Nat) :
      OwnsRegistry (watcher.operate (.attach now))
  | operated {watcher : Watcher} {operation : Operation} (owns : OwnsRegistry watcher)
      (own : operation.IsOwn) : OwnsRegistry (watcher.operate operation)

theorem OwnsRegistry.isAware (owns : watcher.OwnsRegistry) : watcher.IsAware := by
  induction owns with
  | attached reachable now => exact isAware_attach reachable now
  | operated _ own inductionHypothesis => exact inductionHypothesis.operate own

end Watcher

end Legible
