import Legible.Proofs.Watch.Baseline

/-!
# Fix passes

A validation makes a fix pass when it finds errors that may be tried, the watcher is
enabled, and no earlier pass is cooling down. The guard of a watcher changes with the
options, with a pass, and with a flush that computes the map again, and in no other way.
So no pass begins before the cooldown of an earlier one is over, and what a pass has
given up is tried again only after the map was computed again.
-/

namespace Legible

open Property

/-- A fix pass, with the issues that it tried sorted by what became of them. -/
structure FixPass where
  begun : Nat
  /-- The cooldown that was configured when the pass began. -/
  cooldown : Nat
  /-- The issues that were gone afterwards. -/
  fixed : List Issue
  /-- The issues that were still there afterwards. -/
  gaveUp : List Issue
  deriving DecidableEq, Repr

/-- The issues that a pass tried. -/
def FixPass.tried (pass : FixPass) : List Issue := pass.fixed ++ pass.gaveUp

namespace FixGuard

variable {guard begun : FixGuard} {now later : Nat} {issue : Issue}

/-- A guard under which a pass has begun rests as long as it did before, and until the
cooldown is over. -/
theorem isFixing_of_begin? (ok : guard.begin? now = some begun) :
    (guard.isFixing later = true ∨ later < now + guard.cooldown) → begun.isFixing later = true := by
  rw [begin?] at ok
  split at ok
  · cases ok
  · next rested =>
      cases ok
      simp only [isFixing, Option.any_some, decide_eq_true_eq]
      rintro (resting | soon)
      · obtain ⟨limit, held, before⟩ := (Option.any_eq_true _ _).1 resting
        have past : ¬now < limit := by
          simpa [isFixing, held] using rested
        have before : later < limit := by simpa using before
        omega
      · exact soon

/-- Beginning a pass leaves the cooldown and what was given up. -/
theorem of_begin? (ok : guard.begin? now = some begun) :
    guard.isFixing now = false ∧ begun.cooldown = guard.cooldown ∧
      begun.unfixable = guard.unfixable := by
  rw [begin?] at ok
  split at ok
  · cases ok
  · next rested =>
      cases ok
      exact ⟨Bool.eq_false_iff.2 rested, rfl, rfl⟩

/-- Giving issues up only adds to what is not tried again. -/
theorem foldl_giveUp (guard : FixGuard) (issues : List Issue) :
    (issues.foldl giveUp guard).cooldown = guard.cooldown ∧
      (issues.foldl giveUp guard).fixingUntil = guard.fixingUntil ∧
      ∀ issue, (issues.foldl giveUp guard).isFixable issue = false ↔
        guard.isFixable issue = false ∨
          ∃ given ∈ issues, given.fingerprint = issue.fingerprint := by
  induction issues generalizing guard with
  | nil => simp
  | cons first rest inductionHypothesis =>
      obtain ⟨cooldown, limit, unfixable⟩ := inductionHypothesis (guard.giveUp first)
      refine ⟨cooldown, limit, fun issue => ?_⟩
      rw [List.foldl_cons, unfixable]
      simp only [isFixable, giveUp, Bool.not_eq_false', Std.TreeSet.contains_insert,
        Bool.or_eq_true, beq_iff_eq, List.mem_cons, exists_eq_or_imp,
        Std.LawfulEqCmp.compare_eq_iff_eq]
      tauto

end FixGuard

namespace Watcher

variable {watcher : Watcher} {now : Nat} {pass : FixPass}

/-- The live errors that a fix pass may try. -/
def fixable (watcher : Watcher) : List Issue :=
  (watcher.current.liveIssues watcher.registry).filter fun issue =>
    issue.isError && watcher.guard.isFixable issue

/-- The fix pass that a validation makes, if it makes one. -/
def validationPass? (watcher : Watcher) (now : Nat) : Option FixPass :=
  if watcher.fixable.isEmpty || !watcher.isEnabled then none
  else (watcher.guard.begin? now).map fun guard =>
    let sorted := ({ watcher with guard }.runFix watcher.fixable).2
    { begun := now
      cooldown := watcher.configuration.options.fixCooldown
      fixed := sorted.1
      gaveUp := sorted.2 }

/-- The fix pass that an operation makes, if it makes one. Attaching validates the first
time, after the map is written. -/
def pass? (watcher : Watcher) : Operation → Option FixPass
  | .validate now => watcher.validationPass? now
  | .attach now =>
      if watcher.isAttached then none else watcher.writeMap.1.validationPass? now
  | _ => none

/-- The properties that a fix pass writes, with their computed values. -/
def fixWrites (map : PropertyMap) (issues : List Issue) : List (Name × Value) :=
  (fixTargets map issues).toList.filterMap fun name =>
    (map.value? name).map fun value => (name, value)

/-- After a validation an error is live with the fingerprint of an issue. -/
def Survives (watcher : Watcher) (now : Nat) (issue : Issue) : Prop :=
  ∃ other ∈ watcher.current.liveIssues (watcher.validate now).1.registry,
    other.fingerprint = issue.fingerprint

/-- What a validation that makes a fix pass begins with, and what it leaves. -/
structure Makes (watcher : Watcher) (now : Nat) (pass : FixPass) : Prop where
  begun : pass.begun = now
  cooldown : pass.cooldown = watcher.configuration.options.fixCooldown
  isEnabled : watcher.isEnabled = true
  fixable : watcher.fixable ≠ []
  gaveUp : ∀ issue, issue ∈ pass.gaveUp ↔ issue ∈ watcher.fixable ∧ watcher.Survives now issue
  fixed : ∀ issue, issue ∈ pass.fixed ↔ issue ∈ watcher.fixable ∧ ¬watcher.Survives now issue
  guard : ∃ begun, watcher.guard.begin? now = some begun ∧
    (watcher.validate now).1.guard = pass.gaveUp.foldl FixGuard.giveUp begun
  registry : (watcher.validate now).1.registry =
    (watcher.store.applyValues (fixWrites watcher.current.map watcher.fixable)
      watcher.configuration.index).1.registry
  reportedFixed : (watcher.validate now).2.fixed =
    pass.fixed.map fun issue => Name.ofText issue.locus
  reportedGaveUp : (watcher.validate now).2.gaveUp =
    pass.gaveUp.map fun issue => Name.ofText issue.locus

/-- A fix pass writes its targets, and has the guard remember what it gives up. -/
theorem written_runFix (watcher : Watcher) (issues : List Issue) :
    (watcher.runFix issues).1.registry =
        (watcher.store.applyValues (fixWrites watcher.current.map issues)
          watcher.configuration.index).1.registry ∧
      (watcher.runFix issues).1.guard =
        (watcher.runFix issues).2.2.foldl FixGuard.giveUp watcher.guard := ⟨rfl, rfl⟩

/-- A fix pass sorts its issues by whether an error with the same fingerprint is live
afterwards. -/
theorem sorted_runFix (watcher : Watcher) (issues : List Issue) (issue : Issue) :
    let survives := ∃ other ∈ watcher.current.liveIssues (watcher.runFix issues).1.registry,
      other.fingerprint = issue.fingerprint
    (issue ∈ (watcher.runFix issues).2.1 ↔ issue ∈ issues ∧ ¬survives) ∧
      (issue ∈ (watcher.runFix issues).2.2 ↔ issue ∈ issues ∧ survives) := by
  obtain ⟨remaining, own, fixed, survivors⟩ : ∃ remaining : List String,
      remaining = ((watcher.current.liveIssues (watcher.runFix issues).1.registry).filter
        Issue.isError).map Issue.fingerprint ∧
      (watcher.runFix issues).2.1 =
        (issues.partition fun issue => remaining.contains issue.fingerprint).2 ∧
      (watcher.runFix issues).2.2 =
        (issues.partition fun issue => remaining.contains issue.fingerprint).1 := ⟨_, rfl, rfl, rfl⟩
  have survives : remaining.contains issue.fingerprint = true ↔
      ∃ other ∈ watcher.current.liveIssues (watcher.runFix issues).1.registry,
        other.fingerprint = issue.fingerprint := by
    rw [own, List.contains_iff_mem, List.mem_map]
    refine exists_congr fun other => and_congr_left fun _ => ?_
    rw [List.mem_filter]
    exact and_iff_left_of_imp Computation.isError_of_mem_liveIssues
  dsimp only
  rw [fixed, survivors, List.partition_eq_filter_filter, ← survives]
  simp [List.mem_filter]

/-- A validation with errors to try and with leave to begin tries them. -/
theorem validate_of_begin? {guard : FixGuard} (errors : watcher.fixable.isEmpty = false)
    (isEnabled : watcher.isEnabled = true) (began : watcher.guard.begin? now = some guard) :
    watcher.validate now =
      let made := { watcher with guard }.runFix watcher.fixable
      (made.1,
        { report := watcher.current.report.extend (watcher.current.liveIssues watcher.registry)
          fixed := made.2.1.map fun issue => Name.ofText issue.locus
          gaveUp := made.2.2.map fun issue => Name.ofText issue.locus }) := by
  rw [validate]
  dsimp only
  split
  · next clean =>
      rw [show watcher.fixable.isEmpty = true from clean] at errors
      cases errors
  · split
    · next guard' _ own =>
        cases began.symm.trans own
        rfl
    · next refused => exact absurd began (refused guard isEnabled)

/-- Any other validation changes nothing. -/
theorem validate_of_rest (rest : watcher.fixable.isEmpty = true ∨ watcher.isEnabled = false ∨
    watcher.guard.begin? now = none) :
    (watcher.validate now).1 = watcher ∧ (watcher.validate now).2.fixed = [] ∧
      (watcher.validate now).2.gaveUp = [] := by
  rw [validate]
  dsimp only
  split
  · exact ⟨rfl, rfl, rfl⟩
  · next errors =>
      split
      · next guard isEnabled began =>
          rcases rest with clean | disabled | refused
          · exact absurd clean errors
          · rw [isEnabled] at disabled
            cases disabled
          · rw [began] at refused
            cases refused
      · exact ⟨rfl, rfl, rfl⟩

theorem makes_of_begin? {guard : FixGuard} (errors : watcher.fixable.isEmpty = false)
    (isEnabled : watcher.isEnabled = true) (began : watcher.guard.begin? now = some guard) :
    watcher.Makes now
      { begun := now
        cooldown := watcher.configuration.options.fixCooldown
        fixed := ({ watcher with guard }.runFix watcher.fixable).2.1
        gaveUp := ({ watcher with guard }.runFix watcher.fixable).2.2 } := by
  have shape := validate_of_begin? errors isEnabled began
  have sorted := sorted_runFix { watcher with guard } watcher.fixable
  obtain ⟨written, given⟩ := written_runFix { watcher with guard } watcher.fixable
  generalize ({ watcher with guard }.runFix watcher.fixable) = made at shape sorted given written ⊢
  dsimp only at shape sorted
  refine ⟨rfl, rfl, isEnabled, fun none => ?_, fun issue => ?_, fun issue => ?_,
    ⟨guard, began, ?_⟩, ?_, ?_, ?_⟩
  · rw [none] at errors
    cases errors
  · rw [Survives, shape]
    exact (sorted issue).2
  · rw [Survives, shape]
    exact (sorted issue).1
  · rw [shape]
    exact given
  · rw [shape]
    exact written
  · rw [shape]
  · rw [shape]

/-- A validation makes no pass and changes nothing, or it makes one. -/
theorem validationPass?_cases (watcher : Watcher) (now : Nat) :
    (watcher.validationPass? now = none ∧ (watcher.validate now).1 = watcher ∧
        (watcher.validate now).2.fixed = [] ∧ (watcher.validate now).2.gaveUp = []) ∨
      ∃ pass, watcher.validationPass? now = some pass ∧ watcher.Makes now pass := by
  rw [validationPass?]
  cases errors : watcher.fixable.isEmpty with
  | true => exact .inl ⟨rfl, validate_of_rest (.inl errors)⟩
  | false =>
      cases isEnabled : watcher.isEnabled with
      | false => exact .inl ⟨rfl, validate_of_rest (.inr (.inl isEnabled))⟩
      | true =>
          cases began : watcher.guard.begin? now with
          | none => exact .inl ⟨rfl, validate_of_rest (.inr (.inr began))⟩
          | some guard => exact .inr ⟨_, rfl, makes_of_begin? errors isEnabled began⟩

/-- A validation that makes a pass makes the one that is given. -/
theorem makes_of_validationPass? (made : watcher.validationPass? now = some pass) :
    watcher.Makes now pass := by
  rcases watcher.validationPass?_cases now with ⟨none, -⟩ | ⟨own, given, makes⟩
  · rw [none] at made
    cases made
  · obtain rfl : own = pass := Option.some.inj (given.symm.trans made)
    exact makes

/-- A validation that makes no pass changes nothing. -/
theorem validate_of_validationPass? (none : watcher.validationPass? now = none) :
    (watcher.validate now).1 = watcher := by
  rcases watcher.validationPass?_cases now with ⟨-, unchanged, -⟩ | ⟨own, given, -⟩
  · exact unchanged
  · rw [none] at given
    cases given

/-! ## The guard of a watcher -/

/-- Whatever setting a token and setting a leaf of the theme leave alone, folding live
changes back leaves alone. -/
theorem view_adoptAll {View : Type} (view : Watcher → View)
    (token : ∀ watcher path value, view (setToken watcher path value) = view watcher)
    (leaf : ∀ watcher path reference, view (setThemeLeaf watcher path reference) = view watcher)
    (watcher : Watcher) (changed : List Name) :
    view (adoptAll watcher changed).watcher = view watcher :=
  @relates_adoptAll (fun first second => view second = view first) (fun _ => rfl)
    (fun left right => right.trans left) token leaf watcher changed

/-- What folding back leaves alone is in a pass as it was, once the noted changes are
taken. -/
theorem view_folded {View : Type} (view : Watcher → View)
    (token : ∀ watcher path value, view (setToken watcher path value) = view watcher)
    (leaf : ∀ watcher path reference, view (setThemeLeaf watcher path reference) = view watcher)
    (watcher : Watcher) :
    view watcher.decideFlush.folded = view { watcher with liveRoots := ∅ } :=
  view_adoptAll view token leaf { watcher with liveRoots := ∅ } watcher.decideFlush.changed

/-- A pass resets the guard if it computed the map again, and takes what it looked at and
everything watched as seen. -/
theorem seen_settle (folded : Watcher) (store : Store) (computation : Computation)
    (graph : DependencyGraph) (recomputed : Bool) (seen : List Name) :
    ({ folded with store }.settle computation graph recomputed seen).guard =
        (if recomputed then folded.guard.reset else folded.guard) ∧
      ({ folded with store }.settle computation graph recomputed seen).interest =
        (folded.interest.record computation.map store.registry).remember store.registry seen := by
  rw [settle]
  dsimp only
  rw [announcePalettes_eq]
  exact ⟨rfl, rfl⟩

theorem guard_runFlush (watcher : Watcher) :
    watcher.runFlush.1.guard =
      if watcher.decideFlush.recomputed then watcher.guard.reset else watcher.guard := by
  have folded : watcher.decideFlush.folded.guard = watcher.guard :=
    view_folded Watcher.guard (fun _ _ _ => rfl) (fun _ _ _ => rfl) watcher
  rw [runFlush]
  generalize watcher.decideFlush = decision at folded ⊢
  generalize decision.carryOut = carried
  rw [← folded]
  exact (seen_settle _ _ _ _ _ _).1

/-- A pass reports whether it computed the map again. -/
theorem recomputed_runFlush (watcher : Watcher) :
    watcher.runFlush.2.recomputed = watcher.decideFlush.recomputed := by
  have judged (next : PropertyMap) (index : Token.Index) (contests : List Contest)
      (state : Store × FlushReport) :
      (contests.foldl (Contest.judge next index) state).2.recomputed = state.2.recomputed := by
    induction contests generalizing state with
    | nil => rfl
    | cons contest rest inductionHypothesis =>
        refine (inductionHypothesis _).trans ?_
        rw [Contest.judge]
        split <;> rfl
  rw [report_runFlush]
  generalize watcher.decideFlush = decision
  rw [FlushDecision.carryOut]
  exact judged _ _ _ _

/-- What an operation does to the guard. -/
inductive GuardStep (watcher : Watcher) (operation : Operation) : Prop where
  | kept (same : (watcher.operate operation).guard = watcher.guard)
  | configured {options : Options} (own : operation = .mutate (.setOptions options))
  | passed {pass : FixPass} {begun : FixGuard} (made : watcher.pass? operation = some pass)
      (began : watcher.guard.begin? pass.begun = some begun)
      (gaveUp : (watcher.operate operation).guard = pass.gaveUp.foldl FixGuard.giveUp begun)
  | reset {report : FlushReport} (flushed : watcher.report? operation = some report)
      (recomputed : report.recomputed = true)
      (same : (watcher.operate operation).guard = watcher.guard.reset)

/-- A flush resets the guard if it computed the map again. -/
theorem guard_flush (watcher : Watcher) :
    watcher.flush.1.guard = watcher.guard ∨
      ∃ report, watcher.flush.2 = some report ∧ report.recomputed = true ∧
        watcher.flush.1.guard = watcher.guard.reset := by
  rcases watcher.flush_cases with ⟨-, unchanged, -⟩ | ⟨-, -, made, reported⟩
  · exact .inl (congrArg guard unchanged)
  · have turned := watcher.guard_runFlush
    rw [← made] at turned
    cases recomputed : watcher.decideFlush.recomputed with
    | false =>
        rw [recomputed] at turned
        exact .inl turned
    | true =>
        rw [recomputed] at turned
        exact .inr ⟨_, reported, watcher.recomputed_runFlush.trans recomputed, turned⟩

/-- So does a check, which flushes with the changes of watched properties noted. -/
theorem guard_check (watcher : Watcher) :
    watcher.check.1.guard = watcher.guard ∨
      ∃ report, watcher.check.2 = some report ∧ report.recomputed = true ∧
        watcher.check.1.guard = watcher.guard.reset := by
  rw [check_eq]
  split
  · exact .inl rfl
  · split
    · exact watcher.guard_flush
    · exact guard_flush (note { watcher with
        liveRoots := watcher.liveRoots.insertMany
          (watcher.interest.changed watcher.current.map watcher.registry) } .live)

theorem guard_validate (watcher : Watcher) (now : Nat) :
    (watcher.validate now).1.guard = watcher.guard ∨
      ∃ pass begun, watcher.validationPass? now = some pass ∧
        watcher.guard.begin? pass.begun = some begun ∧
        (watcher.validate now).1.guard = pass.gaveUp.foldl FixGuard.giveUp begun := by
  cases made : watcher.validationPass? now with
  | none => exact .inl (congrArg guard (validate_of_validationPass? made))
  | some pass =>
      have makes := makes_of_validationPass? made
      obtain ⟨begun, began, given⟩ := makes.guard
      rw [← makes.begun] at began
      exact .inr ⟨pass, begun, rfl, began, given⟩

/-- The guard changes with the options, with a fix pass, and with a flush that computes the
map again. -/
theorem guardStep (watcher : Watcher) (operation : Operation) :
    watcher.GuardStep operation := by
  cases operation with
  | mutate mutation =>
      cases mutation with
      | setOptions options => exact .configured rfl
      | deletePalette mode key =>
          refine .kept ?_
          rw [operate, mutate, deletePalette]
          split <;> rfl
      | _ => exact .kept rfl
  | attach now =>
      have writes := writes_writeMap watcher
      cases isAttached : watcher.isAttached with
      | true =>
          refine .kept ?_
          rw [operate, attach_eq, if_pos isAttached]
          exact writes.guard
      | false =>
          have attached := watcher.attach_of_fresh now isAttached
          have passed : watcher.pass? (.attach now) = watcher.writeMap.1.validationPass? now := by
            rw [pass?, isAttached]
            rfl
          rcases watcher.writeMap.1.guard_validate now with
            same | ⟨pass, begun, made, began, given⟩
          · refine .kept ?_
            rw [operate, attached, same, writes.guard]
          · refine .passed (passed.trans made) (writes.guard ▸ began) ?_
            rw [operate, attached, given]
  | validate now =>
      rcases watcher.guard_validate now with same | ⟨pass, begun, made, began, given⟩
      · exact .kept same
      · exact .passed made began given
  | writeLive name text =>
      refine .kept ?_
      rcases watcher.operate_writeLive_cases name text with unchanged | ⟨_, _, -, written⟩
      · rw [unchanged]
      · rw [written]
        rfl
  | flush =>
      rcases watcher.guard_flush with same | ⟨report, flushed, recomputed, same⟩
      · exact .kept same
      · exact .reset flushed recomputed same
  | check =>
      rcases watcher.guard_check with same | ⟨report, flushed, recomputed, same⟩
      · exact .kept same
      · exact .reset flushed recomputed same
  | _ => exact .kept rfl

/-! ## The rules of the guard -/

/-- An operation does not end a cooldown. -/
theorem isFixing_operate {later : Nat} (resting : watcher.guard.isFixing later = true)
    (operation : Operation) : (watcher.operate operation).guard.isFixing later = true := by
  cases watcher.guardStep operation with
  | kept same =>
      rw [same]
      exact resting
  | configured own =>
      rw [own]
      exact resting
  | passed made began gaveUp =>
      rw [gaveUp, FixGuard.isFixing, (FixGuard.foldl_giveUp _ _).2.1]
      exact FixGuard.isFixing_of_begin? began (.inl resting)
  | reset flushed recomputed same =>
      rw [same]
      exact resting

/-- What was given up stays so until the map is computed again. -/
theorem isFixable_operate {issue : Issue} (givenUp : watcher.guard.isFixable issue = false)
    {operation : Operation}
    (steady : ∀ report, watcher.report? operation = some report → report.recomputed = false) :
    (watcher.operate operation).guard.isFixable issue = false := by
  cases watcher.guardStep operation with
  | kept same =>
      rw [same]
      exact givenUp
  | configured own =>
      rw [own]
      exact givenUp
  | passed made began gaveUp =>
      rw [gaveUp, (FixGuard.foldl_giveUp _ _).2.2, FixGuard.isFixable,
        (FixGuard.of_begin? began).2.2]
      exact .inl givenUp
  | reset flushed recomputed same =>
      rw [steady _ flushed] at recomputed
      cases recomputed

/-! ## The configured cooldown -/

/-- The guard has the cooldown that the options ask for. -/
def IsConfigured (watcher : Watcher) : Prop :=
  watcher.guard.cooldown = watcher.configuration.options.fixCooldown

/-- A flush leaves the options. -/
theorem options_flush (watcher : Watcher) :
    watcher.flush.1.configuration.options = watcher.configuration.options := by
  rcases watcher.flush_cases with ⟨-, unchanged, -⟩ | ⟨-, -, made, -⟩
  · rw [unchanged]
  · rw [made, (settled_runFlush watcher).configuration]
    exact view_folded (fun watcher => watcher.configuration.options) (fun _ _ _ => rfl)
      (fun _ _ _ => rfl) watcher

/-- Only setting the options changes them. -/
theorem options_operate {operation : Operation}
    (other : ∀ options, operation ≠ .mutate (.setOptions options)) :
    (watcher.operate operation).configuration.options = watcher.configuration.options := by
  cases operation with
  | mutate mutation =>
      cases mutation with
      | setOptions options => exact absurd rfl (other options)
      | deletePalette mode key =>
          simp only [operate, mutate, deletePalette]
          split <;> rfl
      | _ => rfl
  | attach now =>
      exact congrArg Configuration.options (sameDocuments_attach watcher now).configuration
  | validate now =>
      exact congrArg Configuration.options (sameDocuments_validate watcher now).configuration
  | writeLive name text =>
      exact congrArg Configuration.options
        (sameDocuments_operate_writeLive watcher name text).configuration
  | flush => exact watcher.options_flush
  | check =>
      rcases watcher.check_cases with unchanged | flushed | ⟨roots, noted⟩
      · rw [operate, unchanged]
      · rw [operate, flushed, options_flush]
      · rw [operate, noted, options_flush]
        rfl
  | _ => rfl

theorem IsConfigured.operate (configured : watcher.IsConfigured) (operation : Operation) :
    (watcher.operate operation).IsConfigured := by
  by_cases setting : ∃ options, operation = .mutate (.setOptions options)
  · obtain ⟨options, rfl⟩ := setting
    rfl
  · rw [IsConfigured, options_operate fun options own => setting ⟨options, own⟩, ← configured]
    cases watcher.guardStep operation with
    | kept same => rw [same]
    | configured own => exact absurd ⟨_, own⟩ setting
    | passed made began gaveUp =>
        rw [gaveUp, (FixGuard.foldl_giveUp _ _).1, (FixGuard.of_begin? began).2.1]
    | reset flushed recomputed same =>
        rw [same]
        rfl

/-- In every run the guard has the cooldown that the options ask for. -/
theorem Reachable.isConfigured (reachable : watcher.Reachable) : watcher.IsConfigured :=
  reachable.invariant (fun _ _ => rfl) fun _ operation configured => configured.operate operation

/-! ## Passes of a run -/

/-- An operation that makes a fix pass is a validation, maybe after the map was written. -/
theorem exists_makes {operation : Operation} (made : watcher.pass? operation = some pass) :
    ∃ start now, Makes start now pass ∧ watcher.operate operation = (start.validate now).1 ∧
      start.guard = watcher.guard ∧ start.configuration = watcher.configuration := by
  cases operation with
  | validate now => exact ⟨watcher, now, makes_of_validationPass? made, rfl, rfl, rfl⟩
  | attach now =>
      have writes := writes_writeMap watcher
      rw [pass?] at made
      split at made
      · cases made
      · next fresh =>
          exact ⟨watcher.writeMap.1, now, makes_of_validationPass? made,
            watcher.attach_of_fresh now (Bool.eq_false_iff.2 fresh), writes.guard,
            writes.documents.configuration⟩
  | _ => cases made

/-- A pass leaves the guard cooling down, with what it gave up remembered. -/
theorem guard_of_pass? (configured : watcher.IsConfigured) {operation : Operation}
    (made : watcher.pass? operation = some pass) :
    (∀ later < pass.begun + pass.cooldown,
        (watcher.operate operation).guard.isFixing later = true) ∧
      ∀ issue ∈ pass.gaveUp, (watcher.operate operation).guard.isFixable issue = false := by
  obtain ⟨start, now, makes, operated, guard, configuration⟩ := exists_makes made
  obtain ⟨begun, began, given⟩ := makes.guard
  have cooldown : pass.cooldown = start.guard.cooldown := by
    rw [makes.cooldown, guard, configuration]
    exact configured.symm
  rw [operated, given]
  obtain ⟨-, limit, unfixable⟩ := FixGuard.foldl_giveUp begun pass.gaveUp
  refine ⟨fun later soon => ?_, fun issue listed => (unfixable issue).2 (.inr ⟨issue, listed, rfl⟩)⟩
  rw [makes.begun, cooldown] at soon
  rw [FixGuard.isFixing, limit]
  exact FixGuard.isFixing_of_begin? began (.inr soon)

/-- No pass begins while an earlier one cools down. -/
theorem isFixing_of_pass? {operation : Operation} (made : watcher.pass? operation = some pass) :
    watcher.guard.isFixing pass.begun = false := by
  obtain ⟨start, now, makes, -, guard, -⟩ := exists_makes made
  obtain ⟨begun, began, -⟩ := makes.guard
  rw [makes.begun, ← guard]
  exact (FixGuard.of_begin? began).1

/-- A pass tries nothing that was given up. -/
theorem isFixable_of_tried {operation : Operation} (made : watcher.pass? operation = some pass)
    {issue : Issue} (tried : issue ∈ pass.tried) : watcher.guard.isFixable issue = true := by
  obtain ⟨start, now, makes, -, guard, -⟩ := exists_makes made
  have fixable : issue ∈ start.fixable := (List.mem_append.1 tried).elim
    (fun fixed => ((makes.fixed issue).1 fixed).1) fun gaveUp => ((makes.gaveUp issue).1 gaveUp).1
  rw [← guard]
  exact ((Bool.and_eq_true _ _).mp (List.mem_filter.1 fixable).2).2

theorem isFixing_run {later : Nat} (resting : watcher.guard.isFixing later = true)
    (operations : List Operation) :
    (operations.foldl operate watcher).guard.isFixing later = true := by
  induction operations generalizing watcher with
  | nil => exact resting
  | cons operation rest inductionHypothesis =>
      exact inductionHypothesis (isFixing_operate resting operation)

/-- Whether an operation does not compute the map again. -/
def Steady (watcher : Watcher) (operation : Operation) : Prop :=
  ∀ report, watcher.report? operation = some report → report.recomputed = false

theorem isFixable_run {issue : Issue} (givenUp : watcher.guard.isFixable issue = false)
    {operations : List Operation} (steady : Throughout Steady watcher operations) :
    (operations.foldl operate watcher).guard.isFixable issue = false := by
  induction operations generalizing watcher with
  | nil => exact givenUp
  | cons operation rest inductionHypothesis =>
      exact inductionHypothesis (isFixable_operate givenUp steady.1) steady.2

/-- Whatever is done between two fix passes of a run, the later one begins when the cooldown
that was configured at the earlier one is over. Unless the map was computed again, it tries
nothing with a fingerprint that the earlier one gave up. -/
theorem guarded_of_passes (reachable : watcher.Reachable) {opening closing : Operation}
    {earlier later : FixPass} {between : List Operation}
    (began : watcher.pass? opening = some earlier)
    (again : (between.foldl operate (watcher.operate opening)).pass? closing = some later) :
    earlier.begun + earlier.cooldown ≤ later.begun ∧
      (Throughout Steady (watcher.operate opening) between →
        ∀ issue ∈ later.tried, ∀ given ∈ earlier.gaveUp, issue.fingerprint ≠ given.fingerprint) := by
  obtain ⟨resting, givenUp⟩ := guard_of_pass? reachable.isConfigured began
  constructor
  · refine Nat.le_of_not_lt fun soon => ?_
    have cooling := isFixing_run (resting _ soon) between
    rw [isFixing_of_pass? again] at cooling
    cases cooling
  · intro steady issue tried given listed same
    have remembered := isFixable_run (givenUp given listed) steady
    have fresh := isFixable_of_tried again tried
    rw [FixGuard.isFixable, same] at fresh
    rw [FixGuard.isFixable, fresh] at remembered
    cases remembered

/-- A component turned red, and a stray property beside it, are tried at 5, and the stray one
is given up. Then the cooldown is shortened and the component turned red again. It is left
alone at 900 and fixed at 1005, when the first cooldown is over. -/
theorem guarded_of_passes_label :
    ∃ (watcher : Watcher) (earlier later : FixPass) (between : List Operation),
      watcher.Reachable ∧ watcher.pass? (.validate 5) = some earlier ∧
      (between.foldl operate (watcher.operate (.validate 5))).pass? (.validate 1005) = some later ∧
      Throughout Steady (watcher.operate (.validate 5)) between ∧
      earlier.gaveUp ≠ [] ∧ later.tried ≠ [] ∧
      earlier.begun + earlier.cooldown ≤ later.begun ∧
      ∀ issue ∈ later.tried, ∀ given ∈ earlier.gaveUp, issue.fingerprint ≠ given.fingerprint := by
  have facts : (fun watcher : Watcher =>
      ((watcher.pass? (.validate 5)).any fun pass => !pass.gaveUp.isEmpty) = true ∧
        ((([.mutate (.setOptions { fixCooldown := 0 }), .setOutside Sample.label "red",
          .validate 900].foldl operate (watcher.operate (.validate 5))).pass?
            (.validate 1005)).any fun pass => !pass.tried.isEmpty) = true)
      (Sample.attached Sample.labelled
        [.setOutside Sample.label "red", .setOutside ⟨"--ui-stray"⟩ "red"]) := by
    decide +kernel
  have reachable := Sample.reachable_attached Sample.labelled
    [.setOutside Sample.label "red", .setOutside ⟨"--ui-stray"⟩ "red"]
  generalize Sample.attached Sample.labelled _ = watcher at facts reachable
  obtain ⟨⟨earlier, began, gaveUp⟩, later, again, tried⟩ :=
    facts.imp (Option.any_eq_true _ _).1 (Option.any_eq_true _ _).1
  obtain ⟨rested, untried⟩ := guarded_of_passes reachable began again
  have steady : Throughout Steady (watcher.operate (.validate 5))
      [.mutate (.setOptions { fixCooldown := 0 }), .setOutside Sample.label "red",
        .validate 900] := ⟨nofun, nofun, nofun, trivial⟩
  refine ⟨watcher, earlier, later, _, reachable, began, again, steady, ?_, ?_, rested,
    untried steady⟩
  · rintro none
    rw [none] at gaveUp
    cases gaveUp
  · rintro none
    rw [none] at tried
    cases tried

end Watcher

end Legible
