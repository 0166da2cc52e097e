import Legible.Proofs.Theme.Shown
import Legible.Proofs.Watch.Fixing
import Legible.Proofs.Watch.Passes

/-!
# What a fix pass clears

A fix pass sorts the errors that it tried by kind and property. So a property can be told
as fixed for one error and as given up for another, and an error of another kind can turn
up only when the property was brought back. Neither happens where the store accepts what
was computed, for the property and for its background, and the tokens that these read show
their values: then the property has no error left.
-/

namespace Legible

open Property

/-! ## Where an issue is -/

/-- The fingerprint of an issue tells its kind and its locus. -/
theorem Issue.eq_of_fingerprint {first second : Issue}
    (same : first.fingerprint = second.fingerprint) :
    first.kind.text = second.kind.text ∧ first.locus = second.locus := by
  have plain (kind : IssueKind) : ∀ character ∈ kind.text.toList, (character != ':') = true :=
    List.all_eq_true.1 (by cases kind <;> rfl)
  have spelled (issue : Issue) :
      issue.fingerprint.toList = issue.kind.text.toList ++ ':' :: issue.locus.toList := by
    simp [fingerprint]
  have split : first.kind.text.toList ++ ':' :: first.locus.toList =
      second.kind.text.toList ++ ':' :: second.locus.toList := by
    rw [← spelled, ← spelled, same]
  have kinds := congrArg (List.takeWhile (· != ':')) split
  have loci := congrArg (List.dropWhile (· != ':')) split
  rw [List.takeWhile_append_of_pos (plain _), List.takeWhile_append_of_pos (plain _)] at kinds
  rw [List.dropWhile_append_of_pos (plain _), List.dropWhile_append_of_pos (plain _)] at loci
  refine ⟨String.toList_inj.1 (by simpa using kinds), String.toList_inj.1 (by simpa using loci)⟩

/-- A name of a managed tier is the one that its text stands for. -/
theorem Property.Name.ofText_text {name : Name} (managed : name.tier ≠ .foreign) :
    ofText name.text = name := by
  have dashes (start : String) (begins : "--".toList.isPrefixOf start.toList = true)
      (whole : beginsWith start name.text = true) : beginsWith "--" name.text = true := by
    rw [beginsWith, List.isPrefixOf_iff_prefix] at whole ⊢
    exact (List.isPrefixOf_iff_prefix.1 begins).trans whole
  rw [ofText, if_pos]
  unfold tier at managed
  split at managed
  · next whole => exact dashes _ (by decide) whole
  · split at managed
    · next whole => exact dashes _ (by decide) whole
    · split at managed
      · next whole => exact dashes _ (by decide) whole
      · exact absurd rfl managed

/-- What an inspection finds about a property. -/
inductive Inspection.Finds (computation : Computation) (registry : Registry) (name : Name)
    (issue : Issue) : Prop where
  /-- A computed property is not set. -/
  | unset {value : Value} (held : computation.map.value? name = some value)
      (live : registry.get? name = none)
  /-- The live text is no indirection. -/
  | indirection {text : String} (live : registry.get? name = some text)
      (found : indirectionIssue? name text = some issue)
  /-- The pair with the background has an issue. -/
  | pair {background : Name} (opposite : computation.map.background? name = some background)
      (unknown : isKnown computation.issues name = false)
      (found : measurePair computation.map registry name background = some issue)

/-- An issue about a text is at a name of a managed tier. -/
theorem Inspection.about_indirectionIssue? {name : Name} {text : String} {issue : Issue}
    (found : indirectionIssue? name text = some issue) :
    issue.locus = name.text ∧ name.tier ≠ .foreign := by
  have managed : name.tier ≠ .foreign := by
    intro foreign
    rw [indirectionIssue?, foreign] at found
    cases found
  refine ⟨?_, managed⟩
  unfold indirectionIssue? at found
  dsimp only at found
  repeat' split at found
  all_goals cases found
  all_goals rfl

namespace Configuration

variable {configuration : Configuration} {registry : Registry} {name : Name} {issue : Issue}

/-- Everything that is computed is in a managed tier. -/
theorem tier_of_value? {value : Value}
    (held : configuration.compute.map.value? name = some value) : name.tier ≠ .foreign := by
  obtain ⟨entry, form, -⟩ := form_of_value? held
  cases form with
  | literal path token named =>
      rw [named, Name.tier_ofToken]
      exact nofun
  | tokens tier =>
      rcases tier with tier | tier <;> rw [tier] <;> exact nofun
  | brand tier =>
      rw [tier]
      exact nofun

/-- What an inspection says about a property is found there. -/
theorem finds_of_mem_liveIssues (member : issue ∈ configuration.compute.liveIssues registry)
    (about : Name.ofText issue.locus = name) :
    Inspection.Finds configuration.compute registry name issue := by
  rw [Computation.liveIssues, List.mem_append, List.mem_append] at member
  rcases member with (unset | indirection) | pair
  · obtain ⟨other, ⟨value, held⟩, live, rfl⟩ := Inspection.mem_unsetIssues.1 unset
    rw [Issue.error, Name.ofText_text (tier_of_value? held)] at about
    subst about
    exact .unset held live
  · obtain ⟨other, text, live, found⟩ := Inspection.mem_indirectionIssues.1 indirection
    obtain ⟨locus, managed⟩ := Inspection.about_indirectionIssue? found
    rw [locus, Name.ofText_text managed] at about
    subst about
    exact .indirection live found
  · obtain ⟨other, background, opposite, unknown, found⟩ := Inspection.mem_pairIssues.1 pair
    obtain ⟨value, held⟩ := PropertyMap.value?_of_background? opposite
    rw [(Inspection.isAbout_of_measurePair found).locus,
      Name.ofText_text (tier_of_value? held)] at about
    subst about
    exact .pair opposite unknown found

/-- A property that holds what was computed has no error, if its pair shows what was
computed. -/
theorem ne_of_mem_liveIssues (names : configuration.index.HasPlainNames) {value : Value}
    (held : configuration.compute.map.value? name = some value)
    (live : registry.get? name = some value.render)
    (shown : ∀ background, configuration.compute.map.background? name = some background →
      configuration.ShownAt registry name ∧ configuration.ShownAt registry background)
    (member : issue ∈ configuration.compute.liveIssues registry) :
    Name.ofText issue.locus ≠ name := by
  intro about
  cases finds_of_mem_liveIssues member about with
  | unset _ unset =>
      rw [live] at unset
      cases unset
  | indirection own found =>
      obtain rfl : value.render = _ := Option.some.inj (live.symm.trans own)
      rw [Inspection.indirectionIssue?_eq_none fun tier => ?_] at found
      · cases found
      · rw [read_render_of_value? names held tier]
        exact ⟨isLiteral_of_value? held tier, hasFixedWeight_of_value? held⟩
  | pair opposite unknown found =>
      obtain ⟨front, back⟩ := shown _ opposite
      obtain ⟨_, _, frontShown, backShown, enough⟩ := legible_of_shownAt names opposite front back
      rcases enough with contrast | known
      · rw [Inspection.measurePair_of_legible frontShown backShown contrast] at found
        cases found
      · rw [unknown] at known
        cases known

end Configuration

namespace Watcher

variable {watcher : Watcher} {configuration : Configuration} {now : Nat} {pass : FixPass}
  {name : Name} {value : Value}

/-- The store accepts what was computed for a property. -/
def Accepts (watcher : Watcher) (name : Name) : Prop :=
  ∀ value, watcher.current.map.value? name = some value →
    ∃ verdict, Legible.validate name value watcher.configuration.index = .ok verdict

theorem mem_fixWrites {map : PropertyMap} {issues : List Issue} :
    (name, value) ∈ fixWrites map issues ↔
      name ∈ fixTargets map issues ∧ map.value? name = some value := by
  simp only [fixWrites, List.mem_filterMap, Std.TreeSet.mem_toList, Option.map_eq_some_iff,
    Prod.mk.injEq]
  constructor
  · rintro ⟨target, member, held, found, rfl, rfl⟩
    exact ⟨member, found⟩
  · rintro ⟨member, found⟩
    exact ⟨name, member, value, found, rfl, rfl⟩

/-- A target of a fix pass holds what was computed for it afterwards, if the store accepts
that. -/
theorem Makes.get?_of_accepts (makes : watcher.Makes now pass)
    (computed : watcher.current = configuration.compute)
    (target : name ∈ fixTargets watcher.current.map watcher.fixable)
    (accepts : watcher.Accepts name)
    (held : watcher.current.map.value? name = some value) :
    (watcher.validate now).1.registry.get? name = some value.render := by
  obtain ⟨verdict, ok⟩ := accepts value held
  have unique (other : Value)
      (listed : (name, other) ∈ fixWrites watcher.current.map watcher.fixable) : other = value :=
    Option.some.inj ((mem_fixWrites.1 listed).2.symm.trans held)
  have listed := mem_fixWrites.2 ⟨target, held⟩
  rw [computed] at held
  rw [makes.registry, ← Configuration.value_of_validate held ok]
  exact Store.get?_applyValues_of_ok listed unique ok

/-- A property that is told as fixed was tried, and it is one that was computed: a stray text
is left as it is. -/
theorem Makes.of_mem_fixed (makes : watcher.Makes now pass)
    (computed : watcher.current = configuration.compute)
    (fixed : name ∈ (watcher.validate now).2.fixed) :
    (∃ issue ∈ watcher.fixable, Name.ofText issue.locus = name) ∧
      ∃ value, watcher.current.map.value? name = some value := by
  rw [makes.reportedFixed] at fixed
  obtain ⟨issue, listed, about⟩ := List.mem_map.1 fixed
  obtain ⟨tried, gone⟩ := (makes.fixed issue).1 listed
  refine ⟨⟨issue, tried, about⟩, ?_⟩
  have found := (List.mem_filter.1 tried).1
  rw [computed] at found ⊢
  cases Configuration.finds_of_mem_liveIssues found about with
  | unset held _ => exact ⟨_, held⟩
  | pair opposite _ _ => exact PropertyMap.value?_of_background? opposite
  | indirection live indirect =>
      rcases restores_validate computed now name with same | ⟨value, held, -⟩
      · refine absurd ⟨issue, ?_, rfl⟩ gone
        rw [Computation.liveIssues, List.mem_append, List.mem_append]
        exact .inl (.inr (Inspection.mem_indirectionIssues.2
          ⟨name, _, same.trans live, indirect⟩))
      · exact ⟨value, held⟩

/-- A property that a fix pass is told to have fixed has no error left and is not told as
given up, if the store accepts what was computed for it and its background, and the
tokens that these read show their values. -/
theorem cleared_of_validate (computed : watcher.current = configuration.compute)
    (names : configuration.index.HasPlainNames)
    (fixed : name ∈ (watcher.validate now).2.fixed) (accepts : watcher.Accepts name)
    (pair : ∀ background, watcher.current.map.background? name = some background →
      watcher.Accepts background ∧
        ∀ side ∈ [name, background], ∀ path,
          (watcher.validate now).1.registry.Reads side (Name.ofToken path) →
          (watcher.validate now).1.registry.Shows configuration.index path) :
    (∀ issue ∈ watcher.current.liveIssues (watcher.validate now).1.registry,
        Name.ofText issue.locus ≠ name) ∧
      name ∉ (watcher.validate now).2.gaveUp := by
  rcases watcher.validationPass?_cases now with ⟨-, -, nothing, -⟩ | ⟨pass, -, makes⟩
  · rw [nothing] at fixed
    cases fixed
  obtain ⟨⟨tried, listed, about⟩, value, held⟩ := makes.of_mem_fixed computed fixed
  have written {target : Name} (aim : Name.ofText tried.locus = target ∨
      watcher.current.map.background? (Name.ofText tried.locus) = some target)
      (accepts : watcher.Accepts target) {value : Value}
      (held : watcher.current.map.value? target = some value) :
      (watcher.validate now).1.registry.get? target = some value.render :=
    makes.get?_of_accepts computed (mem_fixTargets.2 ⟨tried, listed, aim⟩) accepts held
  have live := written (.inl about) accepts held
  have clear : ∀ issue ∈ watcher.current.liveIssues (watcher.validate now).1.registry,
      Name.ofText issue.locus ≠ name := by
    intro issue member
    rw [computed] at member held
    refine Configuration.ne_of_mem_liveIssues names held live (fun background opposite => ?_) member
    obtain ⟨backValue, stands⟩ := Configuration.exists_value?_of_background? opposite
    rw [← computed] at opposite stands
    obtain ⟨backAccepts, shown⟩ := pair background opposite
    have backLive := written (.inr (about ▸ opposite)) backAccepts stands
    rw [computed] at stands
    exact ⟨⟨by rw [live, held]; rfl, shown name (by simp)⟩,
      ⟨by rw [backLive, stands]; rfl, shown background (by simp)⟩⟩
  refine ⟨clear, fun gaveUp => ?_⟩
  rw [makes.reportedGaveUp] at gaveUp
  obtain ⟨issue, given, own⟩ := List.mem_map.1 gaveUp
  obtain ⟨-, other, member, same⟩ := (makes.gaveUp issue).1 given
  refine clear other member ?_
  rw [(Issue.eq_of_fingerprint same).2]
  exact own

/-- A text on a white surface was made a white literal. It is brought back to the black
token, and with that both of its errors are gone. -/
theorem cleared_of_validate_text :
    ∃ (watcher : Watcher) (configuration : Configuration), watcher.Reachable ∧
      watcher.current = configuration.compute ∧ configuration.index.HasPlainNames ∧
      watcher.current.map.background? Sample.text = some Sample.surface ∧
      (watcher.current.liveIssues watcher.registry).map Issue.locus =
        [Sample.text.text, Sample.text.text] ∧
      Sample.text ∈ (watcher.validate 0).2.fixed ∧
      (∀ issue ∈ watcher.current.liveIssues (watcher.validate 0).1.registry,
        Name.ofText issue.locus ≠ Sample.text) ∧
      Sample.text ∉ (watcher.validate 0).2.gaveUp := by
  have facts : (fun (watcher : Watcher) (validated : Watcher × ValidationOutcome) =>
      watcher.current.map.background? Sample.text = some Sample.surface ∧
        (watcher.current.liveIssues watcher.registry).map Issue.locus =
          [Sample.text.text, Sample.text.text] ∧
        Sample.text ∈ validated.2.fixed ∧
        (∀ name ∈ [Sample.text, Sample.surface], ∀ value ∈ watcher.current.map.value? name,
          (Legible.validate name value watcher.configuration.index).isOk = true) ∧
        (∀ entry ∈ Sample.onWhite.index.tokens, ∀ color ∈ entry.2.color?,
          (Evaluation.colorAt validated.1.registry maxEvaluationDepth
            (Name.ofToken entry.1)).toOption = some color) ∧
        ∀ entry ∈ Sample.onWhite.index.tokens, ∀ amount ∈ entry.2.number?,
          Token.isShare amount = true →
            (Evaluation.numberAt validated.1.registry maxEvaluationDepth
              (Name.ofToken entry.1)).toOption = some amount)
      (Sample.overwritten Sample.onWhite [(Sample.text, "#ffffff")])
      ((Sample.overwritten Sample.onWhite [(Sample.text, "#ffffff")]).validate 0) := by
    decide +kernel
  have names : Sample.onWhite.index.HasPlainNames :=
    Token.Index.hasPlainNames_of_tokens (by decide +kernel) (by decide +kernel)
  have computed := Sample.current_overwritten Sample.onWhite [(Sample.text, "#ffffff")]
  have reachable := Sample.reachable_overwritten Sample.onWhite [(Sample.text, "#ffffff")]
  generalize Sample.overwritten Sample.onWhite _ = watcher at facts computed reachable
  obtain ⟨opposite, live, fixed, taken, colors, numbers⟩ := facts
  have shown := Registry.shows_of_tokens colors numbers
  have accepts {name : Name} (member : name ∈ [Sample.text, Sample.surface]) :
      watcher.Accepts name := fun value held => by
    have ok := taken name member value held
    cases given : Legible.validate name value watcher.configuration.index with
    | ok verdict => exact ⟨verdict, rfl⟩
    | error error =>
        rw [given] at ok
        cases ok
  have pair (background : Name)
      (stands : watcher.current.map.background? Sample.text = some background) :
      watcher.Accepts background ∧ ∀ side ∈ [Sample.text, background], ∀ path,
        (watcher.validate 0).1.registry.Reads side (Name.ofToken path) →
        (watcher.validate 0).1.registry.Shows Sample.onWhite.index path := by
    obtain rfl : Sample.surface = background := Option.some.inj (opposite.symm.trans stands)
    exact ⟨accepts (by simp), fun _ _ path _ => shown path⟩
  exact ⟨watcher, Sample.onWhite, reachable, computed, names, opposite, live, fixed,
    cleared_of_validate computed names fixed (accepts (by simp)) pair⟩

/-- A text was made a white literal, and the black token was changed to white. The text is
brought back, so it is no literal any more and is told as fixed. It still cannot be read,
and is told as given up too. -/
theorem not_cleared_of_validate_text :
    ∃ watcher : Watcher, watcher.Reachable ∧ watcher.isAttached = true ∧
      Sample.text ∈ (watcher.validate 0).2.fixed ∧ Sample.text ∈ (watcher.validate 0).2.gaveUp ∧
      ∃ issue ∈ watcher.current.liveIssues (watcher.validate 0).1.registry,
        issue.isError = true ∧ Name.ofText issue.locus = Sample.text := by
  have facts : (fun (watcher : Watcher) (validated : Watcher × ValidationOutcome) =>
      watcher.isAttached = true ∧ Sample.text ∈ validated.2.fixed ∧
        Sample.text ∈ validated.2.gaveUp ∧
        ∃ issue ∈ watcher.current.liveIssues validated.1.registry,
          issue.isError = true ∧ Name.ofText issue.locus = Sample.text)
      (Sample.overwritten Sample.onWhite [(⟨"--tokens-color-gray-900"⟩, "#ffffff"),
        (Sample.text, "#ffffff")])
      ((Sample.overwritten Sample.onWhite [(⟨"--tokens-color-gray-900"⟩, "#ffffff"),
        (Sample.text, "#ffffff")]).validate 0) := by
    decide +kernel
  have reachable := Sample.reachable_overwritten Sample.onWhite
    [(⟨"--tokens-color-gray-900"⟩, "#ffffff"), (Sample.text, "#ffffff")]
  generalize Sample.overwritten Sample.onWhite _ = watcher at facts reachable
  exact ⟨watcher, reachable, facts⟩

end Watcher

end Legible
