import Legible.Proofs.Watch.Baseline

/-!
# What a fix pass may break

A fix pass brings the failing properties and their backgrounds back to what was computed,
and the report that goes with it was made before. It unsets nothing and makes no text a
literal. A pair may become illegible by it: the background of a failing property may be
what another live change stands on. Every other error that is there afterwards is in the
report.
-/

namespace Legible

open Property

namespace Configuration

variable {configuration : Configuration} {before after : Registry} {issue : Issue}

/-- How a computed pair comes through a change of the registry. -/
inductive Withstands (configuration : Configuration) (before after : Registry)
    (foreground background : Name) : Prop where
  /-- Nothing that either side reaches has another text. -/
  | untouched (front : before.AgreesFrom after foreground)
      (back : before.AgreesFrom after background)
  /-- Afterwards both sides show what was computed for them. -/
  | restored (front : configuration.ShownAt after foreground)
      (back : configuration.ShownAt after background)

/-- A pair that withstands a change has no issue that it did not have before. -/
theorem Withstands.measurePair (names : configuration.index.HasPlainNames)
    {foreground background : Name}
    (withstands : configuration.Withstands before after foreground background)
    (pair : configuration.compute.map.background? foreground = some background)
    (unknown : Inspection.isKnown configuration.compute.issues foreground = false)
    (found : Inspection.measurePair configuration.compute.map after foreground background =
      some issue) :
    Inspection.measurePair configuration.compute.map before foreground background =
      some issue := by
  cases withstands with
  | untouched front back =>
      rw [← found]
      exact Inspection.measurePair_congr (Registry.color_congr front) (Registry.color_congr back)
  | restored front back =>
      obtain ⟨_, _, frontShown, backShown, enough⟩ := legible_of_shownAt names pair front back
      rcases enough with contrast | known
      · rw [Inspection.measurePair_of_legible frontShown backShown contrast] at found
        cases found
      · rw [unknown] at known
        cases known

/-- Where computed properties are brought back, an inspection finds nothing that it did not
find before, except for pairs that do not withstand the change. -/
theorem mem_liveIssues_of_restores (names : configuration.index.HasPlainNames)
    (restores : before.Restores after configuration.compute.map)
    (found : issue ∈ configuration.compute.liveIssues after)
    (withstands : issue.kind ≠ .validation → ∀ foreground background,
      foreground.text = issue.locus →
      configuration.compute.map.background? foreground = some background →
      configuration.Withstands before after foreground background) :
    issue ∈ configuration.compute.liveIssues before := by
  rw [Computation.liveIssues, List.mem_append, List.mem_append] at found ⊢
  rcases found with (unset | indirection) | pair
  · exact .inl (.inl (Inspection.unsetIssues_subset restores unset))
  · refine .inl (.inr (Inspection.indirectionIssues_subset restores ?_ indirection))
    intro name value held tier
    rw [read_render_of_value? names held tier]
    exact ⟨isLiteral_of_value? held tier, hasFixedWeight_of_value? held⟩
  · obtain ⟨foreground, background, pair, unknown, found⟩ := Inspection.mem_pairIssues.1 pair
    have about := Inspection.isAbout_of_measurePair found
    have unharmed := withstands about.kind foreground background about.locus.symm pair
    exact .inr (Inspection.mem_pairIssues.2
      ⟨foreground, background, pair, unknown, unharmed.measurePair names pair unknown found⟩)

end Configuration

namespace Watcher

variable {watcher : Watcher} {configuration : Configuration} {now : Nat} {issue : Issue}

/-- A validation reports what was live before it. -/
theorem report_validate (watcher : Watcher) (now : Nat) :
    (watcher.validate now).2.report =
      watcher.current.report.extend (watcher.current.liveIssues watcher.registry) := by
  rw [validate]
  dsimp only
  split
  · rfl
  · split <;> rfl

/-- A validation brings computed properties back and touches nothing else, whatever has
become of the tokens since they were computed. -/
theorem restores_validate (computed : watcher.current = configuration.compute) (now : Nat) :
    watcher.registry.Restores (watcher.validate now).1.registry configuration.compute.map := by
  intro name
  rcases watcher.validate_cases now with unchanged | ⟨guard, issues, fixed, -⟩
  · rw [unchanged]
    exact .inl rfl
  · rw [fixed]
    refine (Store.get?_applyValues_cases name).imp_right ?_
    rintro ⟨value, verdict, listed, ok, live⟩
    obtain ⟨target, -, given⟩ := List.mem_filterMap.1 listed
    obtain ⟨held, found, own⟩ := Option.map_eq_some_iff.1 given
    cases own
    have held : configuration.compute.map.value? name = some value := by
      rw [← computed]
      exact found
    exact ⟨value, held, Configuration.value_of_validate held ok ▸ live⟩

/-- Every error that is live after a validation is in its report, if the pair that it is
about withstands the fix pass. An error about a text or about a property that is not set
always is. -/
theorem reported_of_validate (computed : watcher.current = configuration.compute)
    (names : configuration.index.HasPlainNames)
    (live : issue ∈ watcher.current.liveIssues (watcher.validate now).1.registry)
    (withstands : issue.kind ≠ .validation → ∀ foreground background,
      foreground.text = issue.locus →
      watcher.current.map.background? foreground = some background →
      configuration.Withstands watcher.registry (watcher.validate now).1.registry foreground
        background) :
    issue ∈ (watcher.validate now).2.report.errors := by
  have isError := Computation.isError_of_mem_liveIssues live
  rw [computed] at live withstands
  have before := Configuration.mem_liveIssues_of_restores names (restores_validate computed now)
    live withstands
  rw [report_validate, computed]
  exact List.mem_filter.2 ⟨List.mem_append_right _ before, isError⟩

end Watcher

namespace Sample

/-- A watcher that is attached at once, where others then set some properties. -/
def overwritten (configuration : Configuration) (texts : List (Property.Name × String)) : Watcher :=
  attached configuration (texts.map fun (name, text) => .setOutside name text)

theorem reachable_overwritten (configuration : Configuration)
    (texts : List (Property.Name × String)) : (overwritten configuration texts).Reachable :=
  reachable_attached configuration _

/-- What others set leaves the computation. -/
theorem current_overwritten (configuration : Configuration)
    (texts : List (Property.Name × String)) :
    (overwritten configuration texts).current = configuration.compute := by
  have attached : ((Watcher.start configuration .empty).operate (.attach 0)).current =
      configuration.compute :=
    (Watcher.sameDocuments_attach (.start configuration .empty) 0).current
  rw [overwritten, Sample.attached, List.foldl_cons]
  generalize (Watcher.start configuration .empty).operate (.attach 0) = watcher at attached
  induction texts generalizing watcher with
  | nil => exact attached
  | cons text rest inductionHypothesis => exact inductionHypothesis _ attached

end Sample

namespace Watcher

/-- On a gray surface a text is brought back to black. The white token was changed to
black, so the on-tone stays illegible, as is said. -/
theorem reported_of_validate_onTone :
    ∃ (watcher : Watcher) (configuration : Configuration) (issue : Issue), watcher.Reachable ∧
      watcher.isAttached = true ∧ watcher.current = configuration.compute ∧
      configuration.index.HasPlainNames ∧ (watcher.validate 0).2.fixed = [Sample.text] ∧
      issue ∈ watcher.current.liveIssues (watcher.validate 0).1.registry ∧
      issue.locus = Sample.onTone.text ∧
      (∀ foreground background, foreground.text = issue.locus →
        watcher.current.map.background? foreground = some background →
        configuration.Withstands watcher.registry (watcher.validate 0).1.registry foreground
          background) ∧
      issue ∈ (watcher.validate 0).2.report.errors := by
  have facts : (fun (watcher : Watcher) (validated : Watcher × ValidationOutcome) =>
      watcher.isAttached = true ∧ validated.2.fixed = [Sample.text] ∧
        watcher.current.map.background? Sample.onTone = some Sample.tone ∧
        (∃ issue ∈ watcher.current.liveIssues validated.1.registry,
          issue.locus = Sample.onTone.text) ∧
        (∀ reader ∈ [Sample.tone, Sample.onTone, ⟨"--tokens-color-gray-000"⟩,
            ⟨"--tokens-color-gray-900"⟩],
          (∀ text ∈ watcher.registry.get? reader, ∀ target ∈ (Value.read text).references,
            target ∈ [Sample.tone, Sample.onTone, ⟨"--tokens-color-gray-000"⟩,
              ⟨"--tokens-color-gray-900"⟩]) ∧
          watcher.registry.get? reader = validated.1.registry.get? reader))
      (Sample.overwritten Sample.onGray [(⟨"--tokens-color-gray-000"⟩, "#000000"),
        (Sample.text, "var(--tokens-color-gray-500)")])
      ((Sample.overwritten Sample.onGray [(⟨"--tokens-color-gray-000"⟩, "#000000"),
        (Sample.text, "var(--tokens-color-gray-500)")]).validate 0) := by
    decide +kernel
  have names : Sample.onGray.index.HasPlainNames :=
    Token.Index.hasPlainNames_of_tokens (by decide +kernel) (by decide +kernel)
  have computed := Sample.current_overwritten Sample.onGray
    [(⟨"--tokens-color-gray-000"⟩, "#000000"), (Sample.text, "var(--tokens-color-gray-500)")]
  have reachable := Sample.reachable_overwritten Sample.onGray
    [(⟨"--tokens-color-gray-000"⟩, "#000000"), (Sample.text, "var(--tokens-color-gray-500)")]
  generalize Sample.overwritten Sample.onGray _ = watcher at facts computed reachable
  obtain ⟨isAttached, fixed, pair, ⟨issue, live, locus⟩, steady⟩ := facts
  have withstands (foreground background : Name) (about : foreground.text = issue.locus)
      (stands : watcher.current.map.background? foreground = some background) :
      Sample.onGray.Withstands watcher.registry (watcher.validate 0).1.registry foreground
        background := by
    obtain rfl : foreground = Sample.onTone := congrArg Name.mk (about.trans locus)
    obtain rfl : Sample.tone = background := Option.some.inj (pair.symm.trans stands)
    have agrees {side : Name} (member : side ∈ [Sample.tone, Sample.onTone,
        ⟨"--tokens-color-gray-000"⟩, ⟨"--tokens-color-gray-900"⟩]) :
        watcher.registry.AgreesFrom (watcher.validate 0).1.registry side :=
      Registry.agreesFrom_of_closed (fun reader listed => (steady reader listed).1)
        (fun reader listed => (steady reader listed).2) member
    exact .untouched (agrees (by simp)) (agrees (by simp))
  exact ⟨watcher, Sample.onGray, issue, reachable, isAttached, computed, names, fixed, live, locus,
    withstands, reported_of_validate computed names live fun _ => withstands⟩

/-- A surface was set to black, its interactive tone to white and the on-tone to black. Only
the black text on it fails. The fix pass makes the surface white again, where the white tone
cannot be read, and nothing says so. -/
theorem unreported_of_validate_tone :
    ∃ (watcher : Watcher) (issue : Issue), watcher.Reachable ∧ watcher.isAttached = true ∧
      (watcher.validate 0).2.fixed = [Sample.text] ∧
      issue ∈ watcher.current.liveIssues (watcher.validate 0).1.registry ∧
      issue.isError = true ∧
      ∀ reported ∈ (watcher.validate 0).2.report.errors,
        reported.fingerprint ≠ issue.fingerprint := by
  have facts : (fun (watcher : Watcher) (validated : Watcher × ValidationOutcome) =>
      watcher.isAttached = true ∧ validated.2.fixed = [Sample.text] ∧
        ∃ issue ∈ watcher.current.liveIssues validated.1.registry,
          issue.isError = true ∧
            ∀ reported ∈ validated.2.report.errors, reported.fingerprint ≠ issue.fingerprint)
      (Sample.overwritten Sample.onWhite [(Sample.surface, "var(--tokens-color-gray-900)"),
        (Sample.tone, "var(--tokens-color-gray-000)"),
        (Sample.onTone, "var(--tokens-color-gray-900)")])
      ((Sample.overwritten Sample.onWhite [(Sample.surface, "var(--tokens-color-gray-900)"),
        (Sample.tone, "var(--tokens-color-gray-000)"),
        (Sample.onTone, "var(--tokens-color-gray-900)")]).validate 0) := by
    decide +kernel
  have reachable := Sample.reachable_overwritten Sample.onWhite
    [(Sample.surface, "var(--tokens-color-gray-900)"),
      (Sample.tone, "var(--tokens-color-gray-000)"),
      (Sample.onTone, "var(--tokens-color-gray-900)")]
  generalize Sample.overwritten Sample.onWhite _ = watcher at facts reachable
  obtain ⟨isAttached, fixed, issue, live, isError, unreported⟩ := facts
  exact ⟨watcher, issue, reachable, isAttached, fixed, live, isError, unreported⟩

end Watcher

end Legible
