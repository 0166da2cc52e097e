import Legible.Proofs.Theme.Shown
import Legible.Proofs.Theme.Warnings
import Legible.Proofs.Watch.Run

/-!
# The first attach

A fresh watcher that is attached to an empty registry writes its map and finds
nothing to fix: what was measured on tokens is what the registry renders.
-/

namespace Legible

open Property

namespace Watcher

/-- A validation that finds nothing does nothing. -/
theorem validate_of_quiet {watcher : Watcher}
    (quiet : watcher.current.liveIssues watcher.registry = []) (now : Nat) :
    watcher.validate now = (watcher, { report := watcher.current.report.extend [] }) := by
  rw [validate, quiet]
  rfl

/-- Computed output is clean when it is live. A computed map that is written into an
empty registry shows its computation without a live problem, so the first attach
reports no error and does not begin a fix pass. -/
theorem shownBy_attach (configuration : Configuration)
    (names : configuration.index.HasPlainNames) (shares : configuration.index.ReadsShares)
    (now : Nat) :
    configuration.compute.ShownBy
        ((Store.ofRegistry .empty).apply configuration.compute.map
          configuration.index).1.registry ∧
      let attached := (start configuration .empty).attach now
      attached.1 = (start configuration .empty).writeMap.1 ∧
        attached.1.registry = ((Store.ofRegistry .empty).apply configuration.compute.map
          configuration.index).1.registry ∧
        attached.1.guard = (start configuration .empty).guard ∧
        attached.2.report.hasErrors = false ∧ attached.2.fixed = [] ∧ attached.2.gaveUp = [] ∧
        attached.2.isFixSkipped = false := by
  have shown := Configuration.shownBy_of_renders names shares configuration.renders_apply
  refine ⟨shown, ?_⟩
  have writes := writes_writeMap (start configuration .empty)
  have applied : (start configuration .empty).writeMap.1.registry =
      ((Store.ofRegistry .empty).apply configuration.compute.map
        configuration.index).1.registry := writes.registry
  have computed : (start configuration .empty).writeMap.1.current = configuration.compute :=
    writes.documents.current
  have unissued : (start configuration .empty).writeMap.2.issues = [] :=
    configuration.issues_apply (.ofRegistry .empty)
  have quiet : (start configuration .empty).writeMap.1.current.liveIssues
      (start configuration .empty).writeMap.1.registry = [] := by
    rw [computed, applied]
    exact shown.quiet
  have validated := validate_of_quiet quiet now
  have fresh : (start configuration .empty).isAttached = false := rfl
  have onlyWarns : configuration.compute.report.hasErrors = false := by
    rw [Report.hasErrors, List.any_eq_false]
    intro issue member
    rw [configuration.warns_compute issue member]
    exact Bool.false_ne_true
  dsimp only
  rw [attach_eq, fresh]
  generalize (start configuration .empty).writeMap = made at *
  rw [validated, unissued, computed]
  refine ⟨rfl, applied, writes.guard, ?_, rfl, rfl, rfl⟩
  have same : (configuration.compute.report.extend []).extend [] = configuration.compute.report := by
    simp [Report.extend]
  exact (congrArg Report.hasErrors same).trans onlyWarns

theorem shownBy_attach_muted :
    Sample.muted.index.HasPlainNames ∧ Sample.muted.index.ReadsShares ∧
      Sample.muted.compute.ShownBy
        ((Store.ofRegistry .empty).apply Sample.muted.compute.map
          Sample.muted.index).1.registry := by
  have names : Sample.muted.index.HasPlainNames :=
    Token.Index.hasPlainNames_of_tokens (by decide +kernel) (by decide +kernel)
  have shares : Sample.muted.index.ReadsShares :=
    Token.Index.readsShares_of_tokens (by decide +kernel)
  exact ⟨names, shares, (shownBy_attach Sample.muted names shares 0).1⟩

end Watcher

end Legible
