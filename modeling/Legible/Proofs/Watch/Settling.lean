import Mathlib.Data.Set.Card
import Mathlib.Data.Set.Finite.Lattice
import Mathlib.Order.Interval.Finset.Nat
import Legible.Proofs.Watch.Fixing
import Legible.Proofs.Watch.Passes

/-!
# Validating over and over

In a run of validations alone a fix pass either brings back a property that had another
text than was computed, or it changes no text at all. Then nothing that it tried is gone,
so all of it is given up, and nothing is left that may be tried. Either can happen only so
often, whatever the times of the validations: after finitely many passes the registry
stays as it is.
-/

namespace Legible

open Property

namespace Watcher

variable {watcher : Watcher} {configuration : Configuration} {now : Nat} {pass : FixPass}

/-- The properties of the current map whose live text is another one than was computed. -/
def differing (watcher : Watcher) : List Name :=
  watcher.current.map.names.filter fun name =>
    watcher.registry.get? name != (watcher.current.map.value? name).map Value.render

theorem mem_differing {name : Name} :
    name ∈ watcher.differing ↔ (∃ value, watcher.current.map.value? name = some value) ∧
      watcher.registry.get? name ≠ (watcher.current.map.value? name).map Value.render := by
  rw [differing, List.mem_filter, PropertyMap.mem_names, bne_iff_ne]

/-- How many fix passes are possible: one for each property that differs, and one that
gives up what may still be tried. -/
def unsettled (watcher : Watcher) : Nat :=
  watcher.differing.length + if watcher.fixable.isEmpty then 0 else 1

/-! ## One validation -/

/-- A validation makes no property differ from what was computed. -/
theorem sublist_differing_validate (computed : watcher.current = configuration.compute)
    (now : Nat) : (watcher.validate now).1.differing.Sublist watcher.differing := by
  rw [differing, differing, (sameDocuments_validate watcher now).current]
  refine List.monotone_filter_right _ fun name differs => ?_
  rw [bne_iff_ne] at differs ⊢
  rcases restores_validate computed now name with same | ⟨value, held, live⟩
  · exact same ▸ differs
  · rw [computed, held, live] at differs
    exact absurd rfl differs

/-- A validation after which the same properties differ as before has changed no text. -/
theorem get?_validate_of_differing (computed : watcher.current = configuration.compute)
    (same : (watcher.validate now).1.differing = watcher.differing) (name : Name) :
    (watcher.validate now).1.registry.get? name = watcher.registry.get? name := by
  rcases restores_validate computed now name with unchanged | ⟨value, held, live⟩
  · exact unchanged
  · rw [← computed] at held
    have agrees : name ∉ (watcher.validate now).1.differing := fun differs =>
      (mem_differing.1 differs).2
        (by rw [(sameDocuments_validate watcher now).current, held, live]; rfl)
    rw [same, mem_differing, not_and_not_right] at agrees
    rw [live, agrees ⟨value, held⟩, held]
    rfl

/-- A pass that changes no text gives up everything that may be tried. -/
theorem Makes.gaveUp_of_unchanged (makes : watcher.Makes now pass)
    (unchanged : ∀ name,
      (watcher.validate now).1.registry.get? name = watcher.registry.get? name) :
    (∀ issue ∈ watcher.fixable, issue ∈ pass.gaveUp) ∧ (watcher.validate now).1.fixable = [] := by
  have live : watcher.current.liveIssues (watcher.validate now).1.registry =
      watcher.current.liveIssues watcher.registry :=
    Computation.liveIssues_congr unchanged
  have gaveUp (issue : Issue) (tried : issue ∈ watcher.fixable) : issue ∈ pass.gaveUp := by
    refine (makes.gaveUp issue).2 ⟨tried, issue, ?_, rfl⟩
    rw [live]
    exact (List.mem_filter.1 tried).1
  refine ⟨gaveUp, List.filter_eq_nil_iff.2 fun issue found fixable => ?_⟩
  rw [(sameDocuments_validate watcher now).current, live] at found
  rw [Bool.and_eq_true] at fixable
  obtain ⟨begun, began, given⟩ := makes.guard
  have remembered := (FixGuard.foldl_giveUp begun pass.gaveUp).2.2
  rw [← given] at remembered
  by_cases before : watcher.guard.isFixable issue = true
  · have tried : issue ∈ watcher.fixable :=
      List.mem_filter.2 ⟨found, (Bool.and_eq_true _ _).mpr ⟨fixable.1, before⟩⟩
    have forgotten := (remembered issue).2 (.inr ⟨issue, gaveUp issue tried, rfl⟩)
    rw [fixable.2] at forgotten
    cases forgotten
  · have forgotten := (remembered issue).2 (.inl (by
      rw [FixGuard.isFixable, (FixGuard.of_begin? began).2.2]
      exact Bool.eq_false_iff.2 before))
    rw [fixable.2] at forgotten
    cases forgotten

/-- A pass leaves fewer properties that differ, or it gives up everything that may be
tried. -/
theorem Makes.progress (makes : watcher.Makes now pass)
    (computed : watcher.current = configuration.compute) :
    (watcher.validate now).1.differing.length < watcher.differing.length ∨
      (∀ issue ∈ watcher.fixable, issue ∈ pass.gaveUp) ∧
        (watcher.validate now).1.fixable = [] := by
  have sublist := sublist_differing_validate computed now
  by_cases fewer : (watcher.validate now).1.differing.length < watcher.differing.length
  · exact .inl fewer
  · have same := sublist.eq_of_length_le (Nat.le_of_not_lt fewer)
    exact .inr (makes.gaveUp_of_unchanged (get?_validate_of_differing computed same))

/-- Each pass uses up one of the passes that are possible. -/
theorem Makes.unsettled_lt (makes : watcher.Makes now pass)
    (computed : watcher.current = configuration.compute) :
    (watcher.validate now).1.unsettled < watcher.unsettled := by
  have length := (sublist_differing_validate computed now).length_le
  have tried : watcher.fixable.isEmpty = false := by
    rw [List.isEmpty_eq_false_iff]
    exact makes.fixable
  rw [unsettled, unsettled, tried, if_neg Bool.false_ne_true]
  rcases makes.progress computed with fewer | ⟨-, rest⟩
  · split <;> omega
  · rw [rest, List.isEmpty_nil, if_pos rfl]
    omega

/-! ## A run of validations -/

/-- The watcher after the first validations of a run, each at its own time. -/
def validations (watcher : Watcher) (times : Nat → Nat) : Nat → Watcher
  | 0 => watcher
  | count + 1 => ((watcher.validations times count).validate (times count)).1

/-- The fix pass that a validation of a run makes, if it makes one. -/
def runPass? (watcher : Watcher) (times : Nat → Nat) (count : Nat) : Option FixPass :=
  (watcher.validations times count).validationPass? (times count)

section

variable {times : Nat → Nat}

theorem current_validations (watcher : Watcher) (times : Nat → Nat) (count : Nat) :
    (watcher.validations times count).current = watcher.current := by
  induction count with
  | zero => rfl
  | succ count inductionHypothesis =>
      exact (sameDocuments_validate _ _).current.trans inductionHypothesis

/-- A validation that makes no pass changes nothing. -/
theorem validations_of_runPass? {count : Nat} (rest : watcher.runPass? times count = none) :
    watcher.validations times (count + 1) = watcher.validations times count :=
  validate_of_validationPass? rest

/-- What is given up stays given up through the run. -/
theorem isFixable_validations {first last : Nat} {issue : Issue} (ordered : first ≤ last)
    (givenUp : (watcher.validations times first).guard.isFixable issue = false) :
    (watcher.validations times last).guard.isFixable issue = false := by
  induction last, ordered using Nat.le_induction with
  | base => exact givenUp
  | succ last _ inductionHypothesis =>
      have operated : ((watcher.validations times last).operate
          (.validate (times last))).guard.isFixable issue = false :=
        isFixable_operate inductionHypothesis nofun
      exact operated

/-- An issue that may be tried was not given up at any earlier validation of the run. -/
theorem fingerprint_ne_of_isFixable {earlier count : Nat} {prior : FixPass} {given issue : Issue}
    (ordered : earlier < count) (made : watcher.runPass? times earlier = some prior)
    (listed : given ∈ prior.gaveUp)
    (fixable : (watcher.validations times count).guard.isFixable issue = true) :
    given.fingerprint ≠ issue.fingerprint := by
  intro same
  obtain ⟨begun, began, guard⟩ := (makes_of_validationPass? made).guard
  have remembered : (watcher.validations times (earlier + 1)).guard.isFixable issue = false := by
    rw [validations, guard, (FixGuard.foldl_giveUp _ _).2.2]
    exact .inr ⟨given, listed, same⟩
  rw [isFixable_validations ordered remembered] at fixable
  cases fixable

end

/-- The number of passes that are possible never grows. -/
theorem antitone_unsettled (computed : watcher.current = configuration.compute)
    (times : Nat → Nat) : Antitone fun count => (watcher.validations times count).unsettled := by
  refine antitone_nat_of_succ_le fun count => ?_
  cases made : watcher.runPass? times count with
  | none => rw [validations_of_runPass? made]
  | some pass =>
      exact Nat.le_of_lt ((makes_of_validationPass? made).unsettled_lt
        ((current_validations watcher times count).trans computed))

/-- At most as many passes are made as are possible at first. -/
theorem finite_runPass? (computed : watcher.current = configuration.compute)
    (times : Nat → Nat) :
    {count | (watcher.runPass? times count).isSome = true}.Finite ∧
      {count | (watcher.runPass? times count).isSome = true}.ncard ≤ watcher.unsettled := by
  have antitone := antitone_unsettled computed times
  have drops {count : Nat} (made : (watcher.runPass? times count).isSome = true) :
      (watcher.validations times (count + 1)).unsettled <
        (watcher.validations times count).unsettled := by
    obtain ⟨pass, made⟩ := Option.isSome_iff_exists.1 made
    exact (makes_of_validationPass? made).unsettled_lt
      ((current_validations watcher times count).trans computed)
  -- Each pass is made at another number of possible passes, none of them at zero.
  have inside : Set.MapsTo (fun count => (watcher.validations times count).unsettled)
      {count | (watcher.runPass? times count).isSome = true} (Finset.Icc 1 watcher.unsettled) := by
    intro count made
    have positive := drops made
    have bounded := antitone (Nat.zero_le count)
    rw [Finset.coe_Icc]
    exact ⟨by dsimp only; omega, bounded⟩
  have injective : Set.InjOn (fun count => (watcher.validations times count).unsettled)
      {count | (watcher.runPass? times count).isSome = true} := by
    have apart {first second : Nat} (made : (watcher.runPass? times first).isSome = true)
        (ordered : first < second) :
        (watcher.validations times second).unsettled ≠
          (watcher.validations times first).unsettled :=
      Nat.ne_of_lt (Nat.lt_of_le_of_lt (antitone ordered) (drops made))
    intro first firstMade second secondMade same
    rcases Nat.lt_trichotomy first second with before | same | after
    · exact absurd same.symm (apart firstMade before)
    · exact same
    · exact absurd same (apart secondMade after)
  refine ⟨Set.Finite.of_injOn inside injective (Finset.finite_toSet _), ?_⟩
  refine (Set.ncard_le_ncard_of_injOn _ inside injective (Finset.finite_toSet _)).trans ?_
  rw [Set.ncard_coe_finset, Nat.card_Icc]
  omega

/-- However often a watcher is validated, and at whatever times: each fix pass leaves fewer
properties with another text than was computed, or gives up something that was not given up
before, and makes no property differ. At most one more pass is made than properties differ at
first, and then the registry stays as it is. -/
theorem settles_of_validations (reachable : watcher.Reachable) (times : Nat → Nat) :
    (∀ count pass, watcher.runPass? times count = some pass →
      (watcher.validations times (count + 1)).differing ⊆
          (watcher.validations times count).differing ∧
        ((watcher.validations times (count + 1)).differing.length <
            (watcher.validations times count).differing.length ∨
          ∃ issue ∈ pass.gaveUp, watcher.guard.isFixable issue = true ∧
            ∀ earlier < count, ∀ prior, watcher.runPass? times earlier = some prior →
              ∀ given ∈ prior.gaveUp, given.fingerprint ≠ issue.fingerprint)) ∧
      {count | (watcher.runPass? times count).isSome = true}.Finite ∧
      {count | (watcher.runPass? times count).isSome = true}.ncard ≤
        watcher.differing.length + 1 ∧
      ∃ last, ∀ count, last ≤ count →
        (watcher.validations times count).registry = (watcher.validations times last).registry := by
  obtain ⟨configuration, computed⟩ := reachable.tracks.computed
  obtain ⟨finite, bounded⟩ := finite_runPass? computed times
  refine ⟨fun count pass made => ?_, finite, ?_, ?_⟩
  · have makes := makes_of_validationPass? made
    have own := (current_validations watcher times count).trans computed
    refine ⟨(sublist_differing_validate own _).subset, ?_⟩
    refine (makes.progress own).imp_right fun all => ?_
    obtain ⟨issue, tried⟩ := List.exists_mem_of_ne_nil _ makes.fixable
    have fixable : (watcher.validations times count).guard.isFixable issue = true :=
      ((Bool.and_eq_true _ _).mp (List.mem_filter.1 tried).2).2
    refine ⟨issue, all.1 issue tried, ?_, fun earlier ordered prior given _ listed =>
      fingerprint_ne_of_isFixable ordered given listed fixable⟩
    refine Bool.of_not_eq_false fun givenUp => ?_
    have remembered : (watcher.validations times count).guard.isFixable issue = false :=
      isFixable_validations (Nat.zero_le count) givenUp
    rw [remembered] at fixable
    cases fixable
  · refine bounded.trans ?_
    rw [unsettled]
    split <;> omega
  · obtain ⟨last, beyond⟩ := finite.bddAbove
    refine ⟨last + 1, fun count later => ?_⟩
    induction count, later using Nat.le_induction with
    | base => rfl
    | succ count later inductionHypothesis =>
        have rest : watcher.runPass? times count = none := by
          rw [← Option.not_isSome_iff_eq_none]
          exact fun made => absurd (beyond made) (Nat.not_le_of_lt later)
        rw [validations_of_runPass? rest, inductionHypothesis]

/-- A component turned red, and a stray property beside it, are tried by the first of many
validations. The component is brought back, so at most one more pass can follow. -/
theorem settles_of_validations_label :
    ∃ watcher : Watcher, watcher.Reachable ∧
      (watcher.runPass? (fun count => 1000 * count) 0).isSome = true ∧
      watcher.differing = [Sample.label] ∧
      (watcher.validations (fun count => 1000 * count) 1).differing = [] ∧
      {count | (watcher.runPass? (fun count => 1000 * count) count).isSome = true}.ncard ≤ 2 ∧
      ∃ last, ∀ count, last ≤ count →
        (watcher.validations (fun count => 1000 * count) count).registry =
          (watcher.validations (fun count => 1000 * count) last).registry := by
  have facts : (fun watcher : Watcher =>
      (watcher.runPass? (fun count => 1000 * count) 0).isSome = true ∧
        watcher.differing = [Sample.label] ∧
        (watcher.validations (fun count => 1000 * count) 1).differing = [])
      (Sample.attached Sample.labelled
        [.setOutside Sample.label "red", .setOutside ⟨"--ui-stray"⟩ "red"]) := by
    decide +kernel
  have reachable := Sample.reachable_attached Sample.labelled
    [.setOutside Sample.label "red", .setOutside ⟨"--ui-stray"⟩ "red"]
  generalize Sample.attached Sample.labelled _ = watcher at facts reachable
  obtain ⟨made, differing, restored⟩ := facts
  obtain ⟨-, -, bounded, last, rest⟩ :=
    settles_of_validations reachable fun count => 1000 * count
  rw [differing] at bounded
  exact ⟨watcher, reachable, made, differing, restored, bounded, last, rest⟩

end Watcher

end Legible
