import Legible.Proofs.Live.Inspection

/-!
# When an inspection finds nothing

An inspection leaves out what another part of it finds: a pair whose evaluation ends at a
property that is not set says nothing where the map holds that property. Whatever it
leaves out for that reason is found among the unset properties, however far along a chain
of references it stands. So it finds nothing exactly where everything that was computed is
set, no brand or component property holds a literal or a fixed weight, and every pair that
was not reported before is legible.
-/

namespace Legible

open Property

/-! ## Properties that are missing -/

namespace Evaluation

variable {registry : Registry} {remaining : Nat} {name target : Name}

/-- A number is missing only because a property is not set. -/
theorem get?_of_numberAt_missing
    (failed : numberAt registry remaining name = .error (.missing target)) :
    registry.get? target = none := by
  induction remaining generalizing name with
  | zero => cases failed
  | succ remaining inductionHypothesis =>
      rw [numberAt] at failed
      split at failed
      · next unset =>
          cases failed
          exact unset
      · split at failed
        · exact inductionHypothesis failed
        · split at failed <;> cases failed
        · cases failed

/-- A color is missing only because a property is not set. -/
theorem get?_of_colorAt_missing
    (failed : colorAt registry remaining name = .error (.missing target)) :
    registry.get? target = none := by
  induction remaining generalizing name with
  | zero => cases failed
  | succ remaining inductionHypothesis =>
      rw [colorAt] at failed
      split at failed
      · next unset =>
          cases failed
          exact unset
      · next text _ =>
          cases shape : Value.read text with
          | literal literal =>
              rw [shape, colorOf] at failed
              split at failed <;> cases failed
          | reference next =>
              rw [shape, colorOf] at failed
              exact inductionHypothesis failed
          | blend foreground background weight =>
              rw [shape, colorOf] at failed
              -- The first operand that fails gives the error of the blend.
              cases front : colorAt registry remaining foreground with
              | error error =>
                  rw [front] at failed
                  cases failed
                  exact inductionHypothesis front
              | ok frontColor =>
                  cases back : colorAt registry remaining background with
                  | error error =>
                      rw [front, back] at failed
                      cases failed
                      exact inductionHypothesis back
                  | ok backColor =>
                      cases weight with
                      | percent amount =>
                          rw [front, back] at failed
                          cases failed
                      | property share =>
                          cases part : numberAt registry remaining share with
                          | error error =>
                              rw [front, back] at failed
                              simp only [shareOf, part] at failed
                              cases failed
                              exact get?_of_numberAt_missing part
                          | ok amount =>
                              rw [front, back] at failed
                              simp only [shareOf, part] at failed
                              cases failed

end Evaluation

namespace Inspection

variable {map : PropertyMap} {registry : Registry} {foreground background : Name}

/-- A pair that cannot be evaluated says nothing only of a property of the map. -/
theorem eq_missing_of_measurePair {error : EvaluationError}
    (failed : registry.color foreground = .error error ∨
      (∃ front, registry.color foreground = .ok front) ∧ registry.color background = .error error)
    (silent : measurePair map registry foreground background = none) :
    ∃ target ∈ map.names, error = .missing target := by
  cases error with
  | missing target =>
      refine ⟨target, (map.mem_names target).2 ((map.contains_iff target).1 ?_), rfl⟩
      by_contra unheld
      rcases failed with front | ⟨⟨front, frontShown⟩, back⟩
      · simp [measurePair, front, unheld] at silent
      · simp [measurePair, frontShown, back, unheld] at silent
  | notAColor | notANumber | tooDeep =>
      rcases failed with front | ⟨⟨front, frontShown⟩, back⟩
      · simp [measurePair, front] at silent
      · simp [measurePair, frontShown, back] at silent

/-- A pair without an issue is legible, where every property of the map is set. -/
theorem legible_of_measurePair (set : ∀ name ∈ map.names, registry.get? name ≠ none)
    (silent : measurePair map registry foreground background = none) :
    ∃ front back, registry.color foreground = .ok front ∧ registry.color background = .ok back ∧
      ContrastRatio.threshold ≤ ContrastRatio.between front back := by
  cases front : registry.color foreground with
  | error error =>
      obtain ⟨target, held, rfl⟩ := eq_missing_of_measurePair (.inl front) silent
      exact absurd (Evaluation.get?_of_colorAt_missing front) (set target held)
  | ok frontColor =>
      cases back : registry.color background with
      | error error =>
          obtain ⟨target, held, rfl⟩ :=
            eq_missing_of_measurePair (.inr ⟨⟨frontColor, front⟩, back⟩) silent
          exact absurd (Evaluation.get?_of_colorAt_missing back) (set target held)
      | ok backColor =>
          refine ⟨frontColor, backColor, rfl, rfl, ?_⟩
          by_contra low
          simp [measurePair, front, back, low] at silent

/-- What is read of a live text where nothing is wrong with it. -/
theorem indirectionIssue?_eq_none_iff {name : Name} {text : String} :
    indirectionIssue? name text = none ↔
      (name.tier = .brand ∨ name.tier = .ui →
        (Value.read text).isLiteral = false ∧ (Value.read text).hasFixedWeight = false) := by
  have managed : name.tier.readable?.isNone = true ↔ ¬ (name.tier = .brand ∨ name.tier = .ui) := by
    cases name.tier <;> simp [Tier.readable?]
  by_cases free : name.tier.readable?.isNone = true
  · rw [indirectionIssue?, if_pos free]
    exact ⟨fun _ tier => absurd tier (managed.1 free), fun _ => rfl⟩
  · have tier := Decidable.not_not.1 (mt managed.2 free)
    simp only [indirectionIssue?, if_neg free, tier, true_implies]
    cases (Value.read text).isLiteral <;> cases (Value.read text).hasFixedWeight <;> simp

/-- A computation has reported a foreground if one of its issues of two kinds is about it. -/
theorem isKnown_eq_false_iff {issues : List Issue} :
    isKnown issues foreground = false ↔
      ∀ issue ∈ issues, issue.kind = .exhausted ∨ issue.kind = .onTone →
        issue.locus ≠ foreground.text := by
  simp only [isKnown, List.any_eq_false, Bool.and_eq_true, Bool.or_eq_true, beq_iff_eq, not_and,
    ne_eq]

end Inspection

/-- What is live where nothing is wrong with it. -/
structure Registry.IsClean (registry : Registry) (computation : Computation) : Prop where
  /-- Every computed property is set. -/
  set : ∀ name ∈ computation.map.names, registry.get? name ≠ none
  /-- Brand and component properties read other properties, weights included. -/
  indirect : ∀ name text, registry.get? name = some text → name.tier = .brand ∨ name.tier = .ui →
    (Value.read text).isLiteral = false ∧ (Value.read text).hasFixedWeight = false
  /-- Every pair is legible, unless the computation has reported its foreground. -/
  legible : ∀ foreground background, (foreground, background) ∈ computation.map.pairs →
    (∀ issue ∈ computation.issues, issue.kind = .exhausted ∨ issue.kind = .onTone →
      issue.locus ≠ foreground.text) →
    ∃ front back, registry.color foreground = .ok front ∧ registry.color background = .ok back ∧
      ContrastRatio.threshold ≤ ContrastRatio.between front back

/-- An inspection finds nothing exactly where nothing is wrong. -/
theorem Computation.liveIssues_eq_nil_iff (computation : Computation) (registry : Registry) :
    computation.liveIssues registry = [] ↔ registry.IsClean computation := by
  simp only [liveIssues, List.append_eq_nil_iff]
  constructor
  · rintro ⟨⟨unset, indirection⟩, pairs⟩
    have set : ∀ name ∈ computation.map.names, registry.get? name ≠ none := by
      intro name listed missing
      refine List.eq_nil_iff_forall_not_mem.1 unset _ (Inspection.mem_unsetIssues.2
        ⟨name, (computation.map.mem_names name).1 listed, missing, rfl⟩)
    refine ⟨set, fun name text live => ?_, fun foreground background pair unknown => ?_⟩
    · refine Inspection.indirectionIssue?_eq_none_iff.1 (Option.eq_none_iff_forall_ne_some.2 ?_)
      intro issue found
      exact List.eq_nil_iff_forall_not_mem.1 indirection issue
        (Inspection.mem_indirectionIssues.2 ⟨name, text, live, found⟩)
    · refine Inspection.legible_of_measurePair set (Option.eq_none_iff_forall_ne_some.2 ?_)
      intro issue found
      exact List.eq_nil_iff_forall_not_mem.1 pairs issue (Inspection.mem_pairIssues.2
        ⟨foreground, background, (computation.map.mem_pairs _ _).1 pair,
          Inspection.isKnown_eq_false_iff.2 unknown, found⟩)
  · intro clean
    refine ⟨⟨?_, ?_⟩, ?_⟩
    · refine Inspection.unsetIssues_eq_nil fun name listed => ?_
      rw [Registry.contains_eq_isSome, Option.isSome_iff_ne_none]
      exact clean.set name listed
    · refine List.eq_nil_iff_forall_not_mem.2 fun issue listed => ?_
      obtain ⟨name, text, live, found⟩ := Inspection.mem_indirectionIssues.1 listed
      rw [Inspection.indirectionIssue?_eq_none_iff.2 (clean.indirect name text live)] at found
      cases found
    · refine List.eq_nil_iff_forall_not_mem.2 fun issue listed => ?_
      obtain ⟨foreground, background, pair, unknown, found⟩ := Inspection.mem_pairIssues.1 listed
      obtain ⟨front, back, frontShown, backShown, contrast⟩ := clean.legible foreground background
        ((computation.map.mem_pairs _ _).2 pair) (Inspection.isKnown_eq_false_iff.1 unknown)
      rw [Inspection.measurePair_of_legible frontShown backShown contrast] at found
      cases found

end Legible
