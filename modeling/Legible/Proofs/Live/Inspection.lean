import Legible.Live.Inspection
import Legible.Proofs.Live.Evaluation
import Legible.Proofs.Live.Store

/-!
# What an inspection finds

An inspection finds errors alone: computed properties that are not set, live texts that
are no indirections, and pairs. What it finds of a pair is settled by what both sides
render as. Where some properties of a map are brought back to their values, and nothing
else is touched, no property is unset by that and no text stops being an indirection: all
that can become worse is a pair.
-/

namespace Legible

open Property

namespace Inspection

variable {map : PropertyMap} {registry : Registry} {issue : Issue}

/-! ## Pairs -/

section

variable {foreground background : Name}

/-- A pair measures the same where both sides render the same. -/
theorem measurePair_congr {first second : Registry}
    (front : first.color foreground = second.color foreground)
    (back : first.color background = second.color background) :
    measurePair map first foreground background = measurePair map second foreground background := by
  rw [measurePair, measurePair, front, back]

/-- A pair that renders with enough contrast has no issue. -/
theorem measurePair_of_legible {front back : Color}
    (frontShown : registry.color foreground = .ok front)
    (backShown : registry.color background = .ok back)
    (contrast : ContrastRatio.threshold ≤ ContrastRatio.between front back) :
    measurePair map registry foreground background = none := by
  simp only [measurePair, frontShown, backShown, if_pos contrast]

/-- The issue of a pair is an error about its foreground, and not about a text. -/
structure IsAbout (issue : Issue) (foreground : Name) : Prop where
  isError : issue.isError = true
  kind : issue.kind ≠ .validation
  locus : issue.locus = foreground.text

theorem isAbout_of_measurePair
    (found : measurePair map registry foreground background = some issue) :
    IsAbout issue foreground := by
  -- Each branch says nothing, or it says an error about the foreground.
  unfold measurePair at found
  dsimp only at found
  repeat' split at found
  all_goals cases found
  all_goals exact ⟨rfl, nofun, rfl⟩

end

/-- The pairs with issues are those of the map that were not reported before. -/
theorem mem_pairIssues {computation : Computation} :
    issue ∈ pairIssues computation registry ↔
      ∃ foreground background, computation.map.background? foreground = some background ∧
        isKnown computation.issues foreground = false ∧
        measurePair computation.map registry foreground background = some issue := by
  simp only [pairIssues, List.mem_filterMap, Prod.exists, PropertyMap.mem_pairs]
  refine exists_congr fun foreground => exists_congr fun background => and_congr_right fun _ => ?_
  cases known : isKnown computation.issues foreground <;> simp

theorem pairIssues_eq_nil {computation : Computation}
    (legible : ∀ foreground background, (foreground, background) ∈ computation.map.pairs →
      ∃ front back, registry.color foreground = .ok front ∧ registry.color background = .ok back ∧
        (ContrastRatio.threshold ≤ ContrastRatio.between front back ∨
          isKnown computation.issues foreground = true)) :
    pairIssues computation registry = [] := by
  refine List.eq_nil_iff_forall_not_mem.2 fun issue member => ?_
  obtain ⟨name, background, pair, unknown, found⟩ := mem_pairIssues.1 member
  obtain ⟨front, back, frontShown, backShown, enough⟩ :=
    legible name background ((PropertyMap.mem_pairs _ _ _).2 pair)
  rcases enough with contrast | known
  · rw [measurePair_of_legible frontShown backShown contrast] at found
    cases found
  · rw [unknown] at known
    cases known

/-! ## Properties that are not set -/

theorem mem_unsetIssues :
    issue ∈ unsetIssues map registry ↔
      ∃ name, (∃ value, map.value? name = some value) ∧ registry.get? name = none ∧
        Issue.error .validation name.text "not set" = issue := by
  simp only [unsetIssues, List.mem_map, List.mem_filter, PropertyMap.mem_names,
    Registry.contains_eq_isSome, Bool.not_eq_true', Option.isSome_eq_false_iff,
    Option.isNone_iff_eq_none, and_assoc]

theorem unsetIssues_eq_nil
    (set : ∀ name ∈ map.names, registry.contains name = true) : unsetIssues map registry = [] := by
  rw [unsetIssues, List.map_eq_nil_iff, List.filter_eq_nil_iff]
  intro name member
  simp [set name member]

/-! ## Texts that are no indirections -/

/-- An indirection has no issue, and a token need not be one. -/
theorem indirectionIssue?_eq_none {name : Name} {text : String}
    (indirect : name.tier ≠ .tokens →
      (Value.read text).isLiteral = false ∧ (Value.read text).hasFixedWeight = false) :
    indirectionIssue? name text = none := by
  by_cases tier : name.tier = .tokens
  · simp only [indirectionIssue?, tier]
    rfl
  · obtain ⟨indirection, weight⟩ := indirect tier
    simp [indirectionIssue?, indirection, weight]

theorem mem_indirectionIssues :
    issue ∈ indirectionIssues registry ↔
      ∃ name text, registry.get? name = some text ∧ indirectionIssue? name text = some issue := by
  simp only [indirectionIssues, List.mem_filterMap, Prod.exists, Registry.mem_toList]

theorem indirectionIssues_eq_nil
    (indirect : ∀ name text, registry.get? name = some text → name.tier ≠ .tokens →
      (Value.read text).isLiteral = false ∧ (Value.read text).hasFixedWeight = false) :
    indirectionIssues registry = [] := by
  refine List.eq_nil_iff_forall_not_mem.2 fun issue member => ?_
  obtain ⟨name, text, live, found⟩ := mem_indirectionIssues.1 member
  rw [indirectionIssue?_eq_none (indirect name text live)] at found
  cases found

theorem isError_of_indirectionIssue? {name : Name} {text : String}
    (found : indirectionIssue? name text = some issue) : issue.isError = true := by
  unfold indirectionIssue? at found
  dsimp only at found
  split at found
  · cases found
  · split at found
    · cases found
      rfl
    · split at found
      · cases found
        rfl
      · cases found

end Inspection

/-- Everything that an inspection finds is an error. -/
theorem Computation.isError_of_mem_liveIssues {computation : Computation} {registry : Registry}
    {issue : Issue} (member : issue ∈ computation.liveIssues registry) : issue.isError = true := by
  rw [liveIssues, List.mem_append, List.mem_append] at member
  rcases member with (unset | indirection) | pair
  · obtain ⟨name, -, -, rfl⟩ := Inspection.mem_unsetIssues.1 unset
    rfl
  · obtain ⟨name, text, -, found⟩ := Inspection.mem_indirectionIssues.1 indirection
    exact Inspection.isError_of_indirectionIssue? found
  · obtain ⟨foreground, background, -, -, found⟩ := Inspection.mem_pairIssues.1 pair
    exact (Inspection.isAbout_of_measurePair found).isError

/-- An inspection reads nothing but the live texts. -/
theorem Computation.liveIssues_congr {computation : Computation} {first second : Registry}
    (same : ∀ name, first.get? name = second.get? name) :
    computation.liveIssues first = computation.liveIssues second := by
  have unset (name : Name) : first.contains name = second.contains name := by
    rw [Registry.contains_eq_isSome, Registry.contains_eq_isSome, same]
  have color (name : Name) : first.color name = second.color name :=
    Registry.color_congr fun target _ => same target
  have measured (foreground background : Name) :
      Inspection.measurePair computation.map first foreground background =
        Inspection.measurePair computation.map second foreground background :=
    Inspection.measurePair_congr (color foreground) (color background)
  simp only [liveIssues, Inspection.unsetIssues, Inspection.indirectionIssues,
    Inspection.pairIssues, unset, Registry.toList_congr same, measured]

/-! ## Bringing properties back -/

/-- A registry comes from another one by bringing some properties of a map back to their
values. -/
def Registry.Restores (before after : Registry) (map : PropertyMap) : Prop :=
  ∀ name, after.get? name = before.get? name ∨
    ∃ value, map.value? name = some value ∧ after.get? name = some value.render

namespace Inspection

variable {map : PropertyMap} {before after : Registry}

/-- Nothing is unset by bringing properties back. -/
theorem unsetIssues_subset (restores : before.Restores after map) :
    unsetIssues map after ⊆ unsetIssues map before := by
  intro issue member
  obtain ⟨name, held, unset, rfl⟩ := mem_unsetIssues.1 member
  refine mem_unsetIssues.2 ⟨name, held, ?_, rfl⟩
  rcases restores name with same | ⟨value, -, live⟩
  · exact same.symm.trans unset
  · rw [unset] at live
    cases live

/-- No text stops being an indirection where the values of the map are indirections. -/
theorem indirectionIssues_subset (restores : before.Restores after map)
    (indirect : ∀ name value, map.value? name = some value → name.tier ≠ .tokens →
      (Value.read value.render).isLiteral = false ∧
        (Value.read value.render).hasFixedWeight = false) :
    indirectionIssues after ⊆ indirectionIssues before := by
  intro issue member
  obtain ⟨name, text, live, found⟩ := mem_indirectionIssues.1 member
  rcases restores name with same | ⟨value, held, restored⟩
  · exact mem_indirectionIssues.2 ⟨name, text, same.symm.trans live, found⟩
  · obtain rfl : value.render = text := Option.some.inj (restored.symm.trans live)
    rw [indirectionIssue?_eq_none (indirect name value held)] at found
    cases found

end Inspection

end Legible
