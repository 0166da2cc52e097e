import Legible.Proofs.Token.Index
import Legible.Theme.Stepping

/-!
# Searches that have an outcome

A search that starts at a level of its ramp examines that level first. Whatever it
finds legible after that, it ends with one of the levels it examined, so it leaves out
no foreground whose anchor is a level of a ramp.
-/

namespace Legible

namespace Step

/-- A walk over candidates ends with the first legible one, or with the first of all when
none is; without candidates it has no outcome. -/
theorem choose?_cases (candidates : List Candidate) :
    candidates = [] ∧ choose? candidates = none ∨
      (∃ before found after, candidates = before ++ found :: after ∧
        (∀ candidate ∈ before, candidate.isLegible = false) ∧ found.isLegible = true ∧
        choose? candidates =
          some ⟨found, true, before.map Candidate.level ++ [found.level]⟩) ∨
      ∃ first rest, candidates = first :: rest ∧
        (∀ candidate ∈ candidates, candidate.isLegible = false) ∧
        choose? candidates = some ⟨first, false, candidates.map Candidate.level⟩ := by
  have whole := List.takeWhile_append_dropWhile
    (p := fun candidate : Candidate => !candidate.isLegible) (l := candidates)
  have failing : ∀ candidate ∈ candidates.takeWhile fun candidate => !candidate.isLegible,
      candidate.isLegible = false := by
    intro candidate passed
    simpa using List.all_eq_true.1 List.all_takeWhile candidate passed
  have stop := List.head?_dropWhile_not (fun candidate : Candidate => !candidate.isLegible)
    candidates
  cases left : candidates.dropWhile fun candidate => !candidate.isLegible with
  | cons found after =>
      rw [left] at whole stop
      refine .inr (.inl ⟨_, found, after, whole.symm, failing, by simpa using stop, ?_⟩)
      rw [choose?, left]
      simp
  | nil =>
      rw [left, List.append_nil] at whole
      rw [whole] at failing
      cases candidates with
      | nil => exact .inl ⟨rfl, rfl⟩
      | cons first rest =>
          refine .inr (.inr ⟨first, rest, rfl, failing, ?_⟩)
          rw [choose?, left, whole]
          rfl

/-- A walk over at least one candidate ends with one of them. -/
theorem exists_choose? (first : Candidate) (rest : List Candidate) :
    ∃ step, choose? (first :: rest) = some step := by
  rcases choose?_cases (first :: rest) with
    ⟨none, -⟩ | ⟨_, _, _, -, -, -, found⟩ | ⟨_, _, -, -, found⟩
  · cases none
  · exact ⟨_, found⟩
  · exact ⟨_, found⟩

end Step

namespace Ramp

variable {ramp : Ramp} {start : Token.Level} {color : Color}

/-- The levels of a ramp are those that have a color. -/
theorem mem_levels_of_color? (held : ramp.color? start = some color) : start ∈ ramp.levels := by
  rw [levels, Std.TreeMap.mem_keys, Std.TreeMap.mem_iff_isSome_getElem?]
  exact Option.isSome_iff_exists.2 ⟨color, held⟩

/-- A level of a ramp has a color. -/
theorem exists_color?_of_mem (listed : start ∈ ramp.levels) :
    ∃ color, ramp.color? start = some color := by
  rw [levels, Std.TreeMap.mem_keys, Std.TreeMap.mem_iff_isSome_getElem?] at listed
  exact Option.isSome_iff_exists.1 listed

/-- A candidate is a level of the ramp with its color, measured on the background. -/
theorem measured_of_mem_candidates {background : Color} {opacity : Float} {candidate : Candidate}
    (listed : candidate ∈ ramp.candidates start background opacity) :
    ∃ color, ramp.color? candidate.level = some color ∧
      candidate = .measure candidate.level color background opacity := by
  obtain ⟨level, -, given⟩ := List.mem_filterMap.1 listed
  obtain ⟨color, held, rfl⟩ := Option.map_eq_some_iff.1 given
  exact ⟨color, held, rfl⟩

/-- A search examines the level first that it starts at. -/
theorem searchOrder_of_color? (held : ramp.color? start = some color) :
    ∃ rest, ramp.searchOrder start = start :: rest := by
  obtain ⟨position, found⟩ : ∃ position, ramp.position? start = some position := by
    rw [← Option.isSome_iff_exists, position?, List.findIdx?_isSome, List.any_eq_true]
    exact ⟨start, mem_levels_of_color? held, beq_self_eq_true start⟩
  obtain ⟨inside, own, -⟩ := List.findIdx?_eq_some_iff_getElem.1 found
  have origin : ramp.origin? start = some position := by
    rw [origin?, found]
    rfl
  rw [searchOrder, origin]
  simp only [outward, List.drop_eq_getElem_cons inside, List.take_succ_cons, List.take_zero,
    List.cons_append, List.nil_append, beq_iff_eq.1 own]
  exact ⟨_, rfl⟩

/-- A search that starts at a level of its ramp has an outcome. -/
theorem exists_search? (held : ramp.color? start = some color) (background : Color)
    (opacity : Float) : ∃ step, ramp.search? start background opacity = some step := by
  obtain ⟨rest, order⟩ := searchOrder_of_color? held
  rw [search?, candidates, order, List.filterMap_cons, held]
  exact Step.exists_choose? _ _

end Ramp

end Legible
