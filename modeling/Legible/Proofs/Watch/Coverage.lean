import Legible.Proofs.Theme.Soundness
import Legible.Proofs.Watch.Graph
import Legible.Proofs.Watch.Run

/-!
# What the dependency graph covers

A property that reads another is affected by it: the property that it reads is one that
it lists, or the value of one that it lists, and those are nearer to the tokens. The
level that a search moved to is covered by no edge, so a change of that token alone
does not reach what was found there.
-/

namespace Legible

open Property

namespace Configuration

variable {configuration : Configuration} {name target : Name} {value : Value}

/-- What a search finds comes after all surfaces. -/
theorem Moved.rank (moved : configuration.Moved name target) : 6 ≤ name.rank := by
  cases moved with
  | intro declared listed found sought search moved => exact rank_of_seeks sought

/-- A computed property is affected by what it reads, unless a search moved there. -/
theorem mem_affected_of_reads (tier : name.tier ≠ .tokens)
    (held : configuration.compute.map.value? name = some value) (reads : target ∈ value.references)
    (still : ¬ configuration.Moved name target) :
    name ∈ (DependencyGraph.ofMap configuration.compute.map).affected [target] := by
  -- By induction on the rank: what is listed comes before what it is listed by.
  generalize own : name.rank = rank
  induction rank using Nat.strongRecOn generalizing name value with
  | _ rank inductionHypothesis =>
      obtain ⟨origin, derived, rests, -⟩ := rests_of_value? tier held
      rcases rests.reads target reads with listed | ⟨input, listed, low, shown⟩ | moved
      · exact DependencyGraph.mem_affected_of_input derived listed
          (DependencyGraph.mem_affected_of_root (List.mem_singleton_self _))
      · obtain ⟨added, lower⟩ := rests.listed input listed
        have shows := shown.value? added
        refine DependencyGraph.mem_affected_of_input derived listed
          (inductionHypothesis input.rank (own ▸ lower) ?_ shows (List.mem_singleton_self _) ?_ rfl)
        · intro token
          have literal := isLiteral_of_tokens shows token
          cases literal
        · intro moved
          have high := moved.rank
          omega
      · exact absurd moved still

/-- A change of a property that a derived property reads reaches the derived property
and everything that stands on it, unless a search moved there. -/
theorem mem_affected_of_reference {origin : Origin}
    (derived : configuration.compute.map.origin? name = some origin)
    (held : configuration.compute.map.value? name = some value) (reads : target ∈ value.references)
    (still : ¬ configuration.Moved name target) :
    name ∈ (DependencyGraph.ofMap configuration.compute.map).affected [target] ∧
      ∀ foreground, configuration.compute.map.background? foreground = some name →
        foreground ∈ (DependencyGraph.ofMap configuration.compute.map).affected [target] := by
  have reached := mem_affected_of_reads (tier_ne_of_origin? derived) held reads still
  refine ⟨reached, fun foreground opposite => ?_⟩
  obtain ⟨origin', derived', back⟩ := Option.bind_eq_some_iff.1 opposite
  obtain ⟨value', rests⟩ := rests_of_origin? derived'
  exact DependencyGraph.mem_affected_of_input derived' (rests.background name back) reached

/-- A new gray reaches the surface that is gray. -/
theorem mem_affected_of_reference_surface :
    ∃ origin, Sample.onGray.compute.map.origin? Sample.surface = some origin ∧
      Sample.onGray.compute.map.value? Sample.surface =
        some (.reference ⟨"--tokens-color-gray-500"⟩) ∧
      ¬ Sample.onGray.Moved Sample.surface ⟨"--tokens-color-gray-500"⟩ ∧
      Sample.surface ∈ (DependencyGraph.ofMap Sample.onGray.compute.map).affected
        [⟨"--tokens-color-gray-500"⟩] ∧
      Sample.text ∈ (DependencyGraph.ofMap Sample.onGray.compute.map).affected
        [⟨"--tokens-color-gray-500"⟩] := by
  have facts : (fun map : PropertyMap =>
      (map.origin? Sample.surface).isSome = true ∧
        map.value? Sample.surface = some (.reference ⟨"--tokens-color-gray-500"⟩) ∧
        map.background? Sample.text = some Sample.surface) Sample.onGray.compute.map := by
    decide +kernel
  obtain ⟨isDerived, held, stands⟩ := facts
  obtain ⟨origin, derived⟩ := Option.isSome_iff_exists.1 isDerived
  have still : ¬ Sample.onGray.Moved Sample.surface ⟨"--tokens-color-gray-500"⟩ := by
    intro moved
    have low : Sample.surface.rank = 5 := by decide
    have high := moved.rank
    omega
  obtain ⟨reached, standing⟩ :=
    mem_affected_of_reference derived held (List.mem_singleton_self _) still
  exact ⟨origin, derived, held, still, reached, standing _ stands⟩

end Configuration

/-- An interactive color that is bound to white on a white surface. -/
def Sample.washedOut : Configuration :=
  .ofDocuments (tokens grays [])
    (theme (core.take 2 ++
        [("interactive", .object [("default", leaf (.text "\x7btokens.color.gray.000\x7d"))])])
      [("surface", leaf (.text "\x7btokens.color.gray.000\x7d"))]) (.empty "ui-kit") {}

/-- The tone of an interactive color that is white on white becomes gray. Neither the tone
nor what stands on it is affected by that gray. -/
theorem Configuration.not_mem_affected_of_washedOut :
    (Sample.washedOut.compute.map.origin? Sample.tone).isSome = true ∧
      Sample.washedOut.compute.map.value? Sample.tone =
        some (.reference ⟨"--tokens-color-gray-500"⟩) ∧
      Sample.washedOut.compute.map.background? Sample.onTone = some Sample.tone ∧
      Sample.tone ∉ (DependencyGraph.ofMap Sample.washedOut.compute.map).affected
        [⟨"--tokens-color-gray-500"⟩] ∧
      Sample.onTone ∉ (DependencyGraph.ofMap Sample.washedOut.compute.map).affected
        [⟨"--tokens-color-gray-500"⟩] := by
  decide +kernel

end Legible
