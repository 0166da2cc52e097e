import Legible.Proofs.Theme.Part

/-!
# A computation only warns

Whatever a computation reports - a binding that leads nowhere, a token that is left out,
an on-tone or a ramp without a legible level - it goes on without it. So it never
reports an error; errors come from writes and from what is shown.
-/

namespace Legible

open Property

namespace Emission

/-- An emission that reports no error. -/
def Warns (emission : Emission) : Prop := ∀ issue ∈ emission.issues, issue.isError = false

theorem warns_entry (name : Name) (entry : Entry) : Warns (.entry name entry) :=
  fun issue member => by cases member

theorem warns_warning (kind : IssueKind) (locus message : String) :
    Warns (.ofIssues [Issue.warning kind locus message]) := by
  intro issue member
  rw [List.mem_singleton.1 member]
  rfl

theorem warns_nil : Warns {} := fun issue member => by cases member

theorem Warns.append {first second : Emission} (left : first.Warns) (right : second.Warns) :
    (first ++ second).Warns := by
  intro issue member
  rcases List.mem_append.1 member with earlier | later
  · exact left issue earlier
  · exact right issue later

theorem warns_join {emissions : List Emission} (all : ∀ emission ∈ emissions, emission.Warns) :
    (join emissions).Warns := by
  intro issue member
  obtain ⟨emission, listed, given⟩ := List.mem_flatMap.1 member
  exact all emission listed issue given

end Emission

open Emission

/-! ## Anchors, palettes and bindings that are copied through -/

namespace Anchors

theorem warns_resolveSlot {resolver : Resolver} {slot : CoreSlot} {issue : Issue}
    (given : (resolveSlot resolver slot).2 = some issue) : issue.isError = false := by
  unfold resolveSlot at given
  dsimp only at given
  split at given
  · cases given
  · split at given
    · cases given
      rfl
    · cases given
      rfl

theorem warns_resolve (resolver : Resolver) : Warns (.ofIssues (resolve resolver).2) := by
  intro issue member
  obtain ⟨_, listed, same⟩ := List.mem_filterMap.1 member
  obtain ⟨slot, -, rfl⟩ := List.mem_map.1 listed
  exact warns_resolveSlot same

theorem warns_emission (anchors : Anchors) : anchors.emission.Warns := by
  refine warns_join fun emission listed => ?_
  obtain ⟨⟨slot, anchor⟩, -, rfl⟩ := List.mem_map.1 listed
  exact warns_entry _ _

end Anchors

namespace Palette

theorem warns_onToneIssues (mode : Mode) (key : String) (primary : Option Token.Level)
    (shade : PaletteLevel) : ∀ issue ∈ onToneIssues mode key primary shade, issue.isError = false := by
  intro issue member
  unfold onToneIssues at member
  split at member
  · split at member
    · cases member
    · obtain ⟨level, -, rfl⟩ := List.mem_map.1 member
      rfl
  · cases member

theorem warns_resolvePrimary (resolver : Resolver) (key : String) (ramp : Ramp) :
    ∀ issue ∈ (resolvePrimary resolver key ramp).2, issue.isError = false := by
  intro issue member
  unfold resolvePrimary at member
  split at member
  · cases member
  · split at member
    · cases member
    · rw [List.mem_singleton.1 member]
      rfl

theorem warns_resolve (resolver : Resolver) (anchors : Anchors) (key : String) :
    Warns (.ofIssues (resolve resolver anchors key).2) := by
  intro issue member
  unfold resolve at member
  split at member
  · rw [List.mem_singleton.1 member]
    rfl
  · next ramp _ =>
      rcases List.mem_append.1 member with before | levels
      · rcases List.mem_append.1 before with mark | missing
        · exact warns_resolvePrimary resolver key ramp issue mark
        · split at missing
          · cases missing
          · rw [List.mem_singleton.1 missing]
            rfl
      · obtain ⟨shade, -, given⟩ := List.mem_flatMap.1 levels
        exact warns_onToneIssues _ _ _ shade issue given

theorem warns_levelEmission (mode : Mode) (key : String) (shade : PaletteLevel)
    (level : Option Token.Level) : (levelEmission mode key shade level).Warns := by
  unfold levelEmission
  refine (warns_entry _ _).append ?_
  split
  · exact warns_entry _ _
  · exact warns_nil

theorem warns_emission (mode : Mode) (palette : Palette) : (palette.emission mode).Warns := by
  refine warns_join fun emission listed => ?_
  rcases List.mem_append.1 listed with own | marked
  · obtain ⟨shade, -, rfl⟩ := List.mem_map.1 own
    exact warns_levelEmission _ _ _ _
  · obtain ⟨shade, -, rfl⟩ := List.mem_map.1 marked
    exact warns_levelEmission _ _ _ _

theorem warns_resolveAll (resolver : Resolver) (anchors : Anchors) :
    (resolveAll resolver anchors).2.Warns := by
  have each (palette : Option Palette) :
      ((palette.map (emission resolver.mode)).getD {}).Warns := by
    cases palette with
    | none => exact warns_nil
    | some palette => exact warns_emission _ palette
  refine warns_join fun emission listed => ?_
  obtain ⟨_, resolved, rfl⟩ := List.mem_map.1 listed
  obtain ⟨key, -, rfl⟩ := List.mem_map.1 resolved
  exact (each _).append (warns_resolve resolver anchors key)

end Palette

theorem Configuration.warns_copied (resolver : Resolver) (subsystem : Subsystem) :
    (copiedEmission resolver subsystem).Warns := by
  refine warns_join fun emission listed => ?_
  obtain ⟨leaf, -, rfl⟩ := List.mem_map.1 listed
  unfold copiedLeaf
  dsimp only
  split
  · exact warns_warning _ _ _
  · split
    · exact warns_entry _ _
    · exact warns_warning _ _ _

theorem Emphasis.warns_resolve (resolver : Resolver) (configured : Option String) :
    Warns (.ofIssues (resolve resolver configured).2) := by
  intro issue member
  unfold resolve at member
  split at member
  · cases member
  · split at member
    · cases member
    · rw [List.mem_singleton.1 member]
      rfl

/-! ## Layers -/

namespace LayerContext

variable {context : LayerContext} {surface : Surface}

theorem warns_surface (context : LayerContext) (layer : LayerId) :
    (context.surface layer).2.Warns := by
  unfold surface
  dsimp only
  split
  · exact warns_entry _ _
  · split
    · exact warns_warning _ _ _
    · exact (warns_warning _ _ _).append (warns_entry _ _)

theorem warns_step (step : Step) (name : String) (ramp : Ramp) :
    Warns (.ofIssues (step.issue? name ramp).toList) := by
  intro issue member
  have given : step.issue? name ramp = some issue := Option.mem_toList.1 member
  unfold Step.issue? at given
  split at given
  · cases given
  · cases given
    rfl

theorem warns_foreground {name : Name} {anchor : Anchor} {backdrop : Backdrop} {blended : Bool}
    {origin : Origin} : (context.foreground name anchor backdrop blended origin).2.Warns := by
  unfold foreground
  split
  · dsimp only
    split
    · exact warns_nil
    · exact (warns_step _ _ _).append (warns_entry _ _)
  · exact warns_warning _ _ _

theorem warns_text : (context.text surface).Warns := by
  unfold text
  dsimp only
  split
  · exact warns_warning _ _ _
  · exact warns_foreground

theorem warns_status (color : CoreColor) : (context.status surface color).Warns := by
  unfold status
  dsimp only
  split
  · exact warns_nil
  · exact warns_foreground

theorem warns_interactive (state : InteractiveState) :
    (context.interactive surface state).Warns := by
  unfold interactive
  dsimp only
  split
  · exact warns_nil
  · split
    · exact warns_foreground
    · refine warns_foreground.append ?_
      unfold interactiveOnTone
      split
      · exact warns_nil
      · exact warns_foreground

theorem warns_layer (context : LayerContext) (layer : LayerId) : (context.layer layer).2.Warns := by
  have own := context.warns_surface layer
  unfold LayerContext.layer
  split
  · next emission given =>
      rw [given] at own
      exact own
  · next surface emission given =>
      rw [given] at own
      refine own.append ((warns_text.append ?_).append ?_)
      · refine warns_join fun emission listed => ?_
        obtain ⟨state, -, rfl⟩ := List.mem_map.1 listed
        exact warns_interactive state
      · refine warns_join fun emission listed => ?_
        obtain ⟨color, -, rfl⟩ := List.mem_map.1 listed
        exact warns_status color

end LayerContext

/-! ## The whole computation -/

namespace Configuration

variable (configuration : Configuration)

theorem warns_tokenEmission (index : Token.Index) : (tokenEmission index).Warns := by
  intro issue member
  obtain ⟨rejection, -, rfl⟩ := List.mem_map.1 member
  rfl

theorem warns_modeEmission (mode : Mode) : (configuration.modeEmission mode).2.Warns := by
  refine .append (.append (.append (.append (.append (Anchors.warns_resolve _)
    (Anchors.warns_emission _)) (Palette.warns_resolveAll _ _)) ?_)
    (Emphasis.warns_resolve _ _)) ?_
  · refine warns_join fun emission listed => ?_
    obtain ⟨subsystem, -, rfl⟩ := List.mem_map.1 listed
    exact warns_copied _ subsystem
  · refine warns_join fun emission listed => ?_
    obtain ⟨_, given, rfl⟩ := List.mem_map.1 listed
    obtain ⟨layer, -, rfl⟩ := List.mem_map.1 given
    exact LayerContext.warns_layer _ layer

theorem warns_componentEmission (map : PropertyMap) :
    (configuration.componentEmission map).Warns := by
  refine warns_join fun emission listed => ?_
  obtain ⟨leaf, -, rfl⟩ := List.mem_map.1 listed
  unfold componentLeaf
  dsimp only
  split
  · exact warns_entry _ _
  · exact warns_warning _ _ _

/-- A computation only warns. -/
theorem warns_compute : ∀ issue ∈ configuration.compute.issues, issue.isError = false := by
  have bound : configuration.boundEmission.Warns := by
    refine (warns_tokenEmission _).append (warns_join fun emission listed => ?_)
    obtain ⟨mode, -, rfl⟩ := List.mem_map.1 listed
    exact configuration.warns_modeEmission mode
  rw [compute_issues]
  exact bound.append (configuration.warns_componentEmission _)

end Configuration

end Legible
