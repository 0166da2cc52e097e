import Legible.Proofs.Theme.Follow
import Legible.Proofs.Theme.Soundness

/-!
# What a computation reports

A stage that leaves something out gives an issue in its place, and every issue of a
stage is one of the whole computation. A core color without an anchor is reported at
its binding and a surface that is left out at its own; neither is added by any other
stage, so what is reported is missing from the computed map as well.
-/

namespace Legible

open Property

namespace Configuration

variable {configuration : Configuration} {mode : Mode}

/-- Whether a computation has an issue about a property or a place in a document. -/
def Reports (configuration : Configuration) (locus : String) : Prop :=
  ∃ issue ∈ configuration.compute.issues, issue.locus = locus

/-- The computed map holds what a computation adds. -/
theorem contains_iff_adds (configuration : Configuration) (name : Name) :
    configuration.compute.map.contains name = true ↔ configuration.Adds name := by
  constructor
  · intro contained
    obtain ⟨value, held⟩ := (PropertyMap.contains_iff _ _).1 contained
    rw [compute_map] at held
    obtain ⟨entry, member, -⟩ := PropertyMap.mem_of_value? held
    exact ⟨entry, member⟩
  · exact Adds.contains

theorem contains_eq_false_iff_adds (configuration : Configuration) (name : Name) :
    configuration.compute.map.contains name = false ↔ ¬ configuration.Adds name := by
  rw [← contains_iff_adds, Bool.not_eq_true]

/-! ## Stages of a mode -/

/-- The issues of a declared mode are those of the computation. -/
theorem mem_issues_of_modeEmission (declared : mode ∈ configuration.modes) {issue : Issue}
    (member : issue ∈ (configuration.modeEmission mode).2.issues) :
    issue ∈ configuration.compute.issues := by
  rw [compute_issues, boundEmission]
  refine List.mem_append_left _ (List.mem_append_right _ (List.mem_flatMap.2 ⟨_, ?_, member⟩))
  exact List.mem_map_of_mem declared

/-- Where the issues of a mode come from. -/
theorem issues_modeEmission (configuration : Configuration) (mode : Mode) :
    (configuration.modeEmission mode).2.issues =
      (Anchors.resolve (configuration.resolver mode)).2 ++
        (configuration.anchorsOf mode).emission.issues ++
        (Palette.resolveAll (configuration.resolver mode)
          (configuration.anchorsOf mode)).2.issues ++
        (Emission.join (Subsystem.copied.map
          (copiedEmission (configuration.resolver mode)))).issues ++
        (Emphasis.resolve (configuration.resolver mode)
          configuration.options.textEmphasis).2 ++
        (LayerContext.resolve (configuration.layersOf mode)).2.issues := rfl

theorem mem_issues_of_anchors (declared : mode ∈ configuration.modes) {issue : Issue}
    (member : issue ∈ (Anchors.resolve (configuration.resolver mode)).2) :
    issue ∈ configuration.compute.issues := by
  refine mem_issues_of_modeEmission declared ?_
  simp only [issues_modeEmission, List.mem_append]
  tauto

theorem mem_issues_of_palette (declared : mode ∈ configuration.modes) {key : String}
    (listed : key ∈ configuration.theme.keys ["themes", mode.text, "palettes"]) {issue : Issue}
    (member : issue ∈ (Palette.resolve (configuration.resolver mode)
      (configuration.anchorsOf mode) key).2) :
    issue ∈ configuration.compute.issues := by
  have own : issue ∈ (Palette.resolveAll (configuration.resolver mode)
      (configuration.anchorsOf mode)).2.issues := by
    refine List.mem_flatMap.2 ⟨_, List.mem_map_of_mem (List.mem_map_of_mem listed), ?_⟩
    exact List.mem_append_right _ member
  refine mem_issues_of_modeEmission declared ?_
  simp only [issues_modeEmission, List.mem_append]
  tauto

theorem mem_issues_of_layer (declared : mode ∈ configuration.modes) {layer : LayerId}
    (listed : layer ∈ layerIds configuration.theme mode) {issue : Issue}
    (member : issue ∈ ((configuration.layersOf mode).layer layer).2.issues) :
    issue ∈ configuration.compute.issues := by
  have own : issue ∈ (LayerContext.resolve (configuration.layersOf mode)).2.issues :=
    List.mem_flatMap.2 ⟨_, List.mem_map_of_mem (List.mem_map_of_mem listed), member⟩
  refine mem_issues_of_modeEmission declared ?_
  simp only [issues_modeEmission, List.mem_append]
  tauto

/-! ## Core colors -/

/-- A slot without an anchor leads nowhere. -/
theorem resolveSlot_of_unbound {slot : CoreSlot} (listed : slot ∈ CoreSlot.all)
    (unbound : (configuration.anchorsOf mode).get? slot = none) :
    (Anchors.resolveSlot (configuration.resolver mode) slot).1 = none := by
  cases resolved : (Anchors.resolveSlot (configuration.resolver mode) slot).1 with
  | none => rfl
  | some anchor =>
      have bound := mem_bound.2 ⟨listed, resolved⟩
      have absent := List.lookup_eq_none_iff.1 unbound _ bound
      simp at absent

/-- A slot without an anchor is reported at its binding. -/
theorem reports_of_unbound (declared : mode ∈ configuration.modes) {slot : CoreSlot}
    (listed : slot ∈ CoreSlot.all)
    (unbound : (configuration.anchorsOf mode).get? slot = none) :
    configuration.Reports (String.intercalate "." (slot.documentPath mode)) := by
  have skipped : ∃ issue, (Anchors.resolveSlot (configuration.resolver mode) slot).2 =
      some issue ∧ issue.locus = String.intercalate "." (slot.documentPath mode) := by
    have missing := resolveSlot_of_unbound listed unbound
    unfold Anchors.resolveSlot at missing ⊢
    dsimp only at missing ⊢
    split at missing
    · cases missing
    · split at missing
      · cases missing
      · exact ⟨_, rfl, rfl⟩
  obtain ⟨issue, found, locus⟩ := skipped
  refine ⟨issue, mem_issues_of_anchors declared ?_, locus⟩
  exact List.mem_filterMap.2 ⟨_, List.mem_map_of_mem listed, found⟩

/-- Nothing else is added under the name of a core color. -/
theorem not_adds_of_unbound {slot : CoreSlot}
    (unbound : (configuration.anchorsOf mode).get? slot = none) :
    ¬ configuration.Adds (slot.property mode) := by
  rintro ⟨entry, member⟩
  obtain ⟨anchor, bound, -⟩ := (part_of_mem member).of_core
  have absent := List.lookup_eq_none_iff.1 unbound _ bound
  simp at absent

/-! ## Surfaces -/

/-- A surface that is left out is reported at its binding. -/
theorem reports_of_missing (declared : mode ∈ configuration.modes) {layer : LayerId}
    (listed : layer ∈ layerIds configuration.theme mode)
    (missing : configuration.surfaceOf mode layer = none) :
    configuration.Reports (String.intercalate "." (layer.surfacePath mode)) := by
  have skipped : ∃ issue ∈ ((configuration.layersOf mode).surface layer).2.issues,
      issue.locus = String.intercalate "." (layer.surfacePath mode) := by
    unfold surfaceOf LayerContext.surface at missing
    unfold LayerContext.surface
    dsimp only at missing ⊢
    split at missing
    · cases missing
    · split at missing
      · exact ⟨_, List.mem_singleton_self _, rfl⟩
      · cases missing
  obtain ⟨issue, member, locus⟩ := skipped
  refine ⟨issue, mem_issues_of_layer declared listed ?_, locus⟩
  rw [surfaceOf] at missing
  rw [LayerContext.layer]
  cases whole : (configuration.layersOf mode).surface layer with
  | mk surface emission =>
      rw [whole] at missing member
      cases surface with
      | none => exact member
      | some surface => cases missing

/-- Nothing else is added under the name of a surface. -/
theorem not_adds_of_missing {layer : LayerId}
    (missing : configuration.surfaceOf mode layer = none) :
    ¬ configuration.Adds (layer.surface mode) := by
  rintro ⟨entry, member⟩
  obtain ⟨surface, found, -⟩ := (part_of_mem member).of_surface
  rw [missing] at found
  cases found

end Configuration

end Legible
