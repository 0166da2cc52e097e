import Legible.Proofs.Theme.Backdrop

/-!
# Bound properties

A property that is bound somewhere - a token, a core color, a palette tone, a surface or
a binding that is copied through - stands on nothing in any computation: what stands on
something was found by a search and is bound nowhere. A palette tone comes with its
on-tone wherever black and white are there to choose from.
-/

namespace Legible

open Property

namespace Configuration

variable {configuration : Configuration} {issues : List Issue}

/-! ## What is bound stands on nothing -/

/-- A surface stands on nothing. -/
theorem Part.ne_surface_of_background {name background : Name} {entry : Entry}
    (part : Part configuration issues name entry)
    (opposite : entry.origin.bind Origin.background = some background) (mode : Mode)
    (layer : LayerId) : layer.surface mode ≠ name := by
  cases part with
  | token held => cases opposite
  | core bound => cases opposite
  | tone bound named => cases opposite
  | copied listed _ _ resolved => cases opposite
  | surface _ found => cases opposite
  | componentToken resolved => cases opposite
  | componentBrand read => cases opposite
  | onTone bound named onTone reported => exact brand_ne_of_subsystem (by decide)
  | text found search reported => exact LayerId.surface_ne_element (by decide) (by decide)
  | interactiveTone found bound search reported => exact LayerId.surface_ne_tonePath _ _ _ _ _
  | interactiveOnTone found bound tone search reported =>
      exact LayerId.surface_ne_onTonePath _ _ _ _ _
  | status listed found search reported =>
      exact LayerId.surface_ne_element (by rw [getLast?_pieces_status]; decide)
        (pieces_status_ne_nil _)

/-- What is bound in one computation stands on nothing in any other. -/
theorem Part.unbound_of_background {other : Configuration} {others : List Issue}
    {name background : Name} {entry entry' : Entry} (part : Part configuration issues name entry)
    (standing : Part other others name entry')
    (opposite : entry'.origin.bind Origin.background = some background) :
    entry.binding = none := by
  have stands := standing.background_cases opposite
  cases part with
  | token held =>
      rcases stands with ⟨_, _, _, same, -⟩ | ⟨_, _, _, same, -⟩
      · exact absurd same (Name.ofToken_ne_brand _ _ _ _)
      · exact absurd same (Name.ofToken_ne_brand _ _ _ _)
  | core bound =>
      rcases stands with ⟨_, _, _, same, -⟩ | ⟨_, _, _, same, -⟩
      · exact absurd same (brand_ne_of_subsystem (by decide))
      · exact absurd same (brand_ne_of_subsystem (by decide))
  | tone bound named =>
      rcases stands with ⟨_, _, _, same, -⟩ | ⟨_, _, _, same, -⟩
      · exact absurd same (Palette.toneProperty_ne_onToneProperty _ _ _ _ _ _)
      · exact absurd same (brand_ne_of_subsystem (by decide))
  | copied listed _ _ resolved =>
      obtain ⟨palettes, -, layer⟩ := ne_of_mem_copied listed
      rcases stands with ⟨_, _, _, same, -⟩ | ⟨_, _, _, same, -⟩
      · exact absurd same.symm (brand_ne_of_subsystem palettes)
      · exact absurd same.symm (brand_ne_of_subsystem layer)
  | surface _ found => exact absurd rfl (standing.ne_surface_of_background opposite _ _)
  | onTone bound named onTone reported => rfl
  | componentToken resolved => rfl
  | componentBrand read => rfl
  | text found search reported => exact binding_entry search _
  | interactiveTone found bound search reported => exact binding_entry search _
  | interactiveOnTone found bound tone search reported => exact binding_entry search _
  | status listed found search reported => exact binding_entry search _

/-- What stands on something in one computed map is bound in no other. -/
theorem binding?_of_background? (configuration : Configuration) {other : Configuration}
    {name background : Name} (opposite : other.compute.map.background? name = some background) :
    configuration.compute.map.binding? name = none := by
  obtain ⟨origin, derived, back⟩ := Option.bind_eq_some_iff.1 opposite
  rw [compute_map] at derived
  obtain ⟨entry', standing, own⟩ := PropertyMap.mem_of_origin? derived
  rw [compute_map]
  cases bound : (PropertyMap.ofList configuration.entries).binding? name with
  | none => rfl
  | some binding =>
      obtain ⟨entry, member, holds⟩ := PropertyMap.mem_of_binding? bound
      have stands : entry'.origin.bind Origin.background = some background := by
        rw [own]
        exact back
      have none := (part_of_mem member).unbound_of_background (part_of_mem standing) stands
      rw [holds] at none
      cases none

end Configuration

/-! ## Tones come with their on-tones -/

/-- An entry that is not bound as a palette tone. -/
def Toneless (_ : List Issue) (_ : Name) (entry : Entry) : Prop :=
  ∀ mode key level, entry.binding ≠ some (.tone mode key level)

theorem Toneless.stable : Emission.Stable Toneless := fun _ _ _ _ _ toneless => toneless

/-- An emission that adds an on-tone beside every tone of a mode with black and white. -/
def Emission.Paired (configuration : Configuration) (emission : Emission) : Prop :=
  ∀ name entry mode key level, (name, entry) ∈ emission.entries →
    entry.binding = some (.tone mode key level) →
    (configuration.anchorsOf mode).contrasting?.isSome →
    ∃ entry', (Palette.onToneProperty mode key level, entry') ∈ emission.entries

namespace Emission

variable {configuration : Configuration}

theorem paired_of_toneless {emission : Emission} (toneless : Consists Toneless emission) :
    emission.Paired configuration := by
  intro name entry mode key level member bound
  exact absurd bound (toneless name entry member mode key level)

theorem Paired.append {first second : Emission} (left : first.Paired configuration)
    (right : second.Paired configuration) : (first ++ second).Paired configuration := by
  intro name entry mode key level member bound anchors
  rcases List.mem_append.1 member with earlier | later
  · obtain ⟨entry', own⟩ := left name entry mode key level earlier bound anchors
    exact ⟨entry', List.mem_append_left _ own⟩
  · obtain ⟨entry', own⟩ := right name entry mode key level later bound anchors
    exact ⟨entry', List.mem_append_right _ own⟩

theorem paired_join {emissions : List Emission}
    (all : ∀ emission ∈ emissions, emission.Paired configuration) :
    (join emissions).Paired configuration := by
  intro name entry mode key level member bound anchors
  obtain ⟨emission, listed, held⟩ := List.mem_flatMap.1 member
  obtain ⟨entry', own⟩ := all emission listed name entry mode key level held bound anchors
  exact ⟨entry', List.mem_flatMap.2 ⟨emission, listed, own⟩⟩

end Emission

namespace LayerContext

open Emission

variable {context : LayerContext} {surface : Surface}

theorem toneless_foreground {name : Name} {anchor : Anchor} {backdrop : Backdrop}
    {blended : Bool} {origin : Origin} :
    Consists Toneless (context.foreground name anchor backdrop blended origin).2 := by
  refine Configuration.consists_foreground fun search mode key level bound => ?_
  rw [Configuration.binding_entry] at bound
  cases bound

theorem toneless_surface (layer : LayerId) : Consists Toneless (context.surface layer).2 := by
  rcases Configuration.surface_cases context layer with
    ⟨issues, none⟩ | ⟨anchor, palette, isFallback, input, issues, -, given⟩
  · rw [none]
    exact consists_ofIssues issues
  · rw [given]
    exact consists_reported fun mode key level bound => by cases bound

theorem toneless_text : Consists Toneless (context.text surface) := by
  rw [text]
  cases context.textAnchor? surface with
  | none => exact consists_ofIssues _
  | some chosen => exact toneless_foreground

theorem toneless_status (color : CoreColor) : Consists Toneless (context.status surface color) := by
  unfold status
  dsimp only
  split
  · exact consists_ofIssues []
  · exact toneless_foreground

theorem toneless_interactive (state : InteractiveState) :
    Consists Toneless (context.interactive surface state) := by
  unfold interactive
  dsimp only
  split
  · exact consists_ofIssues []
  · split
    · exact toneless_foreground
    · refine .append Toneless.stable toneless_foreground ?_
      unfold interactiveOnTone
      split
      · exact consists_ofIssues []
      · exact toneless_foreground

/-- Nothing in a layer is a palette tone. -/
theorem toneless_layer (layer : LayerId) : Consists Toneless (context.layer layer).2 := by
  have own := @toneless_surface context layer
  unfold LayerContext.layer
  split
  · next emission given =>
      rw [given] at own
      exact own
  · next surface emission given =>
      rw [given] at own
      refine own.append Toneless.stable ?_
      refine .append Toneless.stable (.append Toneless.stable toneless_text ?_) ?_
      · refine consists_join Toneless.stable fun emission listed => ?_
        obtain ⟨state, -, rfl⟩ := List.mem_map.1 listed
        exact toneless_interactive state
      · refine consists_join Toneless.stable fun emission listed => ?_
        obtain ⟨color, -, rfl⟩ := List.mem_map.1 listed
        exact toneless_status color

end LayerContext

namespace Configuration

open Emission

variable {configuration : Configuration}

theorem toneless_tokenEmission (index : Token.Index) : Consists Toneless (tokenEmission index) := by
  intro name entry member mode key level bound
  obtain ⟨⟨path, value⟩, -, equal⟩ := List.mem_map.1 member
  cases equal
  cases bound

theorem toneless_anchors (anchors : Anchors) : Consists Toneless anchors.emission := by
  refine consists_join Toneless.stable fun emission listed => ?_
  obtain ⟨⟨slot, anchor⟩, -, rfl⟩ := List.mem_map.1 listed
  exact consists_entry fun mode key level bound => by cases bound

theorem toneless_copied (resolver : Resolver) (subsystem : Subsystem) :
    Consists Toneless (copiedEmission resolver subsystem) := by
  refine consists_join Toneless.stable fun emission listed => ?_
  obtain ⟨leaf, -, rfl⟩ := List.mem_map.1 listed
  unfold copiedLeaf
  dsimp only
  split
  · exact consists_ofIssues _
  · split
    · exact consists_entry fun mode key level bound => by cases bound
    · exact consists_ofIssues _

theorem toneless_componentEmission (configuration : Configuration) (map : PropertyMap) :
    Consists Toneless (configuration.componentEmission map) := by
  refine consists_join Toneless.stable fun emission listed => ?_
  obtain ⟨leaf, -, rfl⟩ := List.mem_map.1 listed
  unfold componentLeaf
  dsimp only
  split
  · exact consists_entry fun mode key level bound => by cases bound
  · exact consists_ofIssues _

/-- A level adds its tone, and its on-tone where it has one. -/
theorem paired_levelEmission {mode : Mode} {key : String} {shade : PaletteLevel}
    {level : Option Token.Level}
    (chosen : (configuration.anchorsOf mode).contrasting?.isSome → shade.onTone.isSome) :
    (Palette.levelEmission mode key shade level).Paired configuration := by
  intro name entry mode' key' level' member bound anchors
  rcases Palette.mem_levelEmission member with tone | ⟨onTone, -, own⟩
  · cases tone
    cases bound
    obtain ⟨onTone, found⟩ := Option.isSome_iff_exists.1 (chosen anchors)
    refine ⟨{ value := .reference onTone.anchor.property
              origin := some ((Origin.ofInputs (Anchors.contrastInputs mode)).against
                (Palette.toneProperty mode key level)) }, List.mem_append_right _ ?_⟩
    rw [found]
    exact List.mem_singleton_self _
  · cases own
    cases bound

theorem paired_palette (mode : Mode) (key : String) :
    (((configuration.paletteOf mode key).map (Palette.emission mode)).getD {}).Paired
      configuration := by
  cases ramped : Palette.resolveRamp (configuration.resolver mode) key with
  | error failure =>
      rw [paletteOf, Palette.resolve, ramped]
      exact paired_of_toneless (consists_ofIssues [])
  | ok ramp =>
      obtain ⟨primary, notes, resolved⟩ :=
        Palette.resolve_of_ramp (configuration.anchorsOf mode) ramped
      have palette := congrArg Prod.fst resolved
      rw [← paletteOf] at palette
      rw [palette]
      -- Every level of the ramp has an on-tone if there is black and white.
      have chosen {shade : PaletteLevel}
          (listed : shade ∈ Palette.levelsOf ramp (configuration.anchorsOf mode))
          (anchors : (configuration.anchorsOf mode).contrasting?.isSome) :
          shade.onTone.isSome := by
        obtain ⟨_, -, rfl⟩ := List.mem_map.1 listed
        rw [Option.isSome_map]
        exact anchors
      refine paired_join fun emission listed => ?_
      rcases List.mem_append.1 listed with own | marked
      · obtain ⟨shade, member, rfl⟩ := List.mem_map.1 own
        exact paired_levelEmission (chosen member)
      · obtain ⟨shade, member, rfl⟩ := List.mem_map.1 marked
        obtain ⟨level, -, found⟩ := Option.bind_eq_some_iff.1 (Option.mem_toList.1 member)
        exact paired_levelEmission (chosen (List.mem_of_find?_eq_some found))

theorem paired_modeEmission (mode : Mode) :
    (configuration.modeEmission mode).2.Paired configuration := by
  refine .append (.append (.append (.append (.append ?_ ?_) ?_) ?_) ?_) ?_
  · exact paired_of_toneless (consists_ofIssues _)
  · exact paired_of_toneless (toneless_anchors _)
  · refine paired_join fun emission listed => ?_
    obtain ⟨_, resolved, rfl⟩ := List.mem_map.1 listed
    obtain ⟨key, -, rfl⟩ := List.mem_map.1 resolved
    exact (paired_palette mode key).append (paired_of_toneless (consists_ofIssues _))
  · refine paired_join fun emission listed => ?_
    obtain ⟨subsystem, -, rfl⟩ := List.mem_map.1 listed
    exact paired_of_toneless (toneless_copied _ subsystem)
  · exact paired_of_toneless (consists_ofIssues _)
  · refine paired_join fun emission listed => ?_
    obtain ⟨_, given, rfl⟩ := List.mem_map.1 listed
    obtain ⟨layer, -, rfl⟩ := List.mem_map.1 given
    exact paired_of_toneless (LayerContext.toneless_layer layer)

/-- Where there is black and white, a computed map that holds a palette tone holds its
on-tone. -/
theorem exists_onTone_of_tone {mode : Mode} {key : String} {level : Option Token.Level}
    {value : Value}
    (held : configuration.compute.map.value? (Palette.toneProperty mode key level) = some value)
    (anchors : (configuration.anchorsOf mode).contrasting?.isSome) :
    ∃ value', configuration.compute.map.value? (Palette.onToneProperty mode key level) =
      some value' := by
  have bound : configuration.boundEmission.Paired configuration := by
    refine .append (paired_of_toneless (toneless_tokenEmission _))
      (paired_join fun emission listed => ?_)
    obtain ⟨mode, -, rfl⟩ := List.mem_map.1 listed
    exact paired_modeEmission mode
  have paired := bound.append (paired_of_toneless
    (toneless_componentEmission configuration (.ofList configuration.boundEmission.entries)))
  rw [compute_map] at held ⊢
  obtain ⟨entry, member, -⟩ := PropertyMap.mem_of_value? held
  obtain ⟨_, _, _, -, -, rfl⟩ := (part_of_mem member).of_toneProperty
  obtain ⟨entry', own⟩ := paired _ _ mode key level member rfl anchors
  exact PropertyMap.value?_of_mem own

end Configuration

end Legible
