import Legible.Proofs.Theme.Held

/-!
# Foregrounds and what they stand on

A foreground stands on a palette tone, on a surface or on an interactive tone. The
names of these determine what they belong to, so however often one is added it gets
the same value, and a foreground is measured against the color that its background
composes to.
-/

namespace Legible

open Property

/-- A search has one outcome. -/
instance {context : LayerContext} {anchor : Anchor} {backdrop : Backdrop} {blended : Bool} :
    Subsingleton (ForegroundSearch context anchor backdrop blended) where
  allEq left right := by
    obtain ⟨ramp, start, step, rampFound, startFound, stepFound⟩ := left
    obtain ⟨ramp', start', step', rampFound', startFound', stepFound'⟩ := right
    cases rampFound.symm.trans rampFound'
    cases startFound.symm.trans startFound'
    cases stepFound.symm.trans stepFound'
    rfl

namespace Configuration

variable {configuration : Configuration} {issues : List Issue} {mode : Mode}

/-- Brand properties of different subsystems are different. -/
theorem brand_ne_of_subsystem {mode mode' : Mode} {subsystem subsystem' : Subsystem}
    {path path' : List String} (different : subsystem ≠ subsystem') :
    Name.brand mode subsystem path ≠ Name.brand mode' subsystem' path' :=
  fun same => different (Name.brand_eq_brand_iff.1 same).2.1

/-- No binding that is copied through belongs to a computed subsystem. -/
theorem ne_of_mem_copied {subsystem : Subsystem} (listed : subsystem ∈ Subsystem.copied) :
    Subsystem.palettes ≠ subsystem ∧ Subsystem.core ≠ subsystem ∧ Subsystem.layer ≠ subsystem := by
  revert listed
  cases subsystem <;> decide

/-! ## What the name of a backdrop determines -/

/-- What is added under a name of the palettes is a tone or an on-tone. -/
theorem Part.of_palettes {path : List String} {entry : Entry}
    (part : Part configuration issues (Name.brand mode .palettes path) entry) :
    ∃ own key level palette shade, configuration.paletteOf own key = some palette ∧
      palette.named? level = some shade ∧
      ((Name.brand mode .palettes path = Palette.toneProperty own key level ∧ ∃ input,
          entry = { value := .reference shade.tone.property
                    origin := some (.ofInputs [input])
                    binding := some (.tone own key level) }) ∨
        Name.brand mode .palettes path = Palette.onToneProperty own key level ∧
          ∃ chosen, shade.onTone = some chosen ∧
            entry = { value := .reference chosen.anchor.property
                      origin := some ((Origin.ofInputs (Anchors.contrastInputs own)).against
                        (Palette.toneProperty own key level)) }) := by
  generalize same : Name.brand mode .palettes path = name at part
  cases part with
  | token held => exact absurd same.symm (Name.ofToken_ne_brand _ _ _ _)
  | core bound => exact absurd same (brand_ne_of_subsystem (by decide))
  | tone bound named => exact ⟨_, _, _, _, _, bound, named, .inl ⟨rfl, _, rfl⟩⟩
  | onTone bound named onTone reported =>
      exact ⟨_, _, _, _, _, bound, named, .inr ⟨rfl, _, onTone, rfl⟩⟩
  | copied listed _ _ resolved =>
      exact absurd same (brand_ne_of_subsystem (ne_of_mem_copied listed).1)
  | surface _ found => exact absurd same (brand_ne_of_subsystem (by decide))
  | text found search reported => exact absurd same (brand_ne_of_subsystem (by decide))
  | interactiveTone found bound search reported =>
      exact absurd same (brand_ne_of_subsystem (by decide))
  | interactiveOnTone found bound tone search reported =>
      exact absurd same (brand_ne_of_subsystem (by decide))
  | status listed found search reported =>
      exact absurd same (brand_ne_of_subsystem (by decide))
  | componentToken resolved => exact absurd same (Name.brand_ne_ui _ _ _ _)
  | componentBrand read => exact absurd same (Name.brand_ne_ui _ _ _ _)

/-- What is added under the name of a tone is a level of the palette that is bound there. -/
theorem Part.of_toneProperty {key : String} {level : Option Token.Level} {entry : Entry}
    (part : Part configuration issues (Palette.toneProperty mode key level) entry) :
    ∃ palette shade input, configuration.paletteOf mode key = some palette ∧
      palette.named? level = some shade ∧
      entry = { value := .reference shade.tone.property
                origin := some (.ofInputs [input])
                binding := some (.tone mode key level) } := by
  obtain ⟨own, key', level', palette, shade, bound, named, tone | onTone⟩ := part.of_palettes
  · obtain ⟨same, input, given⟩ := tone
    obtain ⟨rfl, rfl, rfl⟩ := Palette.toneProperty_inj same
    exact ⟨palette, shade, input, bound, named, given⟩
  · exact absurd onTone.1 (Palette.toneProperty_ne_onToneProperty _ _ _ _ _ _)

/-- What is added under the name of an on-tone is that of a level of the palette that is
bound there. -/
theorem Part.of_onToneProperty {key : String} {level : Option Token.Level} {entry : Entry}
    (part : Part configuration issues (Palette.onToneProperty mode key level) entry) :
    ∃ palette shade chosen, configuration.paletteOf mode key = some palette ∧
      palette.named? level = some shade ∧ shade.onTone = some chosen ∧
      entry.value = .reference chosen.anchor.property := by
  obtain ⟨own, key', level', palette, shade, bound, named, tone | onTone⟩ := part.of_palettes
  · exact absurd tone.1.symm (Palette.toneProperty_ne_onToneProperty _ _ _ _ _ _)
  · obtain ⟨same, chosen, onTone, rfl⟩ := onTone
    obtain ⟨rfl, rfl, rfl⟩ := Palette.onToneProperty_inj same
    exact ⟨palette, shade, chosen, bound, named, onTone, rfl⟩

/-- What is added under the name of a tone is that tone. -/
theorem Part.value_of_tone {key : String} {level : Option Token.Level} {palette : Palette}
    {shade : PaletteLevel} (bound : configuration.paletteOf mode key = some palette)
    (named : palette.named? level = some shade) {entry : Entry}
    (part : Part configuration issues (Palette.toneProperty mode key level) entry) :
    entry.value = .reference shade.tone.property := by
  obtain ⟨palette', shade', input, bound', named', rfl⟩ := part.of_toneProperty
  cases bound.symm.trans bound'
  cases named.symm.trans named'
  rfl

/-- The path of a status text ends in `text`. -/
theorem getLast?_pieces_status (color : CoreColor) :
    ([color.text, "text"].flatMap Name.piecesOf).getLast? = some "text".toList := by
  cases color <;> decide

theorem pieces_status_ne_nil (color : CoreColor) :
    [color.text, "text"].flatMap Name.piecesOf ≠ [] := by
  cases color <;> decide

/-- What is added under the name of a surface is the surface that was found. -/
theorem Part.of_surface {layer : LayerId} {entry : Entry}
    (part : Part configuration issues (layer.surface mode) entry) :
    ∃ surface, configuration.surfaceOf mode layer = some surface ∧
      entry.value = .reference (Name.ofToken surface.backdrop.token) := by
  generalize same : layer.surface mode = name at part
  cases part with
  | token held => exact absurd same.symm (Name.ofToken_ne_brand _ _ _ _)
  | core bound => exact absurd same (brand_ne_of_subsystem (by decide))
  | tone bound named => exact absurd same (brand_ne_of_subsystem (by decide))
  | onTone bound named onTone reported => exact absurd same (brand_ne_of_subsystem (by decide))
  | copied listed _ _ resolved =>
      exact absurd same (brand_ne_of_subsystem (ne_of_mem_copied listed).2.2)
  | surface _ found =>
      obtain ⟨rfl, rfl⟩ := LayerId.surface_inj same
      exact ⟨_, found, rfl⟩
  | text found search reported =>
      exact absurd same (LayerId.surface_ne_element (by decide) (by decide))
  | interactiveTone found bound search reported =>
      exact absurd same (LayerId.surface_ne_tonePath _ _ _ _ _)
  | interactiveOnTone found bound tone search reported =>
      exact absurd same (LayerId.surface_ne_onTonePath _ _ _ _ _)
  | status listed found search reported =>
      exact absurd same (LayerId.surface_ne_element
        (by rw [getLast?_pieces_status]; decide) (pieces_status_ne_nil _))
  | componentToken resolved => exact absurd same (Name.brand_ne_ui _ _ _ _)
  | componentBrand read => exact absurd same (Name.brand_ne_ui _ _ _ _)

/-- What is added under the name of a surface is that surface. -/
theorem Part.value_of_surface {layer : LayerId} {surface : Surface}
    (found : configuration.surfaceOf mode layer = some surface) {entry : Entry}
    (part : Part configuration issues (layer.surface mode) entry) :
    entry.value = .reference (Name.ofToken surface.backdrop.token) := by
  obtain ⟨surface', found', value⟩ := part.of_surface
  cases found.symm.trans found'
  exact value

/-- A foreground that is not blended is a reference to the token that was chosen. -/
theorem value_entry_of_plain {anchor : Anchor} {backdrop : Backdrop}
    (search : configuration.SearchOf mode anchor backdrop false) (origin : Origin) :
    (search.entry origin).value = .reference (Name.ofToken search.token) := by
  have none : (configuration.layersOf mode).emphasisFor false = none := by
    rw [LayerContext.emphasisFor]
    simp
  rw [ForegroundSearch.entry, none]

/-- What is added under the name of an interactive tone is the tone that was found. -/
theorem Part.of_interactiveTone {layer : LayerId} {state : InteractiveState} {entry : Entry}
    (part : Part configuration issues (layer.element mode (LayerId.tonePath state)) entry) :
    ∃ surface anchor, configuration.surfaceOf mode layer = some surface ∧
      (configuration.anchorsOf mode).get? (.interactive state) = some anchor ∧
      ∃ search : configuration.SearchOf mode anchor surface.backdrop false,
        entry.value = .reference (Name.ofToken search.token) := by
  generalize same : layer.element mode (LayerId.tonePath state) = name at part
  cases part with
  | token held => exact absurd same.symm (Name.ofToken_ne_brand _ _ _ _)
  | core bound => exact absurd same (brand_ne_of_subsystem (by decide))
  | tone bound named => exact absurd same (brand_ne_of_subsystem (by decide))
  | onTone bound named onTone reported => exact absurd same (brand_ne_of_subsystem (by decide))
  | copied listed _ _ resolved =>
      exact absurd same (brand_ne_of_subsystem (ne_of_mem_copied listed).2.2)
  | surface _ found => exact absurd same.symm (LayerId.surface_ne_tonePath _ _ _ _ _)
  | text found search reported =>
      exact absurd same (LayerId.element_tonePath_ne_element (by decide) (by decide))
  | interactiveTone found bound search reported =>
      obtain ⟨rfl, rfl, rfl⟩ := LayerId.element_tonePath_inj same
      exact ⟨_, _, found, bound, search, value_entry_of_plain search _⟩
  | interactiveOnTone found bound tone search reported =>
      exact absurd same (LayerId.element_tonePath_ne_onTonePath _ _ _ _ _ _)
  | status listed found search reported =>
      exact absurd same (LayerId.element_tonePath_ne_element
        (by rw [getLast?_pieces_status]; decide) (pieces_status_ne_nil _))
  | componentToken resolved => exact absurd same (Name.brand_ne_ui _ _ _ _)
  | componentBrand read => exact absurd same (Name.brand_ne_ui _ _ _ _)

/-- What is added under the name of an interactive tone is that tone. -/
theorem Part.value_of_interactiveTone {layer : LayerId} {state : InteractiveState}
    {surface : Surface} {anchor : Anchor}
    (found : configuration.surfaceOf mode layer = some surface)
    (bound : (configuration.anchorsOf mode).get? (.interactive state) = some anchor)
    (search : configuration.SearchOf mode anchor surface.backdrop false) {entry : Entry}
    (part : Part configuration issues (layer.element mode (LayerId.tonePath state)) entry) :
    entry.value = .reference (Name.ofToken search.token) := by
  obtain ⟨surface', anchor', found', bound', search', value⟩ := part.of_interactiveTone
  cases found.symm.trans found'
  cases bound.symm.trans bound'
  rw [value, Subsingleton.elim search' search]

/-! ## Pairs -/

/-- A foreground as it was measured: what it composes to, what its background composes
to wherever that is added, and that the two are legible or reported. -/
structure Measured (configuration : Configuration) (issues : List Issue) (name : Name)
    (value : Value) (background : Name) (front back : Color) : Prop where
  frontComposes : Composes configuration.index value front
  backComposes : ∀ issues' entry, Part configuration issues' background entry →
    Composes configuration.index entry.value back
  legible : ContrastRatio.threshold ≤ ContrastRatio.between front back ∨
    Inspection.isKnown issues name = true

theorem background_entry {context : LayerContext} {anchor : Anchor} {backdrop : Backdrop}
    {blended : Bool} (search : ForegroundSearch context anchor backdrop blended) (inputs : List Name)
    (background : Name) :
    (search.entry ((Origin.ofInputs inputs).against background)).origin.bind Origin.background =
      some background := by
  rw [ForegroundSearch.entry]
  split <;> rfl

/-- What has a background is the on-tone of a palette tone, or stands in a layer on
something of the layer. -/
theorem Part.background_cases {name background : Name} {entry : Entry}
    (part : Part configuration issues name entry)
    (opposite : entry.origin.bind Origin.background = some background) :
    (∃ mode key level, name = Palette.onToneProperty mode key level ∧
        background = Palette.toneProperty mode key level) ∨
      ∃ mode path path', name = Name.brand mode .layer path ∧
        background = Name.brand mode .layer path' := by
  cases part with
  | token held => cases opposite
  | core bound => cases opposite
  | tone bound named => cases opposite
  | copied listed _ _ resolved => cases opposite
  | surface _ found => cases opposite
  | componentToken resolved => cases opposite
  | componentBrand read => cases opposite
  | onTone bound named onTone reported =>
      cases opposite
      exact .inl ⟨_, _, _, rfl, rfl⟩
  | text found search reported =>
      rw [background_entry, Option.some.injEq] at opposite
      exact .inr ⟨_, _, _, rfl, opposite.symm⟩
  | interactiveTone found bound search reported =>
      rw [background_entry, Option.some.injEq] at opposite
      exact .inr ⟨_, _, _, rfl, opposite.symm⟩
  | interactiveOnTone found bound tone search reported =>
      rw [background_entry, Option.some.injEq] at opposite
      exact .inr ⟨_, _, _, rfl, opposite.symm⟩
  | status listed found search reported =>
      rw [background_entry, Option.some.injEq] at opposite
      exact .inr ⟨_, _, _, rfl, opposite.symm⟩

/-- What is found by a search is bound nowhere. -/
theorem binding_entry {context : LayerContext} {anchor : Anchor} {backdrop : Backdrop}
    {blended : Bool} (search : ForegroundSearch context anchor backdrop blended)
    (origin : Origin) : (search.entry origin).binding = none := by
  rw [ForegroundSearch.entry]
  split <;> rfl

/-- A foreground on a surface, measured. -/
theorem measured_on_surface {layer : LayerId} {surface : Surface} {anchor : Anchor}
    {blended : Bool} {name : Name} (found : configuration.surfaceOf mode layer = some surface)
    (search : configuration.SearchOf mode anchor surface.backdrop blended)
    (reported : search.IsReported issues name) (origin : Origin) :
    Measured configuration issues name (search.entry origin).value (layer.surface mode)
      search.step.chosen.composite surface.backdrop.color where
  frontComposes := composes_of_search search origin fun _ => isHeld_of_surfaceOf found
  backComposes _ entry part := by
    rw [Part.value_of_surface found part]
    exact .reference (isHeld_of_surfaceOf found)
  legible := reported.imp_left (legible_of_search search)

/-- Every entry with a background was measured against it. -/
theorem Part.measured {name background : Name} {entry : Entry}
    (part : Part configuration issues name entry)
    (opposite : entry.origin.bind Origin.background = some background) :
    ∃ front back, Measured configuration issues name entry.value background front back := by
  cases part with
  | token held => cases opposite
  | core bound => cases opposite
  | tone bound named => cases opposite
  | copied listed _ _ resolved => cases opposite
  | surface _ found => cases opposite
  | componentToken resolved => cases opposite
  | componentBrand read => cases opposite
  | @onTone mode key level palette shade chosen bound named onTone reported =>
      cases opposite
      obtain ⟨toneHeld, contrasting⟩ := isHeld_of_named? bound named
      rw [onTone] at contrasting
      obtain ⟨⟨black, white⟩, anchors, rfl⟩ := Option.map_eq_some_iff.1 contrasting.symm
      refine ⟨(OnTone.choose shade.tone.color black white).anchor.color, shade.tone.color,
        .reference (isHeld_of_choose anchors), fun _ entry part => ?_, ?_⟩
      · rw [Part.value_of_tone bound named part]
        exact .reference toneHeld
      · refine reported.imp_left fun legible => ?_
        rw [ContrastRatio.between_comm, ← ratio_choose]
        exact of_decide_eq_true legible
  | text found search reported =>
      rw [background_entry, Option.some.injEq] at opposite
      rw [← opposite]
      exact ⟨_, _, measured_on_surface found search reported _⟩
  | interactiveTone found bound search reported =>
      rw [background_entry, Option.some.injEq] at opposite
      rw [← opposite]
      exact ⟨_, _, measured_on_surface found search reported _⟩
  | status listed found search reported =>
      rw [background_entry, Option.some.injEq] at opposite
      rw [← opposite]
      exact ⟨_, _, measured_on_surface found search reported _⟩
  | interactiveOnTone found bound tone search reported =>
      rw [background_entry, Option.some.injEq] at opposite
      rw [← opposite]
      refine ⟨_, tone.step.chosen.color, composes_of_search search _ (fun blended => by cases blended),
        fun _ entry part => ?_, reported.imp_left (legible_of_search search)⟩
      rw [Part.value_of_interactiveTone found bound tone part]
      exact .reference (isHeld_of_search tone)

end Configuration

end Legible
