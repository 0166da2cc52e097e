import Legible.Proofs.Theme.Held

/-!
# What a computation adds

A computation adds the properties of all tokens, and for every mode of the theme those
of its core colors, palettes, copied bindings and layers. What one stage derives its
properties from was therefore added by an earlier stage, under the same name.
-/

namespace Legible

open Property

namespace LayerContext

variable {context : LayerContext}

/-- What is added for a foreground is the entry of its search. -/
theorem mem_foreground {name name' : Name} {entry : Entry} {anchor : Anchor}
    {backdrop : Backdrop} {blended : Bool} {origin : Origin} :
    (name', entry) ∈ (context.foreground name anchor backdrop blended origin).2.entries ↔
      name' = name ∧ ∃ search : ForegroundSearch context anchor backdrop blended,
        entry = search.entry origin := by
  constructor
  · intro member
    rcases context.foreground_cases name anchor backdrop blended origin with
      ⟨issues, none⟩ | ⟨search, found⟩
    · rw [none] at member
      cases member
    · rw [found] at member
      have own : (name', entry) = (name, search.entry origin) := List.mem_singleton.1 member
      cases own
      exact ⟨rfl, search, rfl⟩
  · rintro ⟨rfl, search, rfl⟩
    rw [foreground_of_search search]
    exact List.mem_singleton_self _

end LayerContext

namespace Configuration

variable {configuration : Configuration} {mode : Mode}

/-! ## Modes -/

/-- The parts of what a mode adds. -/
theorem mem_modeEmission {added : Name × Entry} :
    added ∈ (configuration.modeEmission mode).2.entries ↔
      added ∈ (configuration.anchorsOf mode).emission.entries ∨
      added ∈ (Palette.resolveAll (configuration.resolver mode)
        (configuration.anchorsOf mode)).2.entries ∨
      (∃ subsystem ∈ Subsystem.copied,
        added ∈ (copiedEmission (configuration.resolver mode) subsystem).entries) ∨
      added ∈ (LayerContext.resolve (configuration.layersOf mode)).2.entries := by
  have whole : (configuration.modeEmission mode).2.entries =
      [] ++ (configuration.anchorsOf mode).emission.entries ++
        (Palette.resolveAll (configuration.resolver mode)
          (configuration.anchorsOf mode)).2.entries ++
        (Emission.join (Subsystem.copied.map
          (copiedEmission (configuration.resolver mode)))).entries ++ [] ++
        (LayerContext.resolve (configuration.layersOf mode)).2.entries := rfl
  have copied : added ∈ (Emission.join (Subsystem.copied.map
        (copiedEmission (configuration.resolver mode)))).entries ↔
      ∃ subsystem ∈ Subsystem.copied,
        added ∈ (copiedEmission (configuration.resolver mode) subsystem).entries := by
    simp [Emission.join, List.mem_flatMap]
  rw [whole, List.mem_append, List.append_nil, List.mem_append, List.mem_append,
    List.nil_append, copied, or_assoc, or_assoc]

/-- The stages of a computation. -/
theorem mem_entries {added : Name × Entry} :
    added ∈ configuration.entries ↔
      added ∈ (tokenEmission configuration.index).entries ∨
      (∃ mode ∈ configuration.modes, added ∈ (configuration.modeEmission mode).2.entries) ∨
      added ∈ (configuration.componentEmission
        (.ofList configuration.boundEmission.entries)).entries := by
  simp [entries, boundEmission, Emission.join, List.mem_flatMap]

/-- What the layers of a mode add: surfaces, and what stands on them. -/
theorem mem_layers {added : Name × Entry} :
    added ∈ (LayerContext.resolve (configuration.layersOf mode)).2.entries ↔
      ∃ layer ∈ layerIds configuration.theme mode,
        added ∈ ((configuration.layersOf mode).surface layer).2.entries ∨
          ∃ surface, configuration.surfaceOf mode layer = some surface ∧
            added ∈ ((configuration.layersOf mode).elements surface).entries := by
  have own (layer : LayerId) : added ∈ ((configuration.layersOf mode).layer layer).2.entries ↔
      added ∈ ((configuration.layersOf mode).surface layer).2.entries ∨
        ∃ surface, configuration.surfaceOf mode layer = some surface ∧
          added ∈ ((configuration.layersOf mode).elements surface).entries := by
    rw [LayerContext.layer, surfaceOf]
    cases whole : (configuration.layersOf mode).surface layer with
    | mk surface emission => cases surface <;> simp
  have all : (LayerContext.resolve (configuration.layersOf mode)).2.entries =
      (layerIds configuration.theme mode).flatMap fun layer =>
        ((configuration.layersOf mode).layer layer).2.entries := by
    rw [LayerContext.resolve, Emission.join, List.flatMap_map, List.flatMap_map]
    rfl
  rw [all, List.mem_flatMap]
  exact exists_congr fun layer => and_congr_right fun _ => own layer

/-! ## Names that are added -/

/-- Whether a computation adds something under a name. -/
def Adds (configuration : Configuration) (name : Name) : Prop :=
  ∃ entry, (name, entry) ∈ configuration.entries

/-- What is added is in the computed map. -/
theorem Adds.exists_value? {name : Name} (added : configuration.Adds name) :
    ∃ value, configuration.compute.map.value? name = some value := by
  obtain ⟨entry, member⟩ := added
  rw [compute_map]
  exact PropertyMap.value?_of_mem member

theorem adds_token {path : Token.Path} {held : Token.Value}
    (token : configuration.index.values[path]? = some held) :
    configuration.Adds (Name.ofToken path) := by
  refine ⟨_, mem_entries.2 (.inl (List.mem_map.2 ⟨(path, held), ?_, rfl⟩))⟩
  exact (Token.Index.mem_tokens _ path held).2 token

theorem adds_of_modeEmission {name : Name} {entry : Entry} (declared : mode ∈ configuration.modes)
    (member : (name, entry) ∈ (configuration.modeEmission mode).2.entries) :
    configuration.Adds name :=
  ⟨entry, mem_entries.2 (.inr (.inl ⟨mode, declared, member⟩))⟩

theorem adds_core {slot : CoreSlot} {anchor : Anchor} (declared : mode ∈ configuration.modes)
    (bound : (slot, anchor) ∈ (configuration.anchorsOf mode).bound) :
    configuration.Adds (slot.property mode) := by
  obtain ⟨entry, member⟩ : ∃ entry, (slot.property mode, entry) ∈
      (configuration.anchorsOf mode).emission.entries :=
    ⟨_, List.mem_flatMap.2 ⟨_, List.mem_map.2 ⟨_, bound, rfl⟩, List.mem_singleton_self _⟩⟩
  exact adds_of_modeEmission declared (mem_modeEmission.2 (.inl member))

/-! ## Palettes -/

/-- A palette of the layers is the one that the mode binds under a key of its own. -/
theorem palette_of_layersOf {key : String} {palette : Palette}
    (kept : (configuration.layersOf mode).palettes[key]? = some palette) :
    key ∈ configuration.theme.keys ["themes", mode.text, "palettes"] ∧
      configuration.paletteOf mode key = some palette := by
  have table : (configuration.layersOf mode).palettes =
      filled ((((configuration.theme.keys ["themes", mode.text, "palettes"]).map
          (Palette.resolve (configuration.resolver mode) (configuration.anchorsOf mode))).filterMap
        (·.1)).map fun palette => (palette.key, palette)) ∅ := by
    rw [filled, List.foldl_map]
    rfl
  rw [table] at kept
  rcases mem_of_getElem?_filled kept with member | before
  · obtain ⟨own, listed, equal⟩ := List.mem_map.1 member
    obtain ⟨rfl, rfl⟩ := Prod.mk.inj equal
    obtain ⟨_, found, resolved⟩ := List.mem_filterMap.1 listed
    obtain ⟨key, declared, rfl⟩ := List.mem_map.1 found
    have bound : configuration.paletteOf mode key = some own := resolved
    obtain ⟨rfl, -⟩ := paletteOf_eq_some bound
    exact ⟨declared, bound⟩
  · simp at before

/-- What the palettes of a mode add: tones and on-tones of their levels. -/
theorem mem_palettes {added : Name × Entry} :
    added ∈ (Palette.resolveAll (configuration.resolver mode)
        (configuration.anchorsOf mode)).2.entries ↔
      ∃ key ∈ configuration.theme.keys ["themes", mode.text, "palettes"],
        ∃ palette, configuration.paletteOf mode key = some palette ∧
          ∃ level shade, palette.named? level = some shade ∧
            added ∈ (Palette.levelEmission mode key shade level).entries := by
  have whole : (Palette.resolveAll (configuration.resolver mode)
        (configuration.anchorsOf mode)).2.entries =
      (configuration.theme.keys ["themes", mode.text, "palettes"]).flatMap fun key =>
        (((configuration.paletteOf mode key).map (Palette.emission mode)).getD {}).entries ++ [] := by
    rw [Palette.resolveAll, Emission.join, List.flatMap_map, List.flatMap_map]
    rfl
  rw [whole, List.mem_flatMap]
  refine exists_congr fun key => and_congr_right fun _ => ?_
  rw [List.append_nil]
  cases bound : configuration.paletteOf mode key with
  | none => simp
  | some palette =>
      obtain ⟨rfl, name, ramp, -, levels⟩ := paletteOf_eq_some bound
      rw [Option.map_some, Option.getD_some]
      constructor
      · intro member
        obtain ⟨emission, listed, held⟩ := List.mem_flatMap.1 member
        rcases List.mem_append.1 listed with own | marked
        · obtain ⟨shade, level, rfl⟩ := List.mem_map.1 own
          refine ⟨palette, rfl, some shade.level, shade, ?_, held⟩
          rw [levels] at level
          rw [Palette.named?, Palette.level?, levels]
          exact Palette.find?_levelsOf level
        · obtain ⟨shade, named, rfl⟩ := List.mem_map.1 marked
          exact ⟨palette, rfl, none, shade, Option.mem_toList.1 named, held⟩
      · rintro ⟨_, same, level, shade, named, held⟩
        cases same
        refine List.mem_flatMap.2 ⟨_, List.mem_append.2 ?_, held⟩
        cases level with
        | some level =>
            have same : shade.level = level := by simpa using List.find?_some named
            exact .inl (List.mem_map.2 ⟨shade, List.mem_of_find?_eq_some named, by rw [same]⟩)
        | none => exact .inr (List.mem_map.2 ⟨shade, Option.mem_toList.2 named, rfl⟩)

section Palette

variable {key : String} {palette : Palette} {level : Option Token.Level} {shade : PaletteLevel}

theorem adds_of_levelEmission (declared : mode ∈ configuration.modes)
    (listed : key ∈ configuration.theme.keys ["themes", mode.text, "palettes"])
    (bound : configuration.paletteOf mode key = some palette)
    (named : palette.named? level = some shade) {name : Name} {entry : Entry}
    (member : (name, entry) ∈ (Palette.levelEmission mode key shade level).entries) :
    configuration.Adds name :=
  adds_of_modeEmission declared (mem_modeEmission.2 (.inr (.inl (mem_palettes.2
    ⟨key, listed, palette, bound, level, shade, named, member⟩))))

theorem adds_tone (declared : mode ∈ configuration.modes)
    (listed : key ∈ configuration.theme.keys ["themes", mode.text, "palettes"])
    (bound : configuration.paletteOf mode key = some palette)
    (named : palette.named? level = some shade) :
    configuration.Adds (Palette.toneProperty mode key level) :=
  adds_of_levelEmission declared listed bound named
    (List.mem_append_left _ (List.mem_singleton_self _))

theorem adds_onTone (declared : mode ∈ configuration.modes)
    (listed : key ∈ configuration.theme.keys ["themes", mode.text, "palettes"])
    (bound : configuration.paletteOf mode key = some palette)
    (named : palette.named? level = some shade) {chosen : OnTone}
    (onTone : shade.onTone = some chosen) :
    configuration.Adds (Palette.onToneProperty mode key level) := by
  obtain ⟨entry, member⟩ : ∃ entry, (Palette.onToneProperty mode key level, entry) ∈
      (Palette.levelEmission mode key shade level).entries := by
    unfold Palette.levelEmission
    rw [onTone]
    exact ⟨_, List.mem_append_right _ (List.mem_singleton_self _)⟩
  exact adds_of_levelEmission declared listed bound named member

end Palette

/-! ## Layers -/

section Layer

variable {layer : LayerId} {surface : Surface}

theorem adds_surface (declared : mode ∈ configuration.modes)
    (listed : layer ∈ layerIds configuration.theme mode)
    (found : configuration.surfaceOf mode layer = some surface) :
    configuration.Adds (layer.surface mode) := by
  rcases surface_cases (configuration.layersOf mode) layer with
    ⟨issues, none⟩ | ⟨anchor, palette, isFallback, input, issues, -, given⟩
  · rw [surfaceOf, none] at found
    cases found
  · obtain ⟨entry, member⟩ : ∃ entry, (layer.surface mode, entry) ∈
        ((configuration.layersOf mode).surface layer).2.entries := by
      rw [given]
      exact ⟨_, List.mem_singleton_self _⟩
    exact adds_of_modeEmission declared (mem_modeEmission.2 (.inr (.inr (.inr
      (mem_layers.2 ⟨layer, listed, .inl member⟩)))))

theorem adds_element (declared : mode ∈ configuration.modes)
    (listed : layer ∈ layerIds configuration.theme mode)
    (found : configuration.surfaceOf mode layer = some surface) {name : Name} {entry : Entry}
    (member : (name, entry) ∈ ((configuration.layersOf mode).elements surface).entries) :
    configuration.Adds name :=
  adds_of_modeEmission declared (mem_modeEmission.2 (.inr (.inr (.inr
    (mem_layers.2 ⟨layer, listed, .inr ⟨surface, found, member⟩⟩)))))

end Layer

end Configuration

end Legible
