import Legible.Proofs.Property.Rank
import Legible.Proofs.Theme.Follow

/-!
# What derived properties rest on

A derived property lists what it was derived from. Everything it lists is added by the
computation and is nearer to the tokens than the property itself, its background is
among it, and what its value reads is listed, or is the value of something that is
listed. The one exception is a foreground whose search left the level it started from:
the level where the search ended is listed nowhere.
-/

namespace Legible

open Property

namespace Property.Origin

@[simp] theorem mem_ofInputs {inputs : List Name} {name : Name} :
    name ∈ (ofInputs inputs).inputs ↔ name ∈ inputs := by
  rw [ofInputs, Std.TreeSet.mem_ofList, List.contains_iff_mem]

@[simp] theorem mem_withInput {origin : Origin} {input name : Name} :
    name ∈ (origin.withInput input).inputs ↔ name = input ∨ name ∈ origin.inputs := by
  rw [withInput, Std.TreeSet.mem_insert, Std.LawfulEqCmp.compare_eq_iff_eq, eq_comm]

@[simp] theorem mem_against {origin : Origin} {background name : Name} :
    name ∈ (origin.against background).inputs ↔ name = background ∨ name ∈ origin.inputs := by
  rw [against, Std.TreeSet.mem_insert, Std.LawfulEqCmp.compare_eq_iff_eq, eq_comm]

end Property.Origin

namespace Configuration

variable {configuration : Configuration} {mode : Mode}

/-- The foregrounds whose searches ended away from the anchors they started from, each
with the token where its search ended. -/
inductive Moved (configuration : Configuration) : Name → Name → Prop where
  | intro {mode : Mode} {layer : LayerId} {surface : Surface} {name : Name} {anchor : Anchor}
      {backdrop : Backdrop} {blended : Bool} {inputs : List Name}
      (declared : mode ∈ configuration.modes)
      (listed : layer ∈ layerIds configuration.theme mode)
      (found : configuration.surfaceOf mode layer = some surface)
      (sought : (configuration.layersOf mode).Seeks surface name anchor backdrop blended inputs)
      (search : configuration.SearchOf mode anchor backdrop blended)
      (moved : search.token ≠ anchor.token) :
      Moved configuration name (Name.ofToken search.token)

/-- What is known about a derived property. -/
structure Rests (configuration : Configuration) (name : Name) (value : Value) (origin : Origin) :
    Prop where
  listed : ∀ input ∈ origin.inputs, configuration.Adds input ∧ input.rank < name.rank
  background : ∀ background, origin.background = some background → background ∈ origin.inputs
  reads : ∀ target ∈ value.references, target ∈ origin.inputs ∨
    (∃ input ∈ origin.inputs, input.rank < 6 ∧ configuration.Shows input target) ∨
    configuration.Moved name target

/-! ## Searches -/

theorem rank_of_mem_contrastInputs {input : Name} (member : input ∈ Anchors.contrastInputs mode) :
    input.rank = 1 := by
  rcases List.mem_cons.1 member with rfl | member
  · exact CoreSlot.rank_property _ _
  · rw [List.mem_singleton.1 member]
    exact CoreSlot.rank_property _ _

section Seeks

variable {layer : LayerId} {surface : Surface} {name : Name} {anchor : Anchor}
  {backdrop : Backdrop} {blended : Bool} {inputs : List Name}

/-- What stands on a surface comes after all surfaces. -/
theorem rank_of_seeks
    (sought : (configuration.layersOf mode).Seeks surface name anchor backdrop blended inputs) :
    6 ≤ name.rank := by
  cases sought with
  | text => rw [LayerId.rank_text]; decide
  | tone => simp [LayerId.rank_tone]
  | onTone => rw [LayerId.rank_onTone]; decide
  | status => rw [LayerId.rank_status]; decide

/-- What a search is derived from apart from its backdrop. -/
theorem listed_of_seeks (declared : mode ∈ configuration.modes)
    (sought : (configuration.layersOf mode).Seeks surface name anchor backdrop blended inputs)
    {input : Name} (member : input ∈ inputs) : configuration.Adds input ∧ input.rank < 6 := by
  have contrast {black white : Anchor}
      (found : (configuration.anchorsOf mode).contrasting? = some (black, white))
      (member : input ∈ Anchors.contrastInputs mode) :
      configuration.Adds input ∧ input.rank < 6 := by
    rw [rank_of_mem_contrastInputs member]
    exact ⟨adds_of_contrasting? declared (by rw [found]; rfl) input member, by decide⟩
  have core {slot : CoreSlot} {anchor : Anchor}
      (bound : (configuration.anchorsOf mode).get? slot = some anchor)
      (member : input ∈ [slot.property mode]) : configuration.Adds input ∧ input.rank < 6 := by
    rw [List.mem_singleton.1 member, CoreSlot.rank_property]
    exact ⟨adds_core declared (mem_bound_of_get? bound), by decide⟩
  cases sought with
  | text chosen =>
      obtain ⟨⟨black, white, found, -⟩, follows⟩ := textAnchor?_cases chosen
      rcases List.mem_append.1 member with own | followed
      · exact contrast found own
      · obtain ⟨key, level, palette, shade, onTone, rfl, listed, bound, named, given⟩ :=
          follows input (Option.mem_toList.1 followed)
        rw [Palette.rank_onToneProperty]
        exact ⟨adds_onTone declared listed bound named given, by decide⟩
  | tone bound => exact core bound member
  | onTone bound tone better =>
      obtain ⟨black, white, found, -⟩ := contrasting?_of_better? better
      exact contrast found member
  | status listed bound => exact core bound member

/-- The backdrop of a search is there before the search. -/
theorem backdrop_of_seeks (declared : mode ∈ configuration.modes)
    (listed : layer ∈ layerIds configuration.theme mode)
    (found : configuration.surfaceOf mode layer = some surface)
    (sought : (configuration.layersOf mode).Seeks surface name anchor backdrop blended inputs) :
    configuration.Adds backdrop.name ∧ backdrop.name.rank < name.rank := by
  have own := adds_surface declared listed found
  have before : (layer.surface mode).rank < name.rank := by
    rw [LayerId.rank_surface]
    exact rank_of_seeks sought
  obtain ⟨-, named⟩ := backdrop_name_of_surfaceOf found
  rw [← named] at own before
  cases sought with
  | text => exact ⟨own, before⟩
  | tone => exact ⟨own, before⟩
  | status => exact ⟨own, before⟩
  | onTone bound tone better =>
      obtain ⟨entry, member⟩ := LayerContext.exists_mem_elements_of_tone bound tone
      refine ⟨adds_element declared listed found member, ?_⟩
      rw [LayerId.rank_tone, LayerId.rank_onTone]
      decide

/-- A blended foreground stands on a surface, which refers to the token that it is
blended with. -/
theorem shows_of_seeks (found : configuration.surfaceOf mode layer = some surface)
    (sought : (configuration.layersOf mode).Seeks surface name anchor backdrop true inputs) :
    backdrop.name.rank < 6 ∧ configuration.Shows backdrop.name (Name.ofToken backdrop.token) := by
  obtain ⟨-, named⟩ := backdrop_name_of_surfaceOf found
  have shown := shows_surface found
  have rank := LayerId.rank_surface mode layer
  rw [← named] at shown rank
  cases sought with
  | text => exact ⟨by rw [rank]; decide, shown⟩
  | status => exact ⟨by rw [rank]; decide, shown⟩

/-- The anchor of a search is a core color that the search lists. -/
theorem anchor_of_seeks
    (sought : (configuration.layersOf mode).Seeks surface name anchor backdrop blended inputs) :
    ∃ slot : CoreSlot, slot.property mode ∈ inputs ∧
      configuration.Shows (slot.property mode) anchor.property := by
  cases sought with
  | text chosen =>
      obtain ⟨⟨black, white, found, either⟩, -⟩ := textAnchor?_cases chosen
      obtain ⟨slot, listed, bound⟩ := exists_slot_of_contrasting? found either
      exact ⟨slot, List.mem_append_left _ listed, shows_core bound⟩
  | tone bound => exact ⟨_, List.mem_singleton_self _, shows_core (mem_bound_of_get? bound)⟩
  | onTone bound tone better =>
      obtain ⟨black, white, found, either⟩ := contrasting?_of_better? better
      obtain ⟨slot, listed, bound⟩ := exists_slot_of_contrasting? found either
      exact ⟨slot, listed, shows_core bound⟩
  | status listed bound =>
      exact ⟨_, List.mem_singleton_self _, shows_core (mem_bound_of_get? bound)⟩

/-- What a search finds rests on its anchor, its backdrop and the emphasis of text. -/
theorem rests_of_seeks (declared : mode ∈ configuration.modes)
    (listed : layer ∈ layerIds configuration.theme mode)
    (found : configuration.surfaceOf mode layer = some surface)
    (sought : (configuration.layersOf mode).Seeks surface name anchor backdrop blended inputs)
    (search : configuration.SearchOf mode anchor backdrop blended) {origin : Origin}
    (derived : (search.entry ((Origin.ofInputs inputs).against backdrop.name)).origin =
      some origin) :
    configuration.Rests name
      (search.entry ((Origin.ofInputs inputs).against backdrop.name)).value origin := by
  have high := rank_of_seeks sought
  have back := backdrop_of_seeks declared listed found sought
  have given {input : Name} (member : input ∈ ((Origin.ofInputs inputs).against
      backdrop.name).inputs) : configuration.Adds input ∧ input.rank < name.rank := by
    rw [Origin.mem_against, Origin.mem_ofInputs] at member
    rcases member with rfl | own
    · exact back
    · obtain ⟨added, low⟩ := listed_of_seeks declared sought own
      exact ⟨added, by omega⟩
  -- The level that was found is the anchor's own, or the search moved.
  have chosen {inputs' : Std.TreeSet Name} (kept : ∀ input ∈ inputs, input ∈ inputs') :
      (∃ input ∈ inputs', input.rank < 6 ∧
          configuration.Shows input (Name.ofToken search.token)) ∨
        configuration.Moved name (Name.ofToken search.token) := by
    by_cases moved : search.token = anchor.token
    · obtain ⟨slot, member, shown⟩ := anchor_of_seeks sought
      refine .inl ⟨_, kept _ member, by rw [CoreSlot.rank_property]; decide, ?_⟩
      rw [moved]
      exact shown
    · exact .inr (.intro declared listed found sought search moved)
  rw [ForegroundSearch.entry] at derived ⊢
  cases emphasized : (configuration.layersOf mode).emphasisFor blended with
  | none =>
      simp only [emphasized, Option.some.injEq] at derived ⊢
      subst derived
      exact
        { listed := fun input member => given member
          background := fun background opposite => by
            rw [← Option.some.inj opposite, Origin.mem_against]
            exact .inl rfl
          reads := fun target member => by
            rw [List.mem_singleton.1 member]
            exact .inr (chosen fun input own => by
              rw [Origin.mem_against, Origin.mem_ofInputs]
              exact .inr own) }
  | some emphasis =>
      obtain rfl : blended = true := by
        have kept := (Option.filter_eq_some_iff.1 emphasized).2
        simp only [Bool.and_eq_true] at kept
        exact kept.1
      obtain ⟨low, shown⟩ := shows_of_seeks found sought
      simp only [emphasized, Option.some.injEq] at derived ⊢
      subst derived
      exact
        { listed := fun input member => by
            rcases Origin.mem_withInput.1 member with rfl | own
            · have zero : emphasis.property.rank = 0 := Name.rank_ofToken _
              exact ⟨adds_token (isHeld_of_emphasisFor emphasized).1, by omega⟩
            · exact given own
          background := fun background opposite => by
            rw [← Option.some.inj opposite, Origin.mem_withInput, Origin.mem_against]
            exact .inr (.inl rfl)
          reads := fun target member => by
            simp only [Value.references, Weight.property?, Option.toList_some, List.cons_append,
              List.nil_append, List.mem_cons, List.not_mem_nil, or_false] at member
            rcases member with rfl | rfl | rfl
            · exact .inr (chosen fun input own => by
                rw [Origin.mem_withInput, Origin.mem_against, Origin.mem_ofInputs]
                exact .inr (.inr own))
            · refine .inr (.inl ⟨backdrop.name, ?_, low, shown⟩)
              rw [Origin.mem_withInput, Origin.mem_against]
              exact .inr (.inl rfl)
            · exact .inl (Origin.mem_withInput.2 (.inl rfl)) }

end Seeks

/-! ## The other parts -/

/-- A reference to a property that is nearer to the tokens rests on that property. -/
theorem rests_on_target {name target : Name} (added : configuration.Adds target)
    (lower : target.rank < name.rank) :
    configuration.Rests name (.reference target) (.ofInputs [target]) where
  listed input member := by
    rw [Origin.mem_ofInputs, List.mem_singleton] at member
    rw [member]
    exact ⟨added, lower⟩
  background background opposite := by cases opposite
  reads other member := by
    rw [List.mem_singleton.1 member]
    exact .inl (Origin.mem_ofInputs.2 (List.mem_singleton_self _))

/-- A reference to a token rests on the token. -/
theorem rests_on_token {path : Token.Path} {held : Token.Value} {name : Name}
    (token : configuration.index.values[path]? = some held) (high : 0 < name.rank) :
    configuration.Rests name (.reference (Name.ofToken path))
      (.ofInputs [Name.ofToken path]) :=
  rests_on_target (adds_token token) (by rwa [Name.rank_ofToken])

/-- A reference to what a listed property refers to rests on that property. -/
theorem rests_on_shown {name input target : Name} {low high : Nat} (below : input.rank = low)
    (above : name.rank = high) (order : low < high ∧ low < 6)
    (added : configuration.Adds input) (shown : configuration.Shows input target) :
    configuration.Rests name (.reference target) (.ofInputs [input]) where
  listed other member := by
    rw [Origin.mem_ofInputs, List.mem_singleton] at member
    rw [member, below, above]
    exact ⟨added, order.1⟩
  background background opposite := by cases opposite
  reads other member := by
    rw [List.mem_singleton.1 member]
    rw [← below] at order
    exact .inr (.inl ⟨input, Origin.mem_ofInputs.2 (List.mem_singleton_self _), order.2, shown⟩)

theorem rests_of_mem_anchors {name : Name} {entry : Entry} {origin : Origin}
    (member : (name, entry) ∈ (configuration.anchorsOf mode).emission.entries)
    (derived : entry.origin = some origin) : configuration.Rests name entry.value origin := by
  obtain ⟨_, listed, own⟩ := List.mem_flatMap.1 member
  obtain ⟨⟨slot, anchor⟩, bound, rfl⟩ := List.mem_map.1 listed
  cases List.mem_singleton.1 own
  cases derived
  exact rests_on_token (isHeld_of_bound bound) (by rw [CoreSlot.rank_property]; decide)

theorem rests_of_mem_copied {subsystem : Subsystem} (copied : subsystem ∈ Subsystem.copied)
    {name : Name} {entry : Entry} {origin : Origin}
    (member : (name, entry) ∈
      (copiedEmission (configuration.resolver mode) subsystem).entries)
    (derived : entry.origin = some origin) : configuration.Rests name entry.value origin := by
  obtain ⟨_, listed, own⟩ := List.mem_flatMap.1 member
  obtain ⟨leaf, -, rfl⟩ := List.mem_map.1 listed
  unfold copiedLeaf at own
  dsimp only at own
  split at own
  · cases own
  · split at own
    · next token resolved =>
        cases List.mem_singleton.1 own
        cases derived
        obtain ⟨held, found⟩ := Resolver.exists_of_resolveToken resolved
        obtain ⟨palettes, -, layer⟩ := ne_of_mem_copied copied
        refine rests_on_token found ?_
        rw [Name.rank_brand_of_copied palettes.symm layer.symm]
        decide
    · cases own

theorem rests_of_mem_levelEmission (declared : mode ∈ configuration.modes) {key : String}
    (listed : key ∈ configuration.theme.keys ["themes", mode.text, "palettes"])
    {palette : Palette} (bound : configuration.paletteOf mode key = some palette)
    {level : Option Token.Level} {shade : PaletteLevel}
    (named : palette.named? level = some shade) {name : Name} {entry : Entry} {origin : Origin}
    (member : (name, entry) ∈ (Palette.levelEmission mode key shade level).entries)
    (derived : entry.origin = some origin) : configuration.Rests name entry.value origin := by
  rcases Palette.mem_levelEmission member with tone | ⟨chosen, onTone, own⟩
  · cases tone
    cases derived
    cases level with
    | some level =>
        have rank : (Palette.toneProperty mode key (some level)).rank = 2 :=
          Palette.rank_toneProperty mode key _
        exact rests_on_token (isHeld_of_named? bound named).1 (by omega)
    | none =>
        -- The primary tone follows the tone of its level.
        have leveled : palette.named? (some shade.level) = some shade := by
          obtain ⟨level, -, found⟩ := Option.bind_eq_some_iff.1 named
          have same : shade.level = level := by simpa using List.find?_some found
          rw [same]
          exact found
        have rank : (Palette.toneProperty mode key none).rank = 3 :=
          Palette.rank_toneProperty mode key _
        have below : (Palette.toneProperty mode key (some shade.level)).rank = 2 :=
          Palette.rank_toneProperty mode key _
        exact rests_on_shown below rank (by decide) (adds_tone declared listed bound leveled)
          (shows_tone bound leveled)
  · cases own
    cases derived
    obtain ⟨black, white, found, either⟩ := contrasting?_of_onTone bound named onTone
    exact
      { listed := fun input member => by
          rw [Palette.rank_onToneProperty]
          rw [Origin.mem_against, Origin.mem_ofInputs] at member
          rcases member with rfl | own
          · refine ⟨adds_tone declared listed bound named, ?_⟩
            rw [Palette.rank_toneProperty]
            split <;> decide
          · rw [rank_of_mem_contrastInputs own]
            exact ⟨adds_of_contrasting? declared (by rw [found]; rfl) input own, by decide⟩
        background := fun background opposite => by
          rw [← Option.some.inj opposite, Origin.mem_against]
          exact .inl rfl
        reads := fun target member => by
          rw [List.mem_singleton.1 member]
          obtain ⟨slot, listed, bound⟩ := exists_slot_of_contrasting? found either
          refine .inr (.inl ⟨slot.property mode, ?_, ?_, shows_core bound⟩)
          · rw [Origin.mem_against, Origin.mem_ofInputs]
            exact .inr listed
          · rw [CoreSlot.rank_property]
            decide }

theorem rests_of_mem_surface (declared : mode ∈ configuration.modes) {layer : LayerId}
    {name : Name} {entry : Entry} {origin : Origin}
    (member : (name, entry) ∈ ((configuration.layersOf mode).surface layer).2.entries)
    (derived : entry.origin = some origin) : configuration.Rests name entry.value origin := by
  rcases surface_cases (configuration.layersOf mode) layer with
    ⟨issues, none⟩ | ⟨anchor, palette, isFallback, input, issues, source, given⟩
  · rw [none] at member
    cases member
  · have found : configuration.surfaceOf mode layer = some ⟨layer,
        ⟨layer.surface mode, anchor.token, anchor.color⟩, palette, isFallback⟩ := by
      rw [surfaceOf, given]
      rfl
    rw [given] at member
    cases List.mem_singleton.1 member
    cases derived
    have rank : (layer.surface mode).rank = 5 := LayerId.rank_surface mode layer
    change configuration.Rests (layer.surface mode) (.reference (Name.ofToken anchor.token)) _
    cases source with
    | token binding plain =>
        refine rests_on_token (isHeld_of_surfaceOf found) ?_
        rw [rank]
        decide
    | @tone _ _ key level binding source =>
        obtain ⟨palette, shade, listed, bound, named, same⟩ :=
          tone_of_surfaceBinding binding source
        have shown := shows_tone bound named
        rw [Anchor.property, same] at shown
        have below : (Palette.toneProperty mode key (some level)).rank = 2 :=
          Palette.rank_toneProperty mode key _
        exact rests_on_shown below rank (by decide) (adds_tone declared listed bound named) shown
    | standIn stand =>
        have bound := mem_bound_of_get? stand
        exact rests_on_shown (CoreSlot.rank_property _ _) rank (by decide)
          (adds_core declared bound) (shows_core bound)

theorem rests_of_mem_modeEmission (declared : mode ∈ configuration.modes) {name : Name}
    {entry : Entry} {origin : Origin}
    (member : (name, entry) ∈ (configuration.modeEmission mode).2.entries)
    (derived : entry.origin = some origin) : configuration.Rests name entry.value origin := by
  rcases mem_modeEmission.1 member with anchors | palettes | ⟨subsystem, copied, own⟩ | layers
  · exact rests_of_mem_anchors anchors derived
  · obtain ⟨key, listed, palette, bound, level, shade, named, own⟩ := mem_palettes.1 palettes
    exact rests_of_mem_levelEmission declared listed bound named own derived
  · exact rests_of_mem_copied copied own derived
  · obtain ⟨layer, listed, surface | ⟨surface, found, own⟩⟩ := mem_layers.1 layers
    · exact rests_of_mem_surface declared surface derived
    · cases LayerContext.finds_of_mem_elements own with
      | intro sought search => exact rests_of_seeks declared listed found sought search derived

theorem rests_of_mem_componentEmission {name : Name} {entry : Entry} {origin : Origin}
    (member : (name, entry) ∈ (configuration.componentEmission
      (.ofList configuration.boundEmission.entries)).entries)
    (derived : entry.origin = some origin) : configuration.Rests name entry.value origin := by
  obtain ⟨_, listed, own⟩ := List.mem_flatMap.1 member
  obtain ⟨leaf, -, rfl⟩ := List.mem_map.1 listed
  have high : (Name.ui leaf.path).rank = 8 := Name.rank_ui _
  unfold componentLeaf at own
  dsimp only at own
  split at own
  · next target found =>
      cases List.mem_singleton.1 own
      cases derived
      unfold componentTarget at found
      split at found
      · next subsystem path read =>
          simp only at found
          split at found
          · next present =>
              cases found
              obtain ⟨value, held⟩ := (PropertyMap.contains_iff _ _).1 present
              obtain ⟨entry, member, -⟩ := PropertyMap.mem_of_value? held
              refine rests_on_target ⟨entry, List.mem_append_left _ member⟩ ?_
              rw [high]
              exact Name.rank_brand_lt _ _ _
          · cases found
      · cases found
      · cases found
      · split at found
        · next token resolved =>
            cases found
            obtain ⟨held, token⟩ := Resolver.exists_of_resolveToken resolved
            exact rests_on_token token (by omega)
        · cases found
  · cases own

/-- What a computation derives rests on what it adds. -/
theorem rests_of_mem {name : Name} {entry : Entry} {origin : Origin}
    (member : (name, entry) ∈ configuration.entries) (derived : entry.origin = some origin) :
    configuration.Rests name entry.value origin := by
  rcases mem_entries.1 member with token | ⟨mode, declared, own⟩ | component
  · obtain ⟨⟨path, held⟩, -, equal⟩ := List.mem_map.1 token
    cases equal
    cases derived
  · exact rests_of_mem_modeEmission declared own derived
  · exact rests_of_mem_componentEmission component derived

end Configuration

end Legible
