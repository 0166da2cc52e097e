import Legible.Proofs.Theme.Sought

/-!
# What properties follow

A core color, a palette tone and a surface each refer to one token, under whatever
origin they were added last. Black and white are core colors that every choice
between them lists, the text on a palette tone follows the on-tone of that level, and
a surface that is bound to a palette tone holds the token of that tone.
-/

namespace Legible

open Property

/-! ## Core colors -/

namespace CoreSlot

/-- The segments of a slot hold no dashes. -/
theorem pieces_segments (slot : CoreSlot) :
    slot.segments.flatMap Name.piecesOf = slot.segments.map String.toList := by
  obtain ⟨color, state⟩ := slot
  cases state with
  | none => cases color <;> decide
  | some state => cases color <;> cases state <;> decide

/-- The name of a core color determines its slot. -/
theorem property_inj {mode mode' : Mode} {slot slot' : CoreSlot}
    (same : slot.property mode = slot'.property mode') : mode = mode' ∧ slot = slot' := by
  obtain ⟨sameMode, -, samePath⟩ := Name.brand_eq_brand_iff.1 same
  rw [pieces_segments, pieces_segments] at samePath
  have segments : slot.segments = slot'.segments :=
    List.map_inj_right (fun _ _ => String.toList_inj.1) |>.1 samePath
  exact ⟨sameMode, segments_inj segments⟩

end CoreSlot

namespace Configuration

variable {configuration : Configuration} {mode : Mode} {issues : List Issue}

/-- The anchors of a mode are what its slots lead to. -/
theorem mem_bound {slot : CoreSlot} {anchor : Anchor} :
    (slot, anchor) ∈ (configuration.anchorsOf mode).bound ↔
      slot ∈ CoreSlot.all ∧
        (Anchors.resolveSlot (configuration.resolver mode) slot).1 = some anchor := by
  simp only [anchorsOf, Anchors.resolve, List.mem_filterMap, List.mem_map, Prod.exists,
    Option.map_eq_some_iff, Prod.mk.injEq]
  constructor
  · rintro ⟨_, _, _, ⟨own, listed, rfl, resolved⟩, _, found, rfl, rfl⟩
    rw [resolved]
    exact ⟨listed, found⟩
  · rintro ⟨listed, resolved⟩
    exact ⟨slot, some anchor, _, ⟨slot, listed, rfl, by rw [← resolved]⟩, anchor, rfl, rfl, rfl⟩

/-- What is added under the name of a core color is an anchor of its slot. -/
theorem Part.of_core {slot : CoreSlot} {entry : Entry}
    (part : Part configuration issues (slot.property mode) entry) :
    ∃ anchor, (slot, anchor) ∈ (configuration.anchorsOf mode).bound ∧
      entry.value = .reference anchor.property := by
  generalize same : slot.property mode = name at part
  cases part with
  | token held => exact absurd same.symm (Name.ofToken_ne_brand _ _ _ _)
  | core bound =>
      obtain ⟨rfl, rfl⟩ := CoreSlot.property_inj same
      exact ⟨_, bound, rfl⟩
  | copied listed _ _ resolved =>
      exact absurd same (brand_ne_of_subsystem (ne_of_mem_copied listed).2.1)
  | componentToken resolved => exact absurd same (Name.brand_ne_ui _ _ _ _)
  | componentBrand read => exact absurd same (Name.brand_ne_ui _ _ _ _)
  | tone bound named => exact absurd same (brand_ne_of_subsystem (by decide))
  | onTone bound named onTone reported => exact absurd same (brand_ne_of_subsystem (by decide))
  | surface _ found => exact absurd same (brand_ne_of_subsystem (by decide))
  | text found search reported => exact absurd same (brand_ne_of_subsystem (by decide))
  | interactiveTone found bound search reported =>
      exact absurd same (brand_ne_of_subsystem (by decide))
  | interactiveOnTone found bound tone search reported =>
      exact absurd same (brand_ne_of_subsystem (by decide))
  | status listed found search reported =>
      exact absurd same (brand_ne_of_subsystem (by decide))

/-- What is added under the name of a core color is that color's token. -/
theorem Part.value_of_core {slot : CoreSlot} {anchor : Anchor}
    (bound : (slot, anchor) ∈ (configuration.anchorsOf mode).bound) {entry : Entry}
    (part : Part configuration issues (slot.property mode) entry) :
    entry.value = .reference anchor.property := by
  obtain ⟨anchor', bound', value⟩ := part.of_core
  cases (mem_bound.1 bound).2.symm.trans (mem_bound.1 bound').2
  exact value

/-! ## What the listed properties show -/

/-- Whether a property, wherever a computation adds it, refers to the target. -/
def Shows (configuration : Configuration) (name target : Name) : Prop :=
  ∀ issues entry, Part configuration issues name entry → entry.value = .reference target

/-- What a property shows is the value that the computed map holds for it. -/
theorem Shows.value? {input target : Name} (shown : configuration.Shows input target)
    (added : configuration.Adds input) :
    configuration.compute.map.value? input = some (.reference target) := by
  obtain ⟨value, held⟩ := added.exists_value?
  rw [held]
  rw [compute_map] at held
  obtain ⟨entry, member, rfl⟩ := PropertyMap.mem_of_value? held
  rw [shown _ _ (part_of_mem member)]

theorem shows_core {slot : CoreSlot} {anchor : Anchor}
    (bound : (slot, anchor) ∈ (configuration.anchorsOf mode).bound) :
    configuration.Shows (slot.property mode) anchor.property :=
  fun _ _ part => part.value_of_core bound

theorem shows_tone {key : String} {level : Option Token.Level} {palette : Palette}
    {shade : PaletteLevel} (bound : configuration.paletteOf mode key = some palette)
    (named : palette.named? level = some shade) :
    configuration.Shows (Palette.toneProperty mode key level) shade.tone.property :=
  fun _ _ part => part.value_of_tone bound named

theorem shows_surface {layer : LayerId} {surface : Surface}
    (found : configuration.surfaceOf mode layer = some surface) :
    configuration.Shows (layer.surface mode) (Name.ofToken surface.backdrop.token) :=
  fun _ _ part => part.value_of_surface found

/-- Black and white are core colors that every choice between them lists. -/
theorem exists_slot_of_contrasting? {black white anchor : Anchor}
    (found : (configuration.anchorsOf mode).contrasting? = some (black, white))
    (chosen : anchor = black ∨ anchor = white) :
    ∃ slot, slot.property mode ∈ Anchors.contrastInputs mode ∧
      (slot, anchor) ∈ (configuration.anchorsOf mode).bound := by
  rw [Anchors.contrasting?] at found
  split at found
  · next blackFound whiteFound =>
      cases found
      rcases chosen with rfl | rfl
      · exact ⟨_, List.mem_cons_self, mem_bound_of_get? blackFound⟩
      · exact ⟨_, List.mem_cons_of_mem _ List.mem_cons_self, mem_bound_of_get? whiteFound⟩
  · cases found

theorem adds_of_contrasting? (declared : mode ∈ configuration.modes)
    (found : (configuration.anchorsOf mode).contrasting?.isSome) :
    ∀ input ∈ Anchors.contrastInputs mode, configuration.Adds input := by
  obtain ⟨⟨black, white⟩, found⟩ := Option.isSome_iff_exists.1 found
  rw [Anchors.contrasting?] at found
  split at found
  · next blackFound whiteFound =>
      intro input listed
      rcases List.mem_cons.1 listed with rfl | listed
      · exact adds_core declared (mem_bound_of_get? blackFound)
      · rw [List.mem_singleton.1 listed]
        exact adds_core declared (mem_bound_of_get? whiteFound)
  · cases found

/-- The better of black and white is one of them. -/
theorem contrasting?_of_better? {against : Color} {slot : CoreSlot} {anchor : Anchor}
    (better : (configuration.anchorsOf mode).better? against = some (slot, anchor)) :
    ∃ black white, (configuration.anchorsOf mode).contrasting? = some (black, white) ∧
      (anchor = black ∨ anchor = white) := by
  obtain ⟨⟨black, white⟩, found, chosen⟩ := Option.map_eq_some_iff.1 better
  refine ⟨black, white, found, ?_⟩
  dsimp only at chosen
  split at chosen
  · exact .inl (Prod.mk.inj chosen).2.symm
  · exact .inr (Prod.mk.inj chosen).2.symm

/-- The on-tone of a palette level is black or white. -/
theorem contrasting?_of_onTone {key : String} {palette : Palette} {level : Option Token.Level}
    {shade : PaletteLevel} {chosen : OnTone}
    (bound : configuration.paletteOf mode key = some palette)
    (named : palette.named? level = some shade) (onTone : shade.onTone = some chosen) :
    ∃ black white, (configuration.anchorsOf mode).contrasting? = some (black, white) ∧
      (chosen.anchor = black ∨ chosen.anchor = white) := by
  have contrasting := (isHeld_of_named? bound named).2
  rw [onTone] at contrasting
  obtain ⟨⟨black, white⟩, found, rfl⟩ := Option.map_eq_some_iff.1 contrasting.symm
  refine ⟨black, white, found, ?_⟩
  rcases choose_cases shade.tone.color black white with equal | equal
  · exact .inl (congrArg OnTone.anchor equal)
  · exact .inr (congrArg OnTone.anchor equal)

/-- Text follows black or white, and the on-tone of the palette tone it stands on. -/
theorem textAnchor?_cases {surface : Surface} {anchor : Anchor} {followed : Option Name}
    (chosen : (configuration.layersOf mode).textAnchor? surface = some (anchor, followed)) :
    (∃ black white, (configuration.anchorsOf mode).contrasting? = some (black, white) ∧
      (anchor = black ∨ anchor = white)) ∧
    ∀ name ∈ followed, ∃ key level palette shade onTone,
      name = Palette.onToneProperty mode key (some level) ∧
      key ∈ configuration.theme.keys ["themes", mode.text, "palettes"] ∧
      configuration.paletteOf mode key = some palette ∧
      palette.named? (some level) = some shade ∧ shade.onTone = some onTone := by
  rw [LayerContext.textAnchor?, Option.orElse_eq_or, Option.or_eq_some_iff] at chosen
  rcases chosen with fromPalette | ⟨-, better⟩
  · obtain ⟨⟨key, level⟩, -, rest⟩ := Option.bind_eq_some_iff.1 fromPalette
    obtain ⟨palette, kept, rest⟩ := Option.bind_eq_some_iff.1 rest
    obtain ⟨shade, leveled, rest⟩ := Option.bind_eq_some_iff.1 rest
    obtain ⟨onTone, found, given⟩ := Option.bind_eq_some_iff.1 rest
    cases given
    have named : palette.named? (some level) = some shade := leveled
    obtain ⟨listed, bound⟩ := palette_of_layersOf kept
    refine ⟨contrasting?_of_onTone bound named found, fun name follows => ?_⟩
    cases follows
    exact ⟨key, level, palette, shade, onTone, rfl, listed, bound, named, found⟩
  · obtain ⟨⟨slot, own⟩, chosen, given⟩ := Option.map_eq_some_iff.1 better
    cases given
    exact ⟨contrasting?_of_better? chosen, fun name follows => by cases follows⟩

/-! ## Surfaces that are palette tones -/

theorem resolveToken_of_resolveColor {resolver : Resolver} {reference : Reference}
    {anchor : Anchor} (found : resolver.resolveColor reference = .ok anchor) :
    resolver.resolveToken reference = .ok anchor.token := by
  rw [Resolver.resolveColor] at found
  split at found
  · next token resolved =>
      split at found
      · cases found
        exact resolved
      · cases found
  · cases found

/-- A palette whose binding names a ramp has that ramp and the level that it marks. -/
theorem palette_of_binding {key name : String} {palette : Palette}
    (bound : configuration.paletteOf mode key = some palette)
    (binding : (configuration.resolver mode).binding (Resolver.palettePath mode key) =
      .ok (.ramp name)) :
    ∃ ramp, configuration.index.ramp? name = some ramp ∧
      palette.levels = Palette.levelsOf ramp (configuration.anchorsOf mode) ∧
      palette.primary =
        (Palette.resolvePrimary (configuration.resolver mode) key ramp).1 := by
  rw [Resolver.binding] at binding
  split at binding
  · next text written =>
      have read : Reference.read text = .ramp name := Except.ok.inj binding
      cases found : configuration.index.ramp? name with
      | none =>
          have failing : (configuration.resolver mode).resolve (.ramp name) =
              .error (.unknownRamp name) := by
            simp only [Resolver.resolve, Resolver.follow, resolver, found]
          rw [paletteOf, Palette.resolve, Palette.resolveRamp] at bound
          simp only [resolver] at written failing bound
          simp only [written, Option.getD_some, read, failing] at bound
          cases bound
      | some ramp =>
          have leads : (configuration.resolver mode).resolve (.ramp name) =
              .ok (.ramp ramp.name) := by
            simp only [Resolver.resolve, Resolver.follow, resolver, found]
          have own : configuration.index.ramp? ramp.name = some ramp := by
            rw [configuration.index_eq] at found ⊢
            exact Token.Index.ramp?_name found
          rw [paletteOf, Palette.resolve, Palette.resolveRamp] at bound
          simp only [resolver] at written leads bound
          simp only [written, Option.getD_some, read, leads, own] at bound
          cases bound
          exact ⟨ramp, rfl, rfl, rfl⟩
  · cases binding

/-- The primary level of a palette is the one that its mark spells. -/
theorem read?_of_resolvePrimary {resolver : Resolver} {key : String} {ramp : Ramp}
    {level : Token.Level} (primary : (Palette.resolvePrimary resolver key ramp).1 = some level) :
    (resolver.primaryText? resolver.mode key).bind Token.Level.read? = some level := by
  rw [Palette.resolvePrimary] at primary
  cases written : resolver.primaryText? resolver.mode key with
  | none =>
      rw [written] at primary
      cases primary
  | some text =>
      simp only [written] at primary
      split at primary
      · next marked =>
          cases primary
          exact (Option.filter_eq_some_iff.1 marked).1
      · cases primary

/-- What a level of a palette leads to: the same level of the ramp that is bound. -/
theorem canonicalize?_of_resolveToken {place : Option Mode} {key : String}
    {written : Option Token.Level} {path : Token.Path} (own : place.getD mode = mode)
    (resolved : (configuration.resolver mode).resolveToken (.site place (.palette key written)) =
      .ok path) :
    ∃ name level,
      (configuration.resolver mode).binding (Resolver.palettePath mode key) = .ok (.ramp name) ∧
      (written.orElse fun _ => ((configuration.resolver mode).primaryText? mode key).bind
        Token.Level.read?) = some level ∧
      configuration.index.canonicalize? (Token.Path.color name level) = some path := by
  rw [Resolver.resolveToken] at resolved
  cases led : (configuration.resolver mode).resolve (.site place (.palette key written)) with
  | error error => simp [led] at resolved
  | ok target =>
      cases target with
      | ramp name => simp [led] at resolved
      | token path' =>
          simp only [led, Except.ok.injEq] at resolved
          subst resolved
          unfold Resolver.resolve Resolver.follow at led
          have same : place.getD (configuration.resolver mode).mode = mode := own
          simp only [same, List.not_mem_nil, if_false] at led
          split at led
          · cases led
          · split at led
            · next remaining _ next stepped =>
                obtain ⟨name, level, bound, meant, rfl⟩ := Resolver.cases_of_step_palette stepped
                refine ⟨name, level, bound, meant, ?_⟩
                unfold Resolver.follow at led
                split at led
                · next canonical held =>
                    cases led
                    exact held
                · cases led
            · cases led

/-- A surface that is bound to a palette tone holds the token of that tone. -/
theorem tone_of_surfaceBinding {layer : LayerId} {reference : Reference} {anchor : Anchor}
    {key : String} {level : Token.Level}
    (binding : (configuration.layersOf mode).surfaceBinding layer = .ok (reference, anchor))
    (source : (configuration.layersOf mode).paletteSource? reference = some (key, level)) :
    ∃ palette shade, key ∈ configuration.theme.keys ["themes", mode.text, "palettes"] ∧
      configuration.paletteOf mode key = some palette ∧
      palette.named? (some level) = some shade ∧ shade.tone.token = anchor.token := by
  have resolved : (configuration.resolver mode).resolveToken reference = .ok anchor.token :=
    resolveToken_of_resolveColor (resolveColor_of_surfaceBinding binding)
  unfold LayerContext.paletteSource? at source
  split at source
  · next place key' written =>
      split at source
      · next own =>
          obtain ⟨palette, kept, rest⟩ := Option.bind_eq_some_iff.1 source
          obtain ⟨level', named, rest⟩ := Option.bind_eq_some_iff.1 rest
          obtain ⟨shade, found, given⟩ := Option.bind_eq_some_iff.1 rest
          cases given
          obtain ⟨listed, bound⟩ := palette_of_layersOf kept
          refine ⟨palette, shade, listed, bound, found, ?_⟩
          obtain ⟨name, level'', bound', meant, canonical⟩ :=
            canonicalize?_of_resolveToken own resolved
          obtain ⟨ramp, ramped, levels, primary⟩ := palette_of_binding bound bound'
          -- The level that was resolved is the one that the palette gives.
          have same : level'' = level := by
            cases written with
            | some written => exact (Option.some.inj meant).symm.trans (Option.some.inj named)
            | none =>
                rw [primary] at named
                exact Option.some.inj (meant.symm.trans (read?_of_resolvePrimary named))
          subst same
          rw [Palette.level?, levels] at found
          obtain ⟨⟨own', color⟩, shaded, rfl⟩ := List.mem_map.1 (List.mem_of_find?_eq_some found)
          have leveled : own' = level'' := by simpa using List.find?_some found
          subst leveled
          have held : ramp.color? own' = some color :=
            Std.TreeMap.mem_toList_iff_getElem?_eq_some.1 shaded
          rw [configuration.index_eq] at ramped canonical
          exact Option.some.inj
            ((Token.Index.canonicalize?_of_ramp? ramped held).symm.trans canonical)
      · cases source
  · cases source

end Configuration

end Legible
