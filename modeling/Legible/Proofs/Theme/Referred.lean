import Legible.Proofs.Theme.Palettes

/-!
# References to palettes

A palette follows its binding to a ramp, through other bindings where it has to, but a
reference to the palette passes that binding in one step and wants the ramp right there.
Where the binding names a ramp, every level of the palette and its primary level lead to
the tokens that the palette shows. Where it names another binding, the palette is there
all the same and no reference to it leads anywhere.
-/

namespace Legible

open Property

namespace Resolver

variable {resolver : Resolver} {mode : Mode} {place : Option Mode} {key : String}
  {written : Option Token.Level}

/-- The first binding of a reference is passed, however deep the rest goes. -/
theorem resolve_site (deep : 0 < resolver.maxDepth) (place : Option Mode) (site : Site) :
    resolver.resolve (.site place site) =
      (resolver.step (place.getD resolver.mode) site).bind fun next =>
        resolver.follow (resolver.maxDepth - 1) [(place.getD resolver.mode, site)] next := by
  obtain ⟨remaining, depth⟩ : ∃ remaining, resolver.maxDepth = remaining + 1 :=
    Nat.exists_eq_add_one.2 deep
  rw [resolve, depth, follow]
  simp only [List.not_mem_nil, if_false, Nat.add_sub_cancel]
  cases resolver.step (place.getD resolver.mode) site <;> rfl

/-- A palette that names a ramp leads to the meant level of that ramp. -/
theorem resolveToken_palette_of_ramp {name : String} {level : Token.Level} {path : Token.Path}
    (deep : 0 < resolver.maxDepth) (own : place.getD resolver.mode = mode)
    (named : resolver.binding (palettePath mode key) = .ok (.ramp name))
    (meant : (written.orElse fun _ => (resolver.primaryText? mode key).bind Token.Level.read?) =
      some level)
    (held : resolver.index.canonicalize? (Token.Path.color name level) = some path) :
    resolver.resolveToken (.site place (.palette key written)) = .ok path := by
  have leveled : resolver.paletteLevel mode key written = .ok level := by
    rw [paletteLevel, meant]
  have stepped : resolver.step mode (.palette key written) =
      .ok (.token (Token.Path.color name level)) := by
    simp only [step, named, leveled, bind, Except.bind, pure, Except.pure]
  have resolved : resolver.resolve (.site place (.palette key written)) = .ok (.token path) := by
    rw [resolve_site deep, own, stepped]
    simp only [Except.bind, follow, held]
  rw [resolveToken, resolved]

/-- A palette that names another binding is refused, whatever that binding is. -/
theorem resolveToken_palette_of_site {through : Option Mode} {site : Site}
    (deep : 0 < resolver.maxDepth) (own : place.getD resolver.mode = mode)
    (named : resolver.binding (palettePath mode key) = .ok (.site through site)) :
    resolver.resolveToken (.site place (.palette key written)) =
      .error (.paletteNotARamp key) := by
  have refused : resolver.step mode (.palette key written) = .error (.paletteNotARamp key) := by
    simp only [step, named, bind, Except.bind]
  have resolved : resolver.resolve (.site place (.palette key written)) =
      .error (.paletteNotARamp key) := by
    rw [resolve_site deep, own, refused]
    rfl
  rw [resolveToken, resolved]

end Resolver

/-- A palette that is found names a ramp or another binding. -/
theorem Palette.binding_of_resolveRamp {resolver : Resolver} {key : String} {ramp : Ramp}
    (found : resolveRamp resolver key = .ok ramp) :
    (∃ name, resolver.binding (Resolver.palettePath resolver.mode key) = .ok (.ramp name)) ∨
      ∃ through site, resolver.binding (Resolver.palettePath resolver.mode key) =
        .ok (.site through site) := by
  rw [resolveRamp] at found
  rw [Resolver.binding]
  cases written : resolver.theme.leafText? (Resolver.palettePath resolver.mode key) with
  | none =>
      -- The empty text that stands in for a missing one is no reference.
      have nowhere : resolver.resolve (Reference.read "") = .error (.unrecognized "") := by
        have read : Reference.read "" = .unrecognized "" := by decide
        rw [read, Resolver.resolve, Resolver.follow]
      simp only [written, Option.getD_none, nowhere] at found
      cases found
  | some text =>
      simp only [written, Option.getD_some] at found
      cases read : Reference.read text with
      | ramp name => exact .inl ⟨name, congrArg Except.ok read⟩
      | site through site => exact .inr ⟨through, site, congrArg Except.ok read⟩
      | token path =>
          rw [read, Resolver.resolve, Resolver.follow] at found
          cases held : resolver.index.canonicalize? path <;> simp [held] at found
      | property subsystem path =>
          rw [read, Resolver.resolve, Resolver.follow] at found
          cases found
      | unrecognized text =>
          rw [read, Resolver.resolve, Resolver.follow] at found
          cases found

namespace Configuration

variable {configuration : Configuration} {mode : Mode} {key : String} {palette : Palette}

/-- A tone of a palette is there and refers to a token, and a reference to that level of
the palette, from whatever mode it is followed, leads to the same token. -/
structure LeadsToTone (configuration : Configuration) (mode : Mode) (key : String)
    (level : Option Token.Level) (token : Token.Path) : Prop where
  shown : configuration.compute.map.value? (Palette.toneProperty mode key level) =
    some (.reference (Name.ofToken token))
  led : ∀ standing place, place.getD standing = mode →
    (configuration.resolver standing).resolveToken (.site place (.palette key level)) = .ok token

/-- Every level of a palette leads to its tone, and so does its primary level where a
primary tone is there. -/
structure LeadsToTones (configuration : Configuration) (mode : Mode) (key : String)
    (palette : Palette) : Prop where
  level : ∀ entry ∈ palette.levels,
    configuration.LeadsToTone mode key (some entry.level) entry.tone.token
  primary : configuration.compute.map.contains (Palette.toneProperty mode key none) = true →
    ∃ entry ∈ palette.levels, palette.primary = some entry.level ∧
      configuration.LeadsToTone mode key none entry.tone.token

/-- The levels of a palette that names a ramp are led to by every reference that means
them. -/
theorem leadsToTone_of_named? {name : String} {level : Option Token.Level}
    {entry : PaletteLevel} (deep : 0 < configuration.options.maxReferenceDepth)
    (listed : key ∈ configuration.theme.keys ["themes", mode.text, "palettes"])
    (bound : configuration.paletteOf mode key = some palette)
    (binding : (configuration.resolver mode).binding (Resolver.palettePath mode key) =
      .ok (.ramp name))
    (named : palette.named? level = some entry) :
    configuration.LeadsToTone mode key level entry.tone.token := by
  obtain ⟨ramp, found, levels, primary⟩ := palette_of_binding bound binding
  have listed' := mem_of_named? named
  rw [levels] at listed'
  obtain ⟨⟨own, color⟩, shade, rfl⟩ := List.mem_map.1 listed'
  have held : ramp.color? own = some color := Std.TreeMap.mem_toList_iff_getElem?_eq_some.1 shade
  have meant : (level.orElse fun _ =>
      ((configuration.resolver mode).primaryText? mode key).bind Token.Level.read?) =
        some own := by
    cases level with
    | some level =>
        have same : own = level := by simpa using List.find?_some named
        rw [same]
        rfl
    | none =>
        obtain ⟨level, marked, leveled⟩ := Option.bind_eq_some_iff.1 named
        have same : own = level := by simpa using List.find?_some leveled
        rw [same]
        exact read?_of_resolvePrimary (primary.symm.trans marked)
  refine ⟨(shows_tone bound named).value?
    (adds_tone (mem_modes_of_mem_keys listed) listed bound named), fun standing place reached => ?_⟩
  refine @Resolver.resolveToken_palette_of_ramp (configuration.resolver standing) _ _ _ _ _ _ _
    deep reached binding meant ?_
  change configuration.index.canonicalize? _ = _
  rw [configuration.index_eq] at found ⊢
  exact Token.Index.canonicalize?_of_ramp? found held

/-- The levels of a palette that names a ramp lead to their tones. -/
theorem leadsToTones_of_binding {name : String}
    (deep : 0 < configuration.options.maxReferenceDepth)
    (listed : key ∈ configuration.theme.keys ["themes", mode.text, "palettes"])
    (bound : configuration.paletteOf mode key = some palette)
    (binding : (configuration.resolver mode).binding (Resolver.palettePath mode key) =
      .ok (.ramp name)) :
    configuration.LeadsToTones mode key palette where
  level := by
    intro entry member
    have named : palette.named? (some entry.level) = some entry := by
      obtain ⟨ramp, -, levels, -⟩ := palette_of_binding bound binding
      change palette.levels.find? _ = _
      rw [levels] at member ⊢
      exact Palette.find?_levelsOf member
    exact leadsToTone_of_named? deep listed bound binding named
  primary := by
    intro contained
    obtain ⟨entry, member⟩ := (contains_iff_adds _ _).1 contained
    obtain ⟨palette', shade, input, bound', named, -⟩ := (part_of_mem member).of_toneProperty
    cases bound.symm.trans bound'
    obtain ⟨level, marked, leveled⟩ := Option.bind_eq_some_iff.1 named
    have own : shade.level = level := by simpa using List.find?_some leveled
    exact ⟨shade, mem_of_named? named, by rw [own, marked],
      leadsToTone_of_named? deep listed bound binding named⟩

/-- Every palette of a mode names a ramp and its levels lead to their tones, or it names
another binding and every reference to it is refused. -/
theorem leadsToTones_or_refused (deep : 0 < configuration.options.maxReferenceDepth)
    (found : (Palette.resolveAll (configuration.resolver mode)
      (configuration.anchorsOf mode)).1[key]? = some palette) :
    (∃ name, (configuration.resolver mode).binding (Resolver.palettePath mode key) =
        .ok (.ramp name) ∧ configuration.LeadsToTones mode key palette) ∨
      ∃ through site, (configuration.resolver mode).binding (Resolver.palettePath mode key) =
        .ok (.site through site) ∧
        ∀ standing place level, place.getD standing = mode →
          (configuration.resolver standing).resolveToken (.site place (.palette key level)) =
            .error (.paletteNotARamp key) := by
  obtain ⟨listed, bound⟩ := palette_of_layersOf found
  cases ramped : Palette.resolveRamp (configuration.resolver mode) key with
  | error failure =>
      rw [paletteOf, Palette.resolve, ramped] at bound
      cases bound
  | ok ramp =>
      rcases Palette.binding_of_resolveRamp ramped with ⟨name, binding⟩ | ⟨through, site, binding⟩
      · exact .inl ⟨name, binding, leadsToTones_of_binding deep listed bound binding⟩
      · exact .inr ⟨through, site, binding, fun standing place level reached =>
          @Resolver.resolveToken_palette_of_site (configuration.resolver standing) _ _ _ _ _ _
            deep reached binding⟩

end Configuration

/-! ## A palette behind a core color -/

/-- A palette over a ramp of one gray, which its binding reaches like this. -/
def Sample.bound (reference : String) : Configuration :=
  Sample.accented.withTheme ⟨"theme", .object
    [("themes", .object
      [("light", .object
        [("core-colors", .object
            (Sample.core.take 2 ++ [("alert", leaf (.text "\x7btokens.color.stone\x7d"))])),
          ("palettes", .object [("accent", .object
            [("$value", .text reference), ("$primary", .text "500")])])])])]⟩

/-- The palette of the sample: the ramp and its primary level. -/
def Sample.stone : Palette where
  key := "accent"
  ramp := "stone"
  primary := some ⟨500⟩
  levels := [{
    level := ⟨500⟩
    tone := ⟨Token.Path.color "stone" ⟨500⟩, ⟨0x76, 0x76, 0x76⟩⟩
    onTone := some (OnTone.choose ⟨0x76, 0x76, 0x76⟩
      ⟨Token.Path.color "gray" ⟨900⟩, ⟨0, 0, 0⟩⟩
      ⟨Token.Path.color "gray" ⟨0⟩, ⟨0xff, 0xff, 0xff⟩⟩) }]

namespace Configuration

/-- A palette that names its ramp is led to. -/
theorem leadsToTones_or_refused_ramp :
    ∃ configuration : Configuration, 0 < configuration.options.maxReferenceDepth ∧
      (Palette.resolveAll (configuration.resolver .light)
        (configuration.anchorsOf .light)).1["accent"]? = some Sample.stone ∧
      configuration.LeadsToTones .light "accent" Sample.stone := by
  have found : (Palette.resolveAll
      ((Sample.bound "\x7btokens.color.stone\x7d").resolver .light)
      ((Sample.bound "\x7btokens.color.stone\x7d").anchorsOf .light)).1["accent"]? =
        some Sample.stone := by
    decide +kernel
  refine ⟨_, by decide, found, ?_⟩
  rcases leadsToTones_or_refused (by decide) found with
    ⟨name, -, leads⟩ | ⟨through, site, binding, -⟩
  · exact leads
  · have ramp : ((Sample.bound "\x7btokens.color.stone\x7d").resolver .light).binding
        (Resolver.palettePath .light "accent") = .ok (.ramp "stone") := by
      decide +kernel
    cases ramp.symm.trans binding

/-- A palette that reaches its ramp through a core color is there with its tone and its
primary tone, but references to both are refused. -/
theorem not_led_of_through :
    ∃ configuration : Configuration, configuration.options.maxReferenceDepth = 8 ∧
      (Palette.resolveAll (configuration.resolver .light)
        (configuration.anchorsOf .light)).1["accent"]? = some Sample.stone ∧
      configuration.compute.map.value? (Palette.toneProperty .light "accent" (some ⟨500⟩)) =
        some (.reference (Name.ofToken (Token.Path.color "stone" ⟨500⟩))) ∧
      configuration.compute.map.value? (Palette.toneProperty .light "accent" none) =
        some (.reference (Name.ofToken (Token.Path.color "stone" ⟨500⟩))) ∧
      ∀ level ∈ [some ⟨500⟩, none],
        (configuration.resolver .light).resolveToken
            (.site (some .light) (.palette "accent" level)) =
          .error (.paletteNotARamp "accent") :=
  ⟨Sample.bound "\x7bbrand.core-colors.alert\x7d", rfl, by decide +kernel, by decide +kernel,
    by decide +kernel, by decide +kernel⟩

end Configuration

end Legible
