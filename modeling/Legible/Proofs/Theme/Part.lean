import Legible.Live.Inspection
import Legible.Proofs.Property.Map
import Legible.Proofs.Property.Name
import Legible.Proofs.Token.Index
import Legible.Theme.Computation

/-!
# The parts of a computed map

Every entry that a computation adds is one of a few kinds: a token, a core color, a
tone or on-tone of a palette, a binding that is copied through, a surface, one of the
foregrounds on a surface, or a component binding. `Part` lists the kinds with what is
known about each entry where it is added; later modules argue by cases on it and do
not unfold the computation again.
-/

namespace Legible

open Property

/-! ## Emissions -/

namespace Emission

/-- Every entry of an emission is of a kind that may refer to the issues given with
it. -/
def Consists (kind : List Issue → Name → Entry → Prop) (emission : Emission) : Prop :=
  ∀ name entry, (name, entry) ∈ emission.entries → kind emission.issues name entry

/-- A kind that further issues do not change. -/
def Stable (kind : List Issue → Name → Entry → Prop) : Prop :=
  ∀ ⦃fewer more name entry⦄, fewer ⊆ more → kind fewer name entry → kind more name entry

variable {kind : List Issue → Name → Entry → Prop}

theorem consists_ofIssues (issues : List Issue) : Consists kind (ofIssues issues) := by
  intro name entry member
  cases member

theorem consists_entry {name : Name} {entry : Entry} (one : kind [] name entry) :
    Consists kind (.entry name entry) := by
  intro name' entry' member
  cases List.mem_singleton.1 member
  exact one

theorem Consists.append {first second : Emission} (stable : Stable kind)
    (left : Consists kind first) (right : Consists kind second) :
    Consists kind (first ++ second) := by
  intro name entry member
  rw [entries_append, List.mem_append] at member
  rw [issues_append]
  rcases member with earlier | later
  · exact stable (List.subset_append_left _ _) (left name entry earlier)
  · exact stable (List.subset_append_right _ _) (right name entry later)

theorem consists_join {emissions : List Emission} (stable : Stable kind)
    (all : ∀ emission ∈ emissions, Consists kind emission) : Consists kind (join emissions) := by
  intro name entry member
  obtain ⟨emission, listed, held⟩ := List.mem_flatMap.1 member
  refine stable ?_ (all emission listed name entry held)
  exact fun issue given => List.mem_flatMap.2 ⟨emission, listed, given⟩

/-- An issue and an entry that it may refer to. -/
theorem consists_reported {issues : List Issue} {name : Name} {entry : Entry}
    (one : kind issues name entry) : Consists kind (.ofIssues issues ++ .entry name entry) := by
  intro name' entry' member
  have whole : (name', entry') = (name, entry) := by
    simpa [ofIssues, Emission.entry] using member
  cases whole
  simpa [ofIssues, Emission.entry] using one

end Emission

namespace Inspection

/-- What is known stays known when there are further issues. -/
theorem isKnown_mono {fewer more : List Issue} {foreground : Name} (subset : fewer ⊆ more)
    (known : isKnown fewer foreground = true) : isKnown more foreground = true := by
  obtain ⟨issue, member, fits⟩ := List.any_eq_true.1 known
  exact List.any_eq_true.2 ⟨issue, subset member, fits⟩

end Inspection

/-! ## Searches -/

/-- A search of the ramp of an anchor for a foreground on a backdrop, with its
outcome. -/
structure ForegroundSearch (context : LayerContext) (anchor : Anchor) (backdrop : Backdrop)
    (blended : Bool) where
  ramp : Ramp
  start : Token.Level
  step : Step
  ramp_eq : context.resolver.index.ramp? anchor.token.key = some ramp
  start_eq : anchor.token.level = some start
  step_eq : ramp.search? start backdrop.color
    (((context.emphasisFor blended).map Emphasis.opacity).getD 1) = some step

namespace ForegroundSearch

variable {context : LayerContext} {anchor : Anchor} {backdrop : Backdrop} {blended : Bool}

/-- The token that was chosen. -/
def token (search : ForegroundSearch context anchor backdrop blended) : Token.Path :=
  search.ramp.path search.step.chosen.level

/-- The entry of the foreground that was found. -/
def entry (search : ForegroundSearch context anchor backdrop blended) (origin : Origin) : Entry :=
  match context.emphasisFor blended with
  | some emphasis =>
      { value := .blend (Name.ofToken search.token) (Name.ofToken backdrop.token)
          (.property emphasis.property)
        origin := some (origin.withInput emphasis.property) }
  | none => { value := .reference (Name.ofToken search.token), origin := some origin }

/-- Whether the foreground is legible, or is reported. -/
def IsReported (search : ForegroundSearch context anchor backdrop blended) (issues : List Issue)
    (name : Name) : Prop :=
  search.step.isLegible = true ∨ Inspection.isKnown issues name = true

/-- The issue that comes with a foreground reports it unless it is legible. -/
theorem isReported (search : ForegroundSearch context anchor backdrop blended) (name : Name) :
    search.IsReported (search.step.issue? name.text search.ramp).toList name := by
  by_cases legible : search.step.isLegible = true
  · exact .inl legible
  · refine .inr ?_
    simp [Step.issue?, legible, Inspection.isKnown, Issue.withRatio, Issue.warning]

theorem IsReported.mono {search : ForegroundSearch context anchor backdrop blended}
    {fewer more : List Issue} {name : Name} (subset : fewer ⊆ more)
    (reported : search.IsReported fewer name) : search.IsReported more name :=
  reported.imp_right (Inspection.isKnown_mono subset)

end ForegroundSearch

/-- A foreground that its search finds is given with that search. -/
theorem LayerContext.foreground_of_search {context : LayerContext} {anchor : Anchor}
    {backdrop : Backdrop} {blended : Bool}
    (search : ForegroundSearch context anchor backdrop blended) (name : Name) (origin : Origin) :
    context.foreground name anchor backdrop blended origin =
      (some search.step,
        .ofIssues (search.step.issue? name.text search.ramp).toList ++
          .entry name (search.entry origin)) := by
  simp only [foreground, search.ramp_eq, search.start_eq, search.step_eq]
  cases emphasized : context.emphasisFor blended <;>
    simp only [ForegroundSearch.entry, ForegroundSearch.token, emphasized]

/-- A foreground is left out, or comes from a search together with its issue. -/
theorem LayerContext.foreground_cases (context : LayerContext) (name : Name) (anchor : Anchor)
    (backdrop : Backdrop) (blended : Bool) (origin : Origin) :
    (∃ issues, context.foreground name anchor backdrop blended origin =
        (none, .ofIssues issues)) ∨
      ∃ search : ForegroundSearch context anchor backdrop blended,
        context.foreground name anchor backdrop blended origin =
          (some search.step,
            .ofIssues (search.step.issue? name.text search.ramp).toList ++
              .entry name (search.entry origin)) := by
  cases ramped : context.resolver.index.ramp? anchor.token.key with
  | none => exact .inl ⟨_, by simp only [foreground, ramped]; rfl⟩
  | some ramp =>
      cases started : anchor.token.level with
      | none => exact .inl ⟨_, by simp only [foreground, ramped, started]; rfl⟩
      | some start =>
          cases found : ramp.search? start backdrop.color
              (((context.emphasisFor blended).map Emphasis.opacity).getD 1) with
          | none => exact .inl ⟨[], by simp only [foreground, ramped, started, found]; rfl⟩
          | some step =>
              exact .inr ⟨⟨ramp, start, step, ramped, started, found⟩, foreground_of_search _ _ _⟩

/-! ## Palettes -/

namespace Palette

/-- The level of a palette that a property is named for: one of its own, or the
primary one. -/
def named? (palette : Palette) : Option Token.Level → Option PaletteLevel
  | some level => palette.level? level
  | none => palette.primary.bind palette.level?

/-- The levels of a ramp are found by their own level. -/
theorem find?_levelsOf {ramp : Ramp} {anchors : Anchors} {entry : PaletteLevel}
    (listed : entry ∈ levelsOf ramp anchors) :
    (levelsOf ramp anchors).find? (fun other => other.level == entry.level) = some entry := by
  have distinct : (levelsOf ramp anchors).Pairwise fun left right => left.level ≠ right.level := by
    have keys := Std.TreeMap.distinct_keys_toList (t := ramp.colors)
    rw [levelsOf, List.pairwise_map]
    exact keys.imp fun different => by simpa using different
  rw [List.find?_eq_some_iff_append]
  refine ⟨by simp, ?_⟩
  obtain ⟨before, after, split⟩ := List.append_of_mem listed
  refine ⟨before, after, split, fun other member => ?_⟩
  rw [split, List.pairwise_append] at distinct
  simpa using distinct.2.2 other member entry List.mem_cons_self

/-- What a tone follows: the token of its level, or the tone of the level that is
primary. -/
def toneInput (mode : Mode) (key : String) (shade : PaletteLevel) : Option Token.Level → Name
  | none => toneProperty mode key (some shade.level)
  | some _ => shade.tone.property

/-- An entry of a level is its tone or its on-tone. -/
theorem mem_levelEmission {mode : Mode} {key : String} {shade : PaletteLevel}
    {level : Option Token.Level} {name : Name} {entry : Entry}
    (member : (name, entry) ∈ (levelEmission mode key shade level).entries) :
    (name, entry) = (toneProperty mode key level,
        { value := .reference shade.tone.property
          origin := some (.ofInputs [toneInput mode key shade level])
          binding := some (.tone mode key level) }) ∨
      ∃ chosen, shade.onTone = some chosen ∧ (name, entry) = (onToneProperty mode key level,
        { value := .reference chosen.anchor.property
          origin := some ((Origin.ofInputs (Anchors.contrastInputs mode)).against
            (toneProperty mode key level)) }) := by
  unfold levelEmission at member
  rcases List.mem_append.1 member with tone | own
  · rw [List.mem_singleton.1 tone]
    cases level <;> exact .inl rfl
  · cases onTone : shade.onTone with
    | none =>
        rw [onTone] at own
        cases own
    | some chosen =>
        rw [onTone] at own
        exact .inr ⟨chosen, rfl, List.mem_singleton.1 own⟩

/-- What is said about a palette without both black and white. -/
def missingIssues (mode : Mode) (anchors : Anchors) (key : String) : List Issue :=
  if anchors.contrasting?.isSome then []
  else
    [Issue.warning .reference (String.intercalate "." (Resolver.palettePath mode key))
      "core black/white unresolved; on-tones skipped"]

/-- A key that binds a ramp gives the palette over it, and reports what is wrong with its
mark, what it lacks, and what is not legible on it. -/
theorem resolve_eq_of_ramp {resolver : Resolver} (anchors : Anchors) {key : String} {ramp : Ramp}
    (bound : resolveRamp resolver key = .ok ramp) :
    resolve resolver anchors key =
      (some ⟨key, ramp.name, (resolvePrimary resolver key ramp).1, levelsOf ramp anchors⟩,
        (resolvePrimary resolver key ramp).2 ++ missingIssues resolver.mode anchors key ++
          (levelsOf ramp anchors).flatMap
            (onToneIssues resolver.mode key (resolvePrimary resolver key ramp).1)) := by
  rw [resolve, bound]
  rfl

/-- A key that binds a ramp gives a palette, and reports what is not legible on it. -/
theorem resolve_of_ramp {resolver : Resolver} (anchors : Anchors) {key : String} {ramp : Ramp}
    (bound : resolveRamp resolver key = .ok ramp) :
    ∃ primary notes, resolve resolver anchors key =
      (some ⟨key, ramp.name, primary, levelsOf ramp anchors⟩,
        notes ++ (levelsOf ramp anchors).flatMap (onToneIssues resolver.mode key primary)) :=
  ⟨_, _, resolve_eq_of_ramp anchors bound⟩

end Palette

/-! ## Parts -/

namespace Configuration

/-- The anchors of a mode. -/
def anchorsOf (configuration : Configuration) (mode : Mode) : Anchors :=
  (Anchors.resolve (configuration.resolver mode)).1

/-- The palette that a mode binds under a key. -/
def paletteOf (configuration : Configuration) (mode : Mode) (key : String) : Option Palette :=
  (Palette.resolve (configuration.resolver mode) (configuration.anchorsOf mode) key).1

/-- What the layers of a mode are derived from. -/
def layersOf (configuration : Configuration) (mode : Mode) : LayerContext :=
  { resolver := configuration.resolver mode
    anchors := configuration.anchorsOf mode
    palettes :=
      (Palette.resolveAll (configuration.resolver mode) (configuration.anchorsOf mode)).1
    emphasis :=
      (Emphasis.resolve (configuration.resolver mode) configuration.options.textEmphasis).1 }

/-- The surface of a layer. -/
def surfaceOf (configuration : Configuration) (mode : Mode) (layer : LayerId) : Option Surface :=
  ((configuration.layersOf mode).surface layer).1

/-- A foreground search on a surface or on what stands on it. -/
abbrev SearchOf (configuration : Configuration) (mode : Mode) (anchor : Anchor)
    (backdrop : Backdrop) (blended : Bool) :=
  ForegroundSearch (configuration.layersOf mode) anchor backdrop blended

/-- The backdrop of an interactive on-tone: the tone that a search chose. -/
def toneBackdrop {configuration : Configuration} {mode : Mode} {anchor : Anchor}
    {backdrop : Backdrop} (layer : LayerId) (state : InteractiveState)
    (tone : configuration.SearchOf mode anchor backdrop false) : Backdrop :=
  ⟨layer.element mode (LayerId.tonePath state),
    Token.Path.color anchor.token.key tone.step.chosen.level, tone.step.chosen.color⟩

/-- The kinds of entries that a computation adds, each with what is known about the
entry. The issues are those of the computation. -/
inductive Part (configuration : Configuration) (issues : List Issue) : Name → Entry → Prop where
  | token {path : Token.Path} {value : Token.Value}
      (held : configuration.index.values[path]? = some value) :
      Part configuration issues (Name.ofToken path)
        { value := .literal value.literal, binding := some (.token path) }
  | core {mode : Mode} {slot : CoreSlot} {anchor : Anchor}
      (bound : (slot, anchor) ∈ (configuration.anchorsOf mode).bound) :
      Part configuration issues (slot.property mode)
        { value := .reference anchor.property
          origin := some (.ofInputs [anchor.property])
          binding := some (.theme (slot.documentPath mode)) }
  | tone {mode : Mode} {key : String} {level : Option Token.Level} {palette : Palette}
      {entry : PaletteLevel} {input : Name} (bound : configuration.paletteOf mode key = some palette)
      (named : palette.named? level = some entry) :
      Part configuration issues (Palette.toneProperty mode key level)
        { value := .reference entry.tone.property
          origin := some (.ofInputs [input])
          binding := some (.tone mode key level) }
  | onTone {mode : Mode} {key : String} {level : Option Token.Level} {palette : Palette}
      {entry : PaletteLevel} {chosen : OnTone}
      (bound : configuration.paletteOf mode key = some palette)
      (named : palette.named? level = some entry) (onTone : entry.onTone = some chosen)
      (reported : chosen.isLegible = true ∨
        Inspection.isKnown issues (Palette.onToneProperty mode key level) = true) :
      Part configuration issues (Palette.onToneProperty mode key level)
        { value := .reference chosen.anchor.property
          origin := some ((Origin.ofInputs (Anchors.contrastInputs mode)).against
            (Palette.toneProperty mode key level)) }
  | copied {mode : Mode} {subsystem : Subsystem} {leaf : Document.Leaf} {text : String}
      {target : Token.Path} (listed : subsystem ∈ Subsystem.copied)
      (found : leaf ∈ configuration.theme.leaves ["themes", mode.text, subsystem.text])
      (bound : leaf.value.text? = some text)
      (resolved : (configuration.resolver mode).resolveToken (Reference.read text) = .ok target) :
      Part configuration issues (Name.brand mode subsystem (leaf.path.drop 3))
        { value := .reference (Name.ofToken target)
          origin := some (.ofInputs [Name.ofToken target])
          binding := some (.theme leaf.path) }
  | surface {mode : Mode} {layer : LayerId} {surface : Surface} {input : Name}
      (listed : layer ∈ layerIds configuration.theme mode)
      (found : configuration.surfaceOf mode layer = some surface) :
      Part configuration issues (layer.surface mode)
        { value := .reference (Name.ofToken surface.backdrop.token)
          origin := some (.ofInputs [input])
          binding := some (.theme (layer.surfacePath mode)) }
  | text {mode : Mode} {layer : LayerId} {surface : Surface} {anchor : Anchor} {inputs : List Name}
      (found : configuration.surfaceOf mode layer = some surface)
      (search : configuration.SearchOf mode anchor surface.backdrop true)
      (reported : search.IsReported issues (layer.element mode ["text"])) :
      Part configuration issues (layer.element mode ["text"])
        (search.entry ((Origin.ofInputs inputs).against (layer.surface mode)))
  | interactiveTone {mode : Mode} {layer : LayerId} {surface : Surface} {state : InteractiveState}
      {anchor : Anchor} {inputs : List Name}
      (found : configuration.surfaceOf mode layer = some surface)
      (bound : (configuration.anchorsOf mode).get? (.interactive state) = some anchor)
      (search : configuration.SearchOf mode anchor surface.backdrop false)
      (reported : search.IsReported issues (layer.element mode (LayerId.tonePath state))) :
      Part configuration issues (layer.element mode (LayerId.tonePath state))
        (search.entry ((Origin.ofInputs inputs).against (layer.surface mode)))
  | interactiveOnTone {mode : Mode} {layer : LayerId} {surface : Surface}
      {state : InteractiveState} {anchor onAnchor : Anchor} {inputs : List Name}
      (found : configuration.surfaceOf mode layer = some surface)
      (bound : (configuration.anchorsOf mode).get? (.interactive state) = some anchor)
      (tone : configuration.SearchOf mode anchor surface.backdrop false)
      (search : configuration.SearchOf mode onAnchor (toneBackdrop layer state tone) false)
      (reported : search.IsReported issues (layer.element mode (LayerId.onTonePath state))) :
      Part configuration issues (layer.element mode (LayerId.onTonePath state))
        (search.entry ((Origin.ofInputs inputs).against
          (layer.element mode (LayerId.tonePath state))))
  | status {mode : Mode} {layer : LayerId} {surface : Surface} {color : CoreColor}
      {anchor : Anchor} {inputs : List Name} (listed : color ∈ CoreColor.status)
      (found : configuration.surfaceOf mode layer = some surface)
      (search : configuration.SearchOf mode anchor surface.backdrop true)
      (reported : search.IsReported issues (layer.element mode [color.text, "text"])) :
      Part configuration issues (layer.element mode [color.text, "text"])
        (search.entry ((Origin.ofInputs inputs).against (layer.surface mode)))
  | componentToken {path : List String} {mode : Mode} {reference : Reference}
      {target : Token.Path}
      (resolved : (configuration.resolver mode).resolveToken reference = .ok target) :
      Part configuration issues (Name.ui path)
        { value := .reference (Name.ofToken target)
          origin := some (.ofInputs [Name.ofToken target]) }
  | componentBrand {path segments : List String} {text : String} {subsystem : Subsystem}
      (read : Reference.read text = .property subsystem segments) :
      Part configuration issues (Name.ui path)
        { value := .reference
            (Name.brand configuration.options.uiKitMode subsystem segments)
          origin := some (.ofInputs
            [Name.brand configuration.options.uiKitMode subsystem segments]) }

variable {configuration : Configuration}

/-- What is known about an entry does not change when there are further issues. -/
theorem Part.stable : Emission.Stable (Part configuration) := by
  intro fewer more name entry subset part
  have known {foreground : Name} (known : Inspection.isKnown fewer foreground = true) :
      Inspection.isKnown more foreground = true :=
    Inspection.isKnown_mono subset known
  cases part with
  | token held => exact .token held
  | core bound => exact .core bound
  | tone bound named => exact .tone bound named
  | onTone bound named onTone reported => exact .onTone bound named onTone (reported.imp_right known)
  | copied listed found bound resolved => exact .copied listed found bound resolved
  | surface listed found => exact .surface listed found
  | text found search reported => exact .text found search (reported.mono subset)
  | interactiveTone found bound search reported =>
      exact .interactiveTone found bound search (reported.mono subset)
  | interactiveOnTone found bound tone search reported =>
      exact .interactiveOnTone found bound tone search (reported.mono subset)
  | status listed found search reported =>
      exact .status listed found search (reported.mono subset)
  | componentToken resolved => exact .componentToken resolved
  | componentBrand read => exact .componentBrand read

/-! ## What each stage of the computation gives -/

theorem consists_tokenEmission :
    Emission.Consists (Part configuration) (tokenEmission configuration.index) := by
  intro name entry member
  obtain ⟨⟨path, value⟩, listed, equal⟩ := List.mem_map.1 member
  cases equal
  exact .token ((Token.Index.mem_tokens _ path value).1 listed)

theorem consists_anchors (mode : Mode) :
    Emission.Consists (Part configuration) (configuration.anchorsOf mode).emission := by
  refine Emission.consists_join Part.stable fun emission listed => ?_
  obtain ⟨⟨slot, anchor⟩, bound, rfl⟩ := List.mem_map.1 listed
  exact Emission.consists_entry (.core bound)

theorem consists_copied (mode : Mode) {subsystem : Subsystem}
    (copied : subsystem ∈ Subsystem.copied) :
    Emission.Consists (Part configuration)
      (copiedEmission (configuration.resolver mode) subsystem) := by
  refine Emission.consists_join Part.stable fun emission listed => ?_
  obtain ⟨leaf, found, rfl⟩ := List.mem_map.1 listed
  rw [copiedLeaf]
  cases bound : leaf.value.text? with
  | none => exact Emission.consists_ofIssues _
  | some text =>
      cases resolved : (configuration.resolver mode).resolveToken (Reference.read text) with
      | error error =>
          simp only [resolved]
          exact Emission.consists_ofIssues _
      | ok token =>
          simp only [resolved]
          exact Emission.consists_entry (.copied copied found bound resolved)

/-- A level of a palette that is not legible is reported under its own name, and under
the primary one when it is the primary level. -/
theorem isKnown_onToneIssues (mode : Mode) (key : String) {primary level : Option Token.Level}
    {entry : PaletteLevel} {chosen : OnTone} (onTone : entry.onTone = some chosen)
    (named : level = some entry.level ∨ level = none ∧ primary = some entry.level) :
    chosen.isLegible = true ∨
      Inspection.isKnown (Palette.onToneIssues mode key primary entry)
        (Palette.onToneProperty mode key level) = true := by
  by_cases legible : chosen.isLegible = true
  · exact .inl legible
  · refine .inr ?_
    rw [Palette.onToneIssues, onTone]
    rcases named with rfl | ⟨rfl, primary⟩
    · simp [legible, Inspection.isKnown, Issue.withRatio, Issue.warning]
    · simp [legible, primary, Inspection.isKnown, Issue.withRatio, Issue.warning]

/-- A level of a resolved palette adds its tone and its on-tone, under its own name or
under the primary one. -/
theorem part_of_mem_levelEmission {mode : Mode} {key : String} {palette : Palette}
    {shade : PaletteLevel} {level : Option Token.Level}
    (bound : configuration.paletteOf mode key = some palette)
    (found : palette.named? level = some shade)
    (named : level = some shade.level ∨ level = none ∧ palette.primary = some shade.level)
    {name : Name} {entry : Entry}
    (member : (name, entry) ∈ (Palette.levelEmission mode key shade level).entries) :
    Part configuration (Palette.onToneIssues mode key palette.primary shade) name entry := by
  rcases Palette.mem_levelEmission member with tone | ⟨chosen, onTone, own⟩
  · cases tone
    exact .tone bound found
  · cases own
    exact .onTone bound found onTone (isKnown_onToneIssues mode key onTone named)

theorem consists_palette (mode : Mode) (key : String) :
    Emission.Consists (Part configuration)
      (((configuration.paletteOf mode key).map (Palette.emission mode)).getD {} ++
        .ofIssues (Palette.resolve (configuration.resolver mode)
          (configuration.anchorsOf mode) key).2) := by
  cases ramped : Palette.resolveRamp (configuration.resolver mode) key with
  | error failure =>
      rw [paletteOf, Palette.resolve, ramped]
      exact .append Part.stable (Emission.consists_ofIssues []) (Emission.consists_ofIssues _)
  | ok ramp =>
      obtain ⟨primary, notes, resolved⟩ :=
        Palette.resolve_of_ramp (configuration.anchorsOf mode) ramped
      have palette := congrArg Prod.fst resolved
      have issues := congrArg Prod.snd resolved
      rw [← paletteOf] at palette
      rw [palette, issues]
      intro name entry member
      refine Part.stable (List.subset_append_right _ _) ?_
      obtain ⟨emission, listed, held⟩ :=
        List.mem_flatMap.1 ((List.mem_append.1 member).resolve_right List.not_mem_nil)
      -- What is reported about a level is among what is reported about the palette.
      have reported {shade : PaletteLevel}
          (listed : shade ∈ Palette.levelsOf ramp (configuration.anchorsOf mode)) :
          Palette.onToneIssues mode key primary shade ⊆
            notes ++ (Palette.levelsOf ramp (configuration.anchorsOf mode)).flatMap
              (Palette.onToneIssues mode key primary) := by
        intro issue given
        exact List.mem_append_right _ (List.mem_flatMap.2 ⟨shade, listed, given⟩)
      rcases List.mem_append.1 listed with own | marked
      · obtain ⟨shade, member, rfl⟩ := List.mem_map.1 own
        refine Part.stable (reported member)
          (part_of_mem_levelEmission palette ?_ (.inl rfl) held)
        exact Palette.find?_levelsOf member
      · obtain ⟨shade, member, rfl⟩ := List.mem_map.1 marked
        obtain ⟨level, isPrimary, found⟩ :=
          Option.bind_eq_some_iff.1 (Option.mem_toList.1 member)
        have same : shade.level = level := by simpa using List.find?_some found
        refine Part.stable (reported (List.mem_of_find?_eq_some found))
          (part_of_mem_levelEmission palette ?_ (.inr ⟨rfl, same ▸ isPrimary⟩) held)
        exact Option.mem_toList.1 member

theorem consists_palettes (mode : Mode) :
    Emission.Consists (Part configuration)
      (Palette.resolveAll (configuration.resolver mode) (configuration.anchorsOf mode)).2 := by
  refine Emission.consists_join Part.stable fun emission listed => ?_
  obtain ⟨_, resolved, rfl⟩ := List.mem_map.1 listed
  obtain ⟨key, -, rfl⟩ := List.mem_map.1 resolved
  exact consists_palette mode key

/-! ## What stands on a surface -/

/-- The anchors that a surface can hold, each with the palette tone that it is and with
the property that the surface follows. -/
inductive SurfaceSource (context : LayerContext) (layer : LayerId) :
    Anchor → Option (String × Token.Level) → Name → Prop where
  | token {reference : Reference} {anchor : Anchor}
      (binding : context.surfaceBinding layer = .ok (reference, anchor))
      (plain : context.paletteSource? reference = none) :
      SurfaceSource context layer anchor none anchor.property
  | tone {reference : Reference} {anchor : Anchor} {key : String} {level : Token.Level}
      (binding : context.surfaceBinding layer = .ok (reference, anchor))
      (source : context.paletteSource? reference = some (key, level)) :
      SurfaceSource context layer anchor (some (key, level))
        (Palette.toneProperty context.mode key (some level))
  | standIn {anchor : Anchor}
      (stand : context.anchors.get? (LayerContext.fallbackSlot context.mode) = some anchor) :
      SurfaceSource context layer anchor none
        ((LayerContext.fallbackSlot context.mode).property context.mode)

/-- A surface is left out, or holds the anchor it is bound to or that stands in. -/
theorem surface_cases (context : LayerContext) (layer : LayerId) :
    (∃ issues, context.surface layer = (none, .ofIssues issues)) ∨
      ∃ anchor palette isFallback input issues,
        SurfaceSource context layer anchor palette input ∧
        context.surface layer =
          (some ⟨layer, ⟨layer.surface context.mode, anchor.token, anchor.color⟩, palette,
              isFallback⟩,
            .ofIssues issues ++ .entry (layer.surface context.mode)
              { value := .reference (Name.ofToken anchor.token)
                origin := some (.ofInputs [input])
                binding := some (.theme (layer.surfacePath context.mode)) }) := by
  cases binding : context.surfaceBinding layer with
  | ok bound =>
      obtain ⟨reference, anchor⟩ := bound
      cases source : context.paletteSource? reference with
      | none =>
          simp only [LayerContext.surface, binding, source]
          exact .inr ⟨anchor, _, _, _, [], .token binding source, rfl⟩
      | some tone =>
          simp only [LayerContext.surface, binding, source]
          exact .inr ⟨anchor, _, _, _, [], .tone binding source, rfl⟩
  | error failure =>
      cases stand : context.anchors.get? (LayerContext.fallbackSlot context.mode) with
      | none =>
          simp only [LayerContext.surface, binding, stand]
          exact .inl ⟨_, rfl⟩
      | some anchor =>
          simp only [LayerContext.surface, binding, stand]
          exact .inr ⟨anchor, _, _, _, _, .standIn stand, rfl⟩

/-- A surface stands under the name of its layer. -/
theorem backdrop_name_of_surfaceOf {mode : Mode} {layer : LayerId} {surface : Surface}
    (found : configuration.surfaceOf mode layer = some surface) :
    surface.layer = layer ∧ surface.backdrop.name = layer.surface mode := by
  rw [surfaceOf] at found
  rcases surface_cases (configuration.layersOf mode) layer with
    ⟨issues, none⟩ | ⟨anchor, palette, isFallback, input, issues, -, given⟩
  · rw [none] at found
    cases found
  · rw [given] at found
    cases found
    exact ⟨rfl, rfl⟩

/-- A surface is given as it is found. -/
theorem consists_surface {mode : Mode} {layer : LayerId}
    (listed : layer ∈ layerIds configuration.theme mode) :
    Emission.Consists (Part configuration) ((configuration.layersOf mode).surface layer).2 := by
  rcases surface_cases (configuration.layersOf mode) layer with
    ⟨issues, none⟩ | ⟨anchor, palette, isFallback, input, issues, -, given⟩
  · rw [none]
    exact Emission.consists_ofIssues issues
  · have found : configuration.surfaceOf mode layer =
        some ⟨layer, ⟨layer.surface mode, anchor.token, anchor.color⟩, palette, isFallback⟩ :=
      congrArg Prod.fst given
    have part := @Part.surface configuration issues mode layer _ input listed found
    have own : (configuration.layersOf mode).mode = mode := rfl
    rw [given, own]
    exact Emission.consists_reported part

/-- A foreground is of a kind when the entry of its search is. -/
theorem consists_foreground {kind : List Issue → Name → Entry → Prop} {context : LayerContext}
    {name : Name} {anchor : Anchor} {backdrop : Backdrop} {blended : Bool} {origin : Origin}
    (one : ∀ search : ForegroundSearch context anchor backdrop blended,
      kind (search.step.issue? name.text search.ramp).toList name (search.entry origin)) :
    Emission.Consists kind (context.foreground name anchor backdrop blended origin).2 := by
  rcases context.foreground_cases name anchor backdrop blended origin with
    ⟨issues, none⟩ | ⟨search, found⟩
  · rw [none]
    exact Emission.consists_ofIssues issues
  · rw [found]
    exact Emission.consists_reported (one search)

section Elements

variable {mode : Mode} {layer : LayerId} {surface : Surface}

theorem consists_text (found : configuration.surfaceOf mode layer = some surface) :
    Emission.Consists (Part configuration) ((configuration.layersOf mode).text surface) := by
  obtain ⟨ownLayer, ownName⟩ := backdrop_name_of_surfaceOf found
  rw [LayerContext.text]
  cases followed : (configuration.layersOf mode).textAnchor? surface with
  | none => exact Emission.consists_ofIssues _
  | some chosen =>
      simp only [ownLayer, ownName]
      exact consists_foreground fun search => .text found search (search.isReported _)

theorem consists_status (found : configuration.surfaceOf mode layer = some surface)
    {color : CoreColor} (listed : color ∈ CoreColor.status) :
    Emission.Consists (Part configuration)
      ((configuration.layersOf mode).status surface color) := by
  obtain ⟨ownLayer, ownName⟩ := backdrop_name_of_surfaceOf found
  rw [LayerContext.status]
  cases bound : (configuration.layersOf mode).anchors.get? (.plain color) with
  | none => exact Emission.consists_ofIssues []
  | some anchor =>
      simp only [ownLayer, ownName]
      exact consists_foreground fun search => .status listed found search (search.isReported _)

theorem consists_interactive (found : configuration.surfaceOf mode layer = some surface)
    (state : InteractiveState) :
    Emission.Consists (Part configuration)
      ((configuration.layersOf mode).interactive surface state) := by
  obtain ⟨ownLayer, ownName⟩ := backdrop_name_of_surfaceOf found
  rw [LayerContext.interactive]
  cases bound : (configuration.layersOf mode).anchors.get? (.interactive state) with
  | none => exact Emission.consists_ofIssues []
  | some anchor =>
      simp only [ownLayer, ownName]
      rcases (configuration.layersOf mode).foreground_cases
          (layer.element (configuration.layersOf mode).mode ["interactive", state.text, "tone"])
          anchor surface.backdrop false
          ((Origin.ofInputs [(CoreSlot.interactive state).property
            (configuration.layersOf mode).mode]).against (layer.surface mode)) with
        ⟨issues, none⟩ | ⟨tone, chosen⟩
      · rw [none]
        exact Emission.consists_ofIssues issues
      · rw [chosen]
        refine .append Part.stable ?_ ?_
        · exact Emission.consists_reported
            (.interactiveTone found bound tone (tone.isReported _))
        · rw [LayerContext.interactiveOnTone]
          cases better : (configuration.layersOf mode).anchors.better? tone.step.chosen.color with
          | none => exact Emission.consists_ofIssues []
          | some onAnchor =>
              simp only [ownLayer]
              exact consists_foreground fun search =>
                .interactiveOnTone found bound tone search (search.isReported _)

end Elements

theorem consists_layer {mode : Mode} {layer : LayerId}
    (listed : layer ∈ layerIds configuration.theme mode) :
    Emission.Consists (Part configuration) ((configuration.layersOf mode).layer layer).2 := by
  have own : Emission.Consists (Part configuration)
      ((configuration.layersOf mode).surface layer).2 :=
    consists_surface listed
  rw [LayerContext.layer]
  cases whole : (configuration.layersOf mode).surface layer with
  | mk surface emission =>
      rw [whole] at own
      cases surface with
      | none => exact own
      | some surface =>
          have found : configuration.surfaceOf mode layer = some surface := by
            rw [surfaceOf, whole]
          refine .append Part.stable own (.append Part.stable (.append Part.stable ?_ ?_) ?_)
          · exact consists_text found
          · refine Emission.consists_join Part.stable fun emission listed => ?_
            obtain ⟨state, -, rfl⟩ := List.mem_map.1 listed
            exact consists_interactive found state
          · refine Emission.consists_join Part.stable fun emission listed => ?_
            obtain ⟨color, status, rfl⟩ := List.mem_map.1 listed
            exact consists_status found status

theorem consists_modeEmission (mode : Mode) :
    Emission.Consists (Part configuration) (configuration.modeEmission mode).2 := by
  refine .append Part.stable (.append Part.stable (.append Part.stable (.append Part.stable
    (.append Part.stable (Emission.consists_ofIssues _) (consists_anchors mode))
    (consists_palettes mode)) ?_) (Emission.consists_ofIssues _)) ?_
  · refine Emission.consists_join Part.stable fun emission listed => ?_
    obtain ⟨subsystem, copied, rfl⟩ := List.mem_map.1 listed
    exact consists_copied mode copied
  · refine Emission.consists_join Part.stable fun emission listed => ?_
    obtain ⟨_, given, rfl⟩ := List.mem_map.1 listed
    obtain ⟨layer, declared, rfl⟩ := List.mem_map.1 given
    exact consists_layer declared

theorem consists_componentEmission (map : PropertyMap) :
    Emission.Consists (Part configuration) (configuration.componentEmission map) := by
  refine Emission.consists_join Part.stable fun emission listed => ?_
  obtain ⟨leaf, -, rfl⟩ := List.mem_map.1 listed
  rw [componentLeaf]
  cases target : configuration.componentTarget map (Reference.read (leaf.value.text?.getD "")) with
  | error failure => exact Emission.consists_ofIssues _
  | ok target' =>
      refine Emission.consists_entry ?_
      unfold componentTarget at target
      split at target
      · next subsystem path read =>
          simp only at target
          split at target
          · cases target
            exact .componentBrand read
          · cases target
      · cases target
      · cases target
      · split at target
        · next token resolved =>
            cases target
            exact .componentToken resolved
        · cases target

/-! ## The whole computation -/

/-- Everything that the documents of both tiers below the components give. -/
def boundEmission (configuration : Configuration) : Emission :=
  tokenEmission configuration.index ++
    .join (configuration.modes.map fun mode => (configuration.modeEmission mode).2)

/-- All entries of a computation in the order in which they are added. -/
def entries (configuration : Configuration) : List (Name × Entry) :=
  configuration.boundEmission.entries ++
    (configuration.componentEmission (.ofList configuration.boundEmission.entries)).entries

theorem compute_map (configuration : Configuration) :
    configuration.compute.map = .ofList configuration.entries := by
  rw [entries, ← PropertyMap.addAll_ofList, compute, boundEmission]
  simp only [List.map_map]
  rfl

theorem compute_issues (configuration : Configuration) :
    configuration.compute.issues =
      configuration.boundEmission.issues ++
        (configuration.componentEmission (.ofList configuration.boundEmission.entries)).issues := by
  rw [compute, boundEmission]
  simp only [List.map_map]
  rfl

/-- Every entry of a computation is one of the listed parts. -/
theorem part_of_mem {name : Name} {entry : Entry}
    (member : (name, entry) ∈ configuration.entries) :
    Part configuration configuration.compute.issues name entry := by
  rw [compute_issues]
  rcases List.mem_append.1 member with bound | component
  · refine Part.stable (List.subset_append_left _ _) ?_
    refine Emission.Consists.append Part.stable consists_tokenEmission
      (Emission.consists_join Part.stable fun emission listed => ?_) name entry bound
    obtain ⟨mode, -, rfl⟩ := List.mem_map.1 listed
    exact consists_modeEmission mode
  · exact Part.stable (List.subset_append_right _ _)
      (consists_componentEmission _ name entry component)

end Configuration

end Legible
