import Legible.Theme.Emphasis
import Legible.Theme.Palette
import Legible.Theme.Stepping

/-!
# Layers and what stands on them

Every layer binds a surface. On the surface stand a text, a tone for each state of
the interactive color with an on-tone of its own, and a text for each status color.
Each of them starts at the level of its anchor and searches the anchor's ramp for a
legible level. Text and status texts are blended by the text emphasis. One that
cannot be derived is left out and the rest go on; a surface whose binding leads
nowhere becomes the core white in light mode and the core black in dark mode.
-/

namespace Legible

open Property

/-- Something that a foreground has to be legible on. -/
structure Backdrop where
  /-- The brand property that holds it. -/
  name : Name
  token : Token.Path
  color : Color
  deriving DecidableEq, Repr

/-- The surface of a layer. -/
structure Surface where
  layer : LayerId
  backdrop : Backdrop
  /-- The key and level of the palette tone that the surface is bound to. -/
  palette : Option (String × Token.Level)
  /-- Whether the binding led nowhere. -/
  isFallback : Bool
  deriving DecidableEq, Repr

/-- The layers that a theme declares for a mode: the numbered ones in order, then
the alternatives in document order. -/
def layerIds (theme : Document) (mode : Mode) : List LayerId :=
  let path := ["themes", mode.text, "layers"]
  let keys := theme.keys path
  let numbers := keys.filterMap fun key =>
    match LayerId.read? key with
    | some (.indexed number) => some number
    | _ => none
  let alternatives := keys.flatMap fun key =>
    if key = "alternative" then theme.keys (path ++ ["alternative"]) else []
  (numbers.mergeSort fun left right => decide (left ≤ right)).map .indexed ++
    alternatives.map .alternative

/-- What the layers of a mode are derived from. -/
structure LayerContext where
  resolver : Resolver
  anchors : Anchors
  palettes : Std.TreeMap String Palette
  emphasis : Option Emphasis

namespace LayerContext

/-- The mode of the layers. -/
def mode (context : LayerContext) : Mode := context.resolver.mode

/-- The palette tone that a reference names in this mode. -/
def paletteSource? (context : LayerContext) : Reference → Option (String × Token.Level)
  | .site mode (.palette key level) =>
      if mode.getD context.mode = context.mode then do
        let palette ← context.palettes[key]?
        let level ← level.orElse fun _ => palette.primary
        let _ ← palette.level? level
        pure (key, level)
      else none
  | _ => none

/-- The color token that a layer's surface is bound to, with the reference that
led there, or what is said about the binding. -/
def surfaceBinding (context : LayerContext) (layer : LayerId) :
    Except String (Reference × Anchor) :=
  match context.resolver.theme.leafText? (layer.surfacePath context.mode) with
  | none => .error "no surface binding"
  | some text =>
      let reference := Reference.read text
      (context.resolver.resolveColor reference).map fun anchor => (reference, anchor)

/-- The slot that stands in for a surface. -/
def fallbackSlot : Mode → CoreSlot
  | .light => .white
  | .dark => .black

/-- The surface of a layer and its property. -/
def surface (context : LayerContext) (layer : LayerId) : Option Surface × Emission :=
  let mode := context.mode
  let name := layer.surface mode
  let path := layer.surfacePath mode
  let emission (anchor : Anchor) (input : Name) : Emission :=
    .entry name
      { value := .reference anchor.property
        origin := some (.ofInputs [input])
        binding := some (.theme path) }
  match context.surfaceBinding layer with
  | .ok (reference, anchor) =>
      let palette := context.paletteSource? reference
      let input :=
        match palette with
        | some (key, level) => Palette.toneProperty mode key (some level)
        | none => anchor.property
      (some ⟨layer, ⟨name, anchor.token, anchor.color⟩, palette, false⟩, emission anchor input)
  | .error failure =>
      let slot := fallbackSlot mode
      let issue (outcome : String) : Emission :=
        .ofIssues [Issue.warning .reference (String.intercalate "." path) (failure ++ outcome)]
      match context.anchors.get? slot with
      | none => (none, issue ("; core " ++ slot.color.text ++ " unresolved, layer skipped"))
      | some anchor =>
          (some ⟨layer, ⟨name, anchor.token, anchor.color⟩, none, true⟩,
            issue ("; using core " ++ slot.color.text) ++ emission anchor (slot.property mode))

/-- The emphasis that applies to an element, if it is less than full opacity. -/
def emphasisFor (context : LayerContext) (blended : Bool) : Option Emphasis :=
  context.emphasis.filter fun emphasis => blended && decide (emphasis.opacity < 1)

/-- Searches the anchor's ramp for a level that is legible on the backdrop, and
gives the property with that level, or with the first one and an issue. -/
def foreground (context : LayerContext) (name : Name) (anchor : Anchor) (backdrop : Backdrop)
    (blended : Bool) (origin : Origin) : Option Step × Emission :=
  match context.resolver.index.ramp? anchor.token.key, anchor.token.level with
  | some ramp, some start =>
      let emphasis := context.emphasisFor blended
      match ramp.search? start backdrop.color ((emphasis.map Emphasis.opacity).getD 1) with
      | none => (none, {})
      | some step =>
          let color := Name.ofToken (ramp.path step.chosen.level)
          let entry : Entry :=
            match emphasis with
            | some emphasis =>
                { value := .blend color (Name.ofToken backdrop.token) (.property emphasis.property)
                  origin := some (origin.withInput emphasis.property) }
            | none => { value := .reference color, origin := some origin }
          (some step, .ofIssues (step.issue? name.text ramp).toList ++ .entry name entry)
  | _, _ =>
      (none,
        .ofIssues
          [Issue.warning .reference name.text (anchor.token.text ++ " is not a ramp level")])

/-- The anchor of the text on a surface, with the on-tone property it follows when
the surface is a palette tone. -/
def textAnchor? (context : LayerContext) (surface : Surface) : Option (Anchor × Option Name) :=
  let fromPalette := do
    let (key, level) ← surface.palette
    let palette ← context.palettes[key]?
    let entry ← palette.level? level
    let onTone ← entry.onTone
    pure (onTone.anchor, some (Palette.onToneProperty context.mode key (some level)))
  fromPalette.orElse fun _ =>
    (context.anchors.better? surface.backdrop.color).map fun (_, anchor) => (anchor, none)

/-- The text on a surface. -/
def text (context : LayerContext) (surface : Surface) : Emission :=
  let name := surface.layer.element context.mode ["text"]
  match context.textAnchor? surface with
  | none =>
      .ofIssues
        [Issue.warning .reference name.text "core black/white unresolved; text skipped"]
  | some (anchor, followed) =>
      let inputs := Anchors.contrastInputs context.mode ++ followed.toList
      let origin := (Origin.ofInputs inputs).against surface.backdrop.name
      (context.foreground name anchor surface.backdrop true origin).2

/-- The on-tone of an interactive tone that was found by a search. -/
def interactiveOnTone (context : LayerContext) (surface : Surface) (state : InteractiveState)
    (tone : Name) (anchor : Anchor) (step : Step) : Emission :=
  match context.anchors.better? step.chosen.color with
  | none => {}
  | some (_, onAnchor) =>
      let name := surface.layer.element context.mode ["interactive", state.text, "on-tone"]
      let backdrop : Backdrop :=
        ⟨tone, Token.Path.color anchor.token.key step.chosen.level, step.chosen.color⟩
      let origin := (Origin.ofInputs (Anchors.contrastInputs context.mode)).against tone
      (context.foreground name onAnchor backdrop false origin).2

/-- The tone of a state of the interactive color, and its on-tone. -/
def interactive (context : LayerContext) (surface : Surface) (state : InteractiveState) :
    Emission :=
  let slot := CoreSlot.interactive state
  match context.anchors.get? slot with
  | none => {}
  | some anchor =>
      let name := surface.layer.element context.mode ["interactive", state.text, "tone"]
      let origin := (Origin.ofInputs [slot.property context.mode]).against surface.backdrop.name
      let (step, tone) := context.foreground name anchor surface.backdrop false origin
      match step with
      | none => tone
      | some step => tone ++ context.interactiveOnTone surface state name anchor step

/-- The text of a status color. -/
def status (context : LayerContext) (surface : Surface) (color : CoreColor) : Emission :=
  let slot := CoreSlot.plain color
  match context.anchors.get? slot with
  | none => {}
  | some anchor =>
      let name := surface.layer.element context.mode [color.text, "text"]
      let origin := (Origin.ofInputs [slot.property context.mode]).against surface.backdrop.name
      (context.foreground name anchor surface.backdrop true origin).2

/-- Everything that stands on a surface. -/
def elements (context : LayerContext) (surface : Surface) : Emission :=
  context.text surface ++
    .join (InteractiveState.all.map (context.interactive surface)) ++
    .join (CoreColor.status.map (context.status surface))

/-- A layer: its surface and what stands on it. -/
def layer (context : LayerContext) (layer : LayerId) : Option Surface × Emission :=
  match context.surface layer with
  | (none, emission) => (none, emission)
  | (some surface, emission) => (some surface, emission ++ context.elements surface)

/-- Every layer of the mode. -/
def resolve (context : LayerContext) : List Surface × Emission :=
  let found := (layerIds context.resolver.theme context.mode).map context.layer
  (found.filterMap (·.1), .join (found.map (·.2)))

end LayerContext

end Legible
