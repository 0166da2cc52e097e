import Legible.Theme.Configuration
import Legible.Theme.Layer

/-!
# Computing the property map

The map is computed tier by tier. Every token of the index gives a literal. Each
mode of the theme gives its anchors, its palettes, the bindings that are copied
through, and its layers. Component bindings come last and point at what is there.
The computation depends on the configuration alone.
-/

namespace Legible

open Property

/-- The outcome of a computation. -/
structure Computation where
  map : PropertyMap
  issues : List Issue
  /-- The anchors of each mode. -/
  anchors : List (Mode × Anchors)

namespace Computation

/-- The issues of a computation as a report. -/
def report (computation : Computation) : Report := ⟨computation.issues⟩

/-- The anchors of a mode. -/
def anchors? (computation : Computation) (mode : Mode) : Option Anchors :=
  computation.anchors.lookup mode

end Computation

namespace Configuration

/-- The properties of all tokens, and the tokens that were left out. -/
def tokenEmission (index : Token.Index) : Emission :=
  { entries := index.tokens.map fun (path, value) =>
      (Name.ofToken path, { value := .literal value.literal, binding := some (.token path) })
    issues := index.rejected.map fun rejection =>
      Issue.warning .invalidToken rejection.path rejection.refusal.message }

/-- The property of a binding that is copied through. -/
def copiedLeaf (resolver : Resolver) (subsystem : Subsystem) (leaf : Document.Leaf) : Emission :=
  let issue (message : String) : Emission :=
    .ofIssues [Issue.warning .reference (String.intercalate "." leaf.path) message]
  match leaf.value.text? with
  | none => issue "brand bindings must be references, not literals"
  | some text =>
      match resolver.resolveToken (Reference.read text) with
      | .ok token =>
          let target := Name.ofToken token
          .entry (Name.brand resolver.mode subsystem (leaf.path.drop 3))
            { value := .reference target
              origin := some (.ofInputs [target])
              binding := some (.theme leaf.path) }
      | .error error => issue error.message

/-- The properties of the bindings of a subsystem that are copied through. -/
def copiedEmission (resolver : Resolver) (subsystem : Subsystem) : Emission :=
  .join <| (resolver.theme.leaves ["themes", resolver.mode.text, subsystem.text]).map
    (copiedLeaf resolver subsystem)

/-- The anchors of a mode with everything the mode gives. -/
def modeEmission (configuration : Configuration) (mode : Mode) : Anchors × Emission :=
  let resolver := configuration.resolver mode
  let (anchors, anchorIssues) := Anchors.resolve resolver
  let (palettes, paletteEmission) := Palette.resolveAll resolver anchors
  let copied := Emission.join (Subsystem.copied.map (copiedEmission resolver))
  let (emphasis, emphasisIssues) :=
    Emphasis.resolve resolver configuration.options.textEmphasis
  let (_, layers) := LayerContext.resolve { resolver, anchors, palettes, emphasis }
  (anchors,
    .ofIssues anchorIssues ++ anchors.emission ++ paletteEmission ++ copied ++
      .ofIssues emphasisIssues ++ layers)

/-- The property that a component binding points at, or what is said about it. -/
def componentTarget (configuration : Configuration) (map : PropertyMap) :
    Reference → Except String Name
  | .property subsystem path =>
      let target := Name.brand configuration.options.uiKitMode subsystem path
      if map.contains target then .ok target else .error ("no brand property " ++ target.text)
  | .ramp name => .error ((Reference.ramp name).text ++ " names a whole ramp")
  | .unrecognized text => .error (ReferenceError.unrecognized text).message
  | reference =>
      match (configuration.resolver configuration.options.uiKitMode).resolveToken reference with
      | .ok token => .ok (Name.ofToken token)
      | .error error => .error error.message

/-- The property of a component binding. -/
def componentLeaf (configuration : Configuration) (map : PropertyMap) (leaf : Document.Leaf) :
    Emission :=
  let reference := Reference.read (leaf.value.text?.getD "")
  match configuration.componentTarget map reference with
  | .ok target =>
      .entry (Name.ui leaf.path)
        { value := .reference target, origin := some (.ofInputs [target]) }
  | .error failure =>
      .ofIssues
        [Issue.warning .reference ("ui-kit." ++ String.intercalate "." leaf.path) failure]

/-- The properties of all component bindings. -/
def componentEmission (configuration : Configuration) (map : PropertyMap) : Emission :=
  .join <| (configuration.uiKit.leaves []).map (configuration.componentLeaf map)

/-- Computes all output properties. -/
def compute (configuration : Configuration) : Computation :=
  let modes := configuration.modes.map fun mode => (mode, configuration.modeEmission mode)
  let bound :=
    tokenEmission configuration.index ++ .join (modes.map fun (_, _, emission) => emission)
  let map := PropertyMap.ofList bound.entries
  let components := configuration.componentEmission map
  { map := map.addAll components.entries
    issues := bound.issues ++ components.issues
    anchors := modes.map fun (mode, anchors, _) => (mode, anchors) }

end Configuration

end Legible
