import Legible.Live.Inspection
import Legible.Live.Store
import Legible.Watch.FixGuard
import Legible.Watch.Graph
import Legible.Watch.Interest
import Legible.Watch.Pending

/-!
# The watcher

The watcher owns a configuration, the store, and the computation that the registry
was last brought in line with. Changes to the documents and reports of live changes
are only noted here; a flush works them off.
-/

namespace Legible

open Property

/-- A palette of a mode. -/
structure PaletteId where
  mode : Mode
  key : String
  deriving DecidableEq, Repr

namespace PaletteId

instance : Ord PaletteId := ⟨compareLex (compareOn mode) (compareOn key)⟩

instance : Std.TransOrd PaletteId :=
  inferInstanceAs (Std.TransCmp (compareLex (compareOn mode) (compareOn key)))

end PaletteId

/-- The state of a watcher. -/
structure Watcher where
  configuration : Configuration
  store : Store
  current : Computation
  /-- The dependencies of the current map. -/
  graph : DependencyGraph
  interest : Interest
  pending : Pending
  /-- The live properties that were reported changed since the last flush. -/
  liveRoots : Std.TreeSet Name
  /-- The palettes that were set since the last flush. -/
  changedPalettes : Std.TreeSet PaletteId
  /-- The events that nobody has taken yet. -/
  outbox : List Event
  guard : FixGuard
  isEnabled : Bool
  /-- Whether the map has been applied once. -/
  isAttached : Bool

namespace Watcher

/-- A watcher over a registry. Nothing is written yet. -/
def start (configuration : Configuration) (registry : Registry) : Watcher :=
  let current := configuration.compute
  { configuration
    store := .ofRegistry registry
    current
    graph := .ofMap current.map
    interest := .empty
    pending := .empty
    liveRoots := ∅
    changedPalettes := ∅
    outbox := []
    guard := .ofCooldown configuration.options.fixCooldown
    isEnabled := true
    isAttached := false }

/-- The live registry. -/
def registry (watcher : Watcher) : Registry := watcher.store.registry

/-- Stops processing; changes are still noted. -/
def disable (watcher : Watcher) : Watcher := { watcher with isEnabled := false }

/-- Resumes processing. -/
def enable (watcher : Watcher) : Watcher := { watcher with isEnabled := true }

/-- Whether a pass is in progress. A pass is one operation, so none ever is between
two of them. -/
def isUpdating (_ : Watcher) : Bool := false

/-- Whether a fix pass is still cooling down. -/
def isFixing (watcher : Watcher) (now : Nat) : Bool := watcher.guard.isFixing now

/-- Hands out the collected events. -/
def takeEvents (watcher : Watcher) : Watcher × List Event :=
  ({ watcher with outbox := [] }, watcher.outbox)

/-- Puts an event into the outbox. -/
def announce (watcher : Watcher) (kind : EventKind) (names : List Name) : Watcher :=
  { watcher with outbox := watcher.outbox ++ [⟨kind, names⟩] }

/-- Moves the events of the store into the outbox. -/
def forwardEvents (watcher : Watcher) : Watcher :=
  let (store, events) := watcher.store.takeEvents
  { watcher with store, outbox := watcher.outbox ++ events }

/-- Notes a change. -/
def note (watcher : Watcher) (change : Change) : Watcher :=
  { watcher with pending := watcher.pending.insert change }

/-! ## Watching -/

/-- Watches a target, with the live texts of now as the baseline. -/
def watch (watcher : Watcher) (target : WatchTarget) : Watcher :=
  let names := target.expand watcher.current.map
  let interest := watcher.interest.remember watcher.registry names
  { watcher with interest := (interest.insert target).1 }

/-- Stops watching a target; also says whether it was watched. -/
def unwatch (watcher : Watcher) (target : WatchTarget) : Watcher × Bool :=
  let (interest, found) := watcher.interest.erase target
  ({ watcher with interest }, found)

/-! ## Changes to the documents -/

/-- Where a token stands in a token document: the leaf whose path gives its key, or
the place where a new leaf goes. -/
def tokenDocumentPath (tokens : Document) (path : Token.Path) : List String :=
  if path.isColor then path.segments
  else
    let leaf := (tokens.leaves [path.category]).find? fun leaf =>
      (Token.leafPath path.category leaf).key == path.key
    (leaf.map Document.Leaf.path).getD [path.category, path.key]

/-- Sets the value of a token. A color may be addressed by the alias of its ramp. -/
def setToken (watcher : Watcher) (path : Token.Path) (value : Json) : Watcher :=
  let path := (watcher.configuration.index.canonicalize? path).getD path
  let tokens := watcher.configuration.tokens
  let changed := tokens.setLeaf (tokenDocumentPath tokens path) value
  ({ watcher with configuration := watcher.configuration.withTokens changed }.note .tokens).announce
    .tokenChanged [Name.ofToken path]

/-- Replaces the theme document. -/
def replaceTheme (watcher : Watcher) (theme : Document) : Watcher :=
  { watcher with configuration := watcher.configuration.withTheme theme }.note .theme

/-- Sets the value of a theme leaf to a reference. -/
def setThemeLeaf (watcher : Watcher) (path : List String) (reference : String) : Watcher :=
  watcher.replaceTheme (watcher.configuration.theme.setLeaf path (.text reference))

/-- Binds a palette to a ramp, with a primary level or without one. -/
def setPalette (watcher : Watcher) (mode : Mode) (key ramp : String)
    (primary : Option Token.Level) : Watcher :=
  let node : Json := .object
    (("$value", .text (Reference.ramp ramp).text) ::
      (primary.map fun level => ("$primary", Json.text level.text)).toList)
  let theme := watcher.configuration.theme.setNode (Resolver.palettePath mode key) node
  { watcher.replaceTheme theme with
    changedPalettes := watcher.changedPalettes.insert ⟨mode, key⟩ }

/-- The tones and on-tones of a palette in the current map. -/
def paletteNames (watcher : Watcher) (mode : Mode) (key : String) : List Name :=
  watcher.current.map.names.flatMap fun name =>
    match watcher.current.map.binding? name with
    | some (.tone mode' key' level) =>
        if mode' = mode ∧ key' = key then [name, Palette.onToneProperty mode key level] else []
    | _ => []

/-- Deletes a palette; also says whether it was there. -/
def deletePalette (watcher : Watcher) (mode : Mode) (key : String) : Watcher × Bool :=
  match watcher.configuration.theme.remove? (Resolver.palettePath mode key) with
  | none => (watcher, false)
  | some (_, theme) =>
      let changed :=
        { watcher.replaceTheme theme with
          changedPalettes := watcher.changedPalettes.erase ⟨mode, key⟩ }
      (changed.announce .paletteDeleted (watcher.paletteNames mode key), true)

/-- Binds a core color. -/
def setCoreColor (watcher : Watcher) (mode : Mode) (slot : CoreSlot) (reference : String) :
    Watcher :=
  watcher.setThemeLeaf (slot.documentPath mode) reference

/-- Binds the surface of a layer. -/
def setLayerSurface (watcher : Watcher) (mode : Mode) (layer : LayerId) (reference : String) :
    Watcher :=
  watcher.setThemeLeaf (layer.surfacePath mode) reference

/-- Replaces the token document. -/
def replaceTokens (watcher : Watcher) (tokens : Document) : Watcher :=
  { watcher with configuration := watcher.configuration.withTokens tokens }.note .tokens

/-- Replaces the document of component bindings. -/
def replaceUiKit (watcher : Watcher) (uiKit : Document) : Watcher :=
  { watcher with configuration := watcher.configuration.withUiKit uiKit }.note .uiKit

/-- Replaces the options. -/
def setOptions (watcher : Watcher) (options : Options) : Watcher :=
  { watcher with
    guard := watcher.guard.withCooldown options.fixCooldown
    configuration := watcher.configuration.withOptions options }.note .options

/-! ## Live changes -/

/-- Takes in that live properties were changed by someone else. -/
def notify (watcher : Watcher) (event : Event) : Watcher :=
  { watcher with liveRoots := watcher.liveRoots.insertMany event.names }.note .live

/-- Sets a live property as a user would, through validation. -/
def writeLive (watcher : Watcher) (name : Name) (text : String) :
    Except WriteError (Watcher × Verdict) :=
  match watcher.store.write name text watcher.configuration.index with
  | .error error => .error error
  | .ok (store, verdict) =>
      let written := { watcher with store }.forwardEvents
      .ok ({ written with liveRoots := written.liveRoots.insert name }.note .live, verdict)

end Watcher

end Legible
