import Legible.Watch.Watcher

/-!
# Flushing

A flush works off everything that was noted, in one pass.

1. A live change of a bound property is folded back into the document it is bound
   in, if the live text can be read as a value of that place. Otherwise the property
   will be written again.
2. The map is computed again if a document or the options changed.
3. What changed in the map or live affects everything derived from it, before or now.
4. A palette tone that was changed live stays, and its on-tone is chosen again for
   the color that is shown.
5. Affected properties that left the map are unset. The others are written, except
   those that hold something else than what was generated before and is generated
   now: without a background they stay, with one they stay while they are legible.
-/

namespace Legible

open Property

/-- What a flush did. -/
structure FlushReport where
  /-- Whether the map was computed again. -/
  recomputed : Bool := false
  written : List Name := []
  removed : List Name := []
  /-- Live changes that were folded back into a document. -/
  adopted : List Name := []
  /-- Live changes that were left in place. -/
  kept : List Name := []
  /-- Live changes that were not legible and were written over. -/
  replaced : List Name := []
  issues : List Issue := []
  deriving DecidableEq, Repr

/-- Whether a flush left everything alone. -/
def FlushReport.isEmpty (report : FlushReport) : Bool :=
  report.written.isEmpty && report.removed.isEmpty && report.kept.isEmpty &&
    report.replaced.isEmpty

/-- A palette tone that was changed live. -/
structure ToneOverride where
  tone : Name
  mode : Mode
  key : String
  level : Option Token.Level
  deriving DecidableEq, Repr

/-- The outcome of folding live changes back. -/
structure Adoption where
  watcher : Watcher
  adopted : List Name := []
  /-- The properties that are to be written whatever they hold. -/
  forced : List Name := []
  tones : List ToneOverride := []

namespace Watcher

/-! ## Folding live changes back -/

/-- Whether the live text of a property is another one than was seen last, or than
was generated when it was never looked at. -/
def liveDiffers (watcher : Watcher) (name : Name) : Bool :=
  let live := watcher.store.get? name
  match watcher.interest.baseline? name with
  | some last => live != last
  | none => live != (watcher.current.map.value? name).map Value.render

/-- The document value that a live text spells for a token which holds a value of
this kind. -/
def adoptedValue? (held : Token.Value) (text : String) : Option Json :=
  match held with
  | .color _ => (Color.read? text).map fun color => .text color.hex
  | .dimension _ => (Token.pixels? text).map Json.ofFloat
  | .number _ => (Numeric.Decimal.read? text.toList).map Json.ofFloat
  | .text _ => some (.text text)

/-- Folds the live text of a token's property into the token document. -/
def adoptToken? (watcher : Watcher) (name : Name) (path : Token.Path) : Option Watcher := do
  let text ← watcher.store.get? name
  let held ← watcher.configuration.index.get? path
  let value ← adoptedValue? held (Text.trim text)
  pure (watcher.setToken path value)

/-- Folds a live reference to a token into the theme document. -/
def adoptTheme? (watcher : Watcher) (name : Name) (path : List String) : Option Watcher :=
  match watcher.store.value? name with
  | some (.reference target) =>
      if target.tier = .tokens then
        (watcher.configuration.index.pathOf? target).map fun token =>
          watcher.setThemeLeaf path (Reference.token token).text
      else none
  | _ => none

/-- Folds one live change back. `bindings` is the map in which the property was
bound. -/
def adopt (bindings : PropertyMap) (adoption : Adoption) (name : Name) : Adoption :=
  let settle (changed : Option Watcher) : Adoption :=
    match changed with
    | some watcher => { adoption with watcher, adopted := adoption.adopted ++ [name] }
    | none => { adoption with forced := adoption.forced ++ [name] }
  match bindings.binding? name with
  | some (.token path) => settle (adoption.watcher.adoptToken? name path)
  | some (.theme path) => settle (adoption.watcher.adoptTheme? name path)
  | some (.tone mode key level) =>
      { adoption with tones := adoption.tones ++ [⟨name, mode, key, level⟩] }
  | none => adoption

/-- Folds a list of live changes back. -/
def adoptAll (watcher : Watcher) (changed : List Name) : Adoption :=
  changed.foldl (adopt watcher.current.map) { watcher }

end Watcher

/-- What is to become of the live palette tones. -/
structure TonePlan where
  /-- The on-tones that are chosen again. -/
  writes : List (Name × Value) := []
  kept : List Name := []
  /-- The tones that cannot be evaluated and are to be written again. -/
  forced : List Name := []
  issues : List Issue := []

namespace TonePlan

/-- The properties that are settled by the plan. -/
def handled (plan : TonePlan) : List Name := plan.writes.map (·.1) ++ plan.kept

/-- Decides about one live tone against what the registry shows. -/
def decide (registry : Registry) (next : Computation) (plan : TonePlan) (override : ToneOverride) :
    TonePlan :=
  let onTone := Palette.onToneProperty override.mode override.key override.level
  match registry.color override.tone, (next.anchors? override.mode).bind Anchors.contrasting? with
  | .ok color, some (black, white) =>
      let choice := OnTone.choose color black white
      let issues :=
        if choice.isLegible then []
        else
          [(Issue.warning .onTone onTone.text
            ("neither black nor white reaches AA on overridden " ++ override.tone.text)).withRatio
            choice.ratio.toFloat]
      { plan with
        writes := plan.writes ++ [(onTone, .reference choice.anchor.property)]
        kept := plan.kept ++ [override.tone]
        issues := plan.issues ++ issues }
  | _, _ => { plan with forced := plan.forced ++ [override.tone] }

/-- Decides about all live tones. -/
def ofOverrides (registry : Registry) (next : Computation) (overrides : List ToneOverride) :
    TonePlan :=
  overrides.foldl (decide registry next) {}

end TonePlan

/-- What is to become of an affected property. -/
inductive Action where
  | leave
  | unset
  | write (value : Value)
  /-- A live change without a background stays. -/
  | keep
  /-- A live change with a background stays while it is legible on it. -/
  | contest (background : Name) (generated : Value)
  deriving DecidableEq, Repr

/-- A live change that has to be legible on its background. -/
structure Contest where
  name : Name
  background : Name
  generated : Value
  deriving DecidableEq, Repr

namespace Watcher

/-- Whether a property holds something else than what was generated for it before
and is generated now. -/
def isOverride (watcher : Watcher) (name : Name) (next : Value) : Bool :=
  match watcher.store.get? name with
  | none => false
  | some live =>
      some live != (watcher.current.map.value? name).map Value.render && live != next.render

/-- What is to become of an affected property that no tone plan has settled. -/
def action (watcher : Watcher) (next : PropertyMap) (forced : List Name) (name : Name) : Action :=
  match next.value? name with
  | none => if watcher.current.map.contains name then .unset else .leave
  | some value =>
      if !forced.contains name && watcher.isOverride name value then
        match next.background? name with
        | some background => .contest background value
        | none => .keep
      else .write value

end Watcher

/-- The actions for all affected properties, each kind in order. -/
structure FlushPlan where
  unset : List Name
  kept : List Name
  writes : List (Name × Value)
  contests : List Contest

namespace FlushPlan

/-- Sorts the actions for a list of names. -/
def ofActions (actions : List (Name × Action)) : FlushPlan :=
  { unset := actions.filterMap fun (name, action) =>
      if action = .unset then some name else none
    kept := actions.filterMap fun (name, action) =>
      if action = .keep then some name else none
    writes := actions.filterMap fun (name, action) =>
      match action with
      | .write value => some (name, value)
      | _ => none
    contests := actions.filterMap fun (name, action) =>
      match action with
      | .contest background generated => some ⟨name, background, generated⟩
      | _ => none }

end FlushPlan

namespace Contest

/-- What is said about a live change that is written over because of an issue. -/
def reason (contest : Contest) (issue : Issue) : String :=
  if issue.kind = .contrast then "override below AA on " ++ contest.background.text
  else "override can't be evaluated (" ++ issue.message ++ ")"

/-- Judges one live change by what the registry shows by now: it stays, or it is
written over and reported. -/
def judge (next : PropertyMap) (index : Token.Index) (state : Store × FlushReport)
    (contest : Contest) : Store × FlushReport :=
  let (store, report) := state
  match Inspection.measurePair next store.registry contest.name contest.background with
  | none => (store, { report with kept := report.kept ++ [contest.name] })
  | some issue =>
      let (store, batch) := store.applyValues [(contest.name, contest.generated)] index
      let said : Issue :=
        { Issue.warning issue.kind contest.name.text
            (contest.reason issue ++ "; replaced with " ++ contest.generated.render) with
          ratio := issue.ratio }
      (store,
        { report with
          issues := report.issues ++ [said]
          written := report.written ++ batch.applied
          replaced := report.replaced ++ [contest.name] })

end Contest

/-- Unsets properties one by one; also says which of them were set. -/
def Store.unsetAll (store : Store) (names : List Name) : Store × List Name :=
  names.foldl
    (fun (store, removed) name =>
      let (store, wasSet) := store.remove name
      (store, if wasSet then removed ++ [name] else removed))
    (store, [])

/-- What a flush has settled before it writes anything. -/
structure FlushDecision where
  /-- The watcher with the live changes folded back into its documents. -/
  folded : Watcher
  adopted : List Name
  /-- The noted properties whose live text is another one than was seen last. -/
  changed : List Name
  recomputed : Bool
  next : Computation
  graph : DependencyGraph
  /-- Everything that has to be looked at again, in order. -/
  affected : List Name
  tones : TonePlan
  /-- The properties that are to be written whatever they hold. -/
  forced : List Name

namespace FlushDecision

/-- What is to become of each affected property that the tone plan has not settled. -/
def actions (decision : FlushDecision) : List (Name × Action) :=
  (decision.affected.filter fun name => !decision.tones.handled.contains name).map fun name =>
    (name, decision.folded.action decision.next.map decision.forced name)

/-- The actions, each kind in order. -/
def plan (decision : FlushDecision) : FlushPlan := .ofActions decision.actions

/-- Unsets and writes what was decided, then judges the contests one after another by
what the registry shows by then. -/
def carryOut (decision : FlushDecision) : Store × FlushReport :=
  let index := decision.folded.configuration.index
  let plan := decision.plan
  let (unset, removed) := decision.folded.store.unsetAll plan.unset
  let (applied, batch) := unset.applyValues (decision.tones.writes ++ plan.writes) index
  let report : FlushReport :=
    { recomputed := decision.recomputed
      written := batch.applied
      removed
      adopted := decision.adopted
      kept := decision.tones.kept ++ plan.kept
      issues := decision.tones.issues ++ batch.issues }
  plan.contests.foldl (Contest.judge decision.next.map index) (applied, report)

end FlushDecision

namespace Watcher

/-! ## The pass -/

/-- Announces the palettes that were set, now that their tones are there. -/
def announcePalettes (watcher : Watcher) : Watcher :=
  let announced := watcher.changedPalettes.toList.foldl
    (fun watcher palette =>
      watcher.announce .paletteChanged (watcher.current.map.tones palette.mode palette.key))
    watcher
  { announced with changedPalettes := ∅ }

/-- Takes over the new computation after a pass. -/
def settle (watcher : Watcher) (next : Computation) (graph : DependencyGraph)
    (recomputed : Bool) (seen : List Name) : Watcher :=
  let settled :=
    { watcher with
      current := next
      graph
      pending := .empty
      guard := if recomputed then watcher.guard.reset else watcher.guard }
  let announced := settled.announcePalettes.forwardEvents
  { announced with
    interest := (announced.interest.record next.map announced.registry).remember
      announced.registry seen }

/-- Folds the live changes back, computes the map again if that is asked for, and finds
everything affected. -/
def decideFlush (watcher : Watcher) : FlushDecision :=
  let changed := watcher.liveRoots.toList.filter watcher.liveDiffers
  let adoption := adoptAll { watcher with liveRoots := ∅ } changed
  let folded := adoption.watcher
  let recomputed := folded.pending.needsRecompute
  let next := if recomputed then folded.configuration.compute else folded.current
  let difference := folded.current.map.difference next.map
  let graph := DependencyGraph.ofMap next.map
  let affected :=
    ((folded.graph.union graph).affected
      (difference.changed ++ difference.removed ++ changed)).toList
  let tones := TonePlan.ofOverrides folded.registry next adoption.tones
  { folded, adopted := adoption.adopted, changed, recomputed, next, graph, affected, tones
    forced := adoption.forced ++ tones.forced }

/-- The pass of a flush. -/
def runFlush (watcher : Watcher) : Watcher × FlushReport :=
  let decision := watcher.decideFlush
  let (store, report) := decision.carryOut
  ({ decision.folded with store }.settle decision.next decision.graph decision.recomputed
      (decision.affected ++ decision.changed),
    report)

/-- Works off everything that was noted; nothing is done while disabled. -/
def flush (watcher : Watcher) : Watcher × Option FlushReport :=
  if !watcher.isEnabled then (watcher, none)
  else if watcher.pending.isEmpty then (watcher, some {})
  else
    let (watcher, report) := watcher.runFlush
    (watcher, some report)

/-- Looks for changes of watched properties, then flushes. -/
def check (watcher : Watcher) : Watcher × Option FlushReport :=
  if !watcher.isEnabled then (watcher, none)
  else
    let changed := watcher.interest.changed watcher.current.map watcher.registry
    if changed.isEmpty then watcher.flush
    else ({ watcher with liveRoots := watcher.liveRoots.insertMany changed }.note .live).flush

end Watcher

end Legible
