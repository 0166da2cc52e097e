import Legible.Watch.Watcher

/-!
# Validating what is live

A validation reports what the computation knows and what is live. If there are
errors that may be tried, and the guard allows it, one fix pass writes the failing
properties and their backgrounds again as they were computed. An error that is still
there afterwards is given up.
-/

namespace Legible

open Property

/-- What a validation found and fixed. -/
structure ValidationOutcome where
  report : Report := .empty
  /-- The properties whose errors the fix pass cleared. -/
  fixed : List Name := []
  /-- The properties whose errors are still there after the fix pass. -/
  gaveUp : List Name := []
  /-- Whether there were errors to be tried but no fix pass could begin. -/
  isFixSkipped : Bool := false

namespace Watcher

/-- The properties that a fix pass writes for some issues: their own and the
backgrounds they have to be legible on. -/
def fixTargets (map : PropertyMap) (issues : List Issue) : Std.TreeSet Name :=
  Std.TreeSet.ofList <| issues.flatMap fun issue =>
    let name := Name.ofText issue.locus
    name :: (map.background? name).toList

/-- Writes the targets of some issues, and sorts the issues by whether they are still
there. -/
def runFix (watcher : Watcher) (issues : List Issue) :
    Watcher × List Issue × List Issue :=
  let map := watcher.current.map
  let targets := (fixTargets map issues).toList
  let writes := targets.filterMap fun name => (map.value? name).map fun value => (name, value)
  let store := (watcher.store.applyValues writes watcher.configuration.index).1
  let remaining :=
    ((watcher.current.liveIssues store.registry).filter Issue.isError).map Issue.fingerprint
  let (survivors, fixed) := issues.partition fun issue => remaining.contains issue.fingerprint
  let written := { watcher with
    store
    guard := survivors.foldl FixGuard.giveUp watcher.guard }.forwardEvents
  ({ written with interest := written.interest.remember written.registry targets },
    fixed, survivors)

/-- Validates the live registry, and tries once to fix what is wrong. -/
def validate (watcher : Watcher) (now : Nat) : Watcher × ValidationOutcome :=
  let live := watcher.current.liveIssues watcher.registry
  let fixable := live.filter fun issue => issue.isError && watcher.guard.isFixable issue
  let report := watcher.current.report.extend live
  if fixable.isEmpty then (watcher, { report })
  else
    match watcher.isEnabled, watcher.guard.begin? now with
    | true, some guard =>
        let (watcher, fixed, survivors) := { watcher with guard }.runFix fixable
        (watcher,
          { report
            fixed := fixed.map fun issue => Name.ofText issue.locus
            gaveUp := survivors.map fun issue => Name.ofText issue.locus })
    | _, _ => (watcher, { report, isFixSkipped := true })

/-- Writes the whole map, and takes what is live then as seen. -/
def writeMap (watcher : Watcher) : Watcher × BatchReport :=
  let map := watcher.current.map
  let (store, batch) := watcher.store.apply map watcher.configuration.index
  let written := { watcher with store }.forwardEvents
  ({ written with
      isAttached := true
      interest := (written.interest.record map written.registry).remember written.registry
        map.names },
    batch)

/-- Writes the whole map, and validates it the first time. -/
def attach (watcher : Watcher) (now : Nat) : Watcher × ValidationOutcome :=
  let (seen, batch) := watcher.writeMap
  if watcher.isAttached then (seen, { report := Report.empty.extend batch.issues })
  else
    let (watcher, outcome) := seen.validate now
    (watcher, { outcome with report := outcome.report.extend batch.issues })

end Watcher

end Legible
