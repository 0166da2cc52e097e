import Std.Data.TreeSet
import Legible.Issue
import Legible.Live.Event
import Legible.Live.Registry
import Legible.Live.Validation
import Legible.Property.Map

/-!
# The property store

The store is the one that writes into the registry. Every property of a batch is
validated on its own: a refused one keeps what the registry held, and the others are
written all the same. The store knows which properties it wrote and has not removed,
and collects an event for each change.
-/

namespace Legible

open Property

/-- What a batch did. -/
structure BatchReport where
  /-- The properties that were set, repaired ones included. -/
  applied : List Name := []
  /-- The repaired properties with the texts that were replaced. -/
  repaired : List (Name × String) := []
  rejected : List WriteError := []
  /-- The properties that were unset. -/
  removed : List Name := []
  deriving DecidableEq, Repr

namespace BatchReport

/-- Whether nothing was repaired and nothing refused. -/
def isClean (report : BatchReport) : Bool := report.repaired.isEmpty && report.rejected.isEmpty

/-- Repairs as warnings, then refusals as errors. -/
def issues (report : BatchReport) : List Issue :=
  (report.repaired.map fun (name, replaced) =>
    Issue.warning .validation name.text
      ("literal " ++ Text.quote replaced ++ " replaced by a token reference")) ++
  (report.rejected.map fun error => Issue.error .validation error.name.text error.message)

end BatchReport

/-- The registry with what the store knows about it. -/
structure Store where
  registry : Registry
  /-- What the store has written and not removed since. -/
  managed : Std.TreeSet Name
  /-- The events that nobody has taken yet. -/
  events : List Event

namespace Store

/-- The store over a registry. -/
def ofRegistry (registry : Registry) : Store := ⟨registry, ∅, []⟩

/-- The live text of a property. -/
def get? (store : Store) (name : Name) : Option String := store.registry.get? name

/-- The live value of a property. -/
def value? (store : Store) (name : Name) : Option Value := (store.get? name).map Value.read

/-- The store with further events. -/
def emit (store : Store) (events : List Event) : Store :=
  { store with events := store.events ++ events }

/-- Sets a property. -/
def put (store : Store) (name : Name) (value : Value) : Store :=
  { store with
    registry := store.registry.set name value.render
    managed := store.managed.insert name }

/-- Unsets a property without an event. -/
def drop (store : Store) (name : Name) : Store :=
  { store with registry := store.registry.erase name, managed := store.managed.erase name }

/-- A property that was put holds the text of its value. -/
@[simp] theorem get?_put_self (store : Store) (name : Name) (value : Value) :
    (store.put name value).get? name = some value.render := by
  simp [get?, put]

/-- Putting a property leaves the others alone. -/
theorem get?_put_of_ne (store : Store) {name other : Name} (value : Value)
    (different : name ≠ other) : (store.put name value).get? other = store.get? other :=
  Registry.get?_set_of_ne store.registry value.render different

/-- A property that was dropped is not set. -/
@[simp] theorem get?_drop_self (store : Store) (name : Name) :
    (store.drop name).get? name = none := by
  simp [get?, drop]

/-- Dropping a property leaves the others alone. -/
theorem get?_drop_of_ne (store : Store) {name other : Name} (different : name ≠ other) :
    (store.drop name).get? other = store.get? other :=
  Registry.get?_erase_of_ne store.registry different

/-- Validates and sets one property of a batch. -/
def applyValue (index : Token.Index) (state : Store × BatchReport) (name : Name) (value : Value) :
    Store × BatchReport :=
  let (store, report) := state
  match validate name value index with
  | .error error => (store, { report with rejected := report.rejected ++ [error] })
  | .ok verdict =>
      (store.put name verdict.value,
        { report with
          applied := report.applied ++ [name]
          repaired := report.repaired ++
            (verdict.replaced?.map fun replaced => (name, replaced)).toList })

/-- Validates and sets a batch of properties. -/
def applyValues (store : Store) (values : List (Name × Value)) (index : Token.Index) :
    Store × BatchReport :=
  let (store, report) :=
    values.foldl (fun state (name, value) => applyValue index state name value) (store, {})
  (store.emit (Event.updated report.applied), report)

/-- Sets every property of a map. -/
def apply (store : Store) (map : PropertyMap) (index : Token.Index) : Store × BatchReport :=
  store.applyValues map.values index

/-- Sets what is new or other in the second map, and unsets what only the first has. -/
def applyDifference (store : Store) (previous next : PropertyMap) (index : Token.Index) :
    Store × BatchReport :=
  let difference := previous.difference next
  let changed := difference.changed.filterMap fun name =>
    (next.value? name).map fun value => (name, value)
  let (store, report) := store.applyValues changed index
  let removed := difference.removed.filter store.registry.contains
  ((difference.removed.foldl drop store).emit (Event.updated removed), { report with removed })

/-- Validates and sets a property from its text. -/
def write (store : Store) (name : Name) (text : String) (index : Token.Index) :
    Except WriteError (Store × Verdict) :=
  match validate name (Value.read text) index with
  | .error error => .error error
  | .ok verdict =>
      .ok ((store.put name verdict.value).emit (Event.updated [name]), verdict)

/-- Unsets a property; also says whether it was set. -/
def remove (store : Store) (name : Name) : Store × Bool :=
  if store.registry.contains name then ((store.drop name).emit (Event.updated [name]), true)
  else (store.drop name, false)

/-- Unsets every property that the store manages; also says how many were set. -/
def clear (store : Store) : Store × Nat :=
  let removed := store.managed.toList.filter store.registry.contains
  ((store.managed.toList.foldl drop store).emit (Event.updated removed), removed.length)

/-- Hands out the collected events. -/
def takeEvents (store : Store) : Store × List Event := ({ store with events := [] }, store.events)

end Store

end Legible
