import Std.Data.TreeMap
import Legible.Property.Name

/-!
# The registry of live properties

The registry is the table of properties that is being rendered: one text for each
name that is set. It counts how often each name was set.
-/

namespace Legible

open Property

/-- The texts of the live properties, and how often each name was set. -/
structure Registry where
  texts : Std.TreeMap Name String
  writes : Std.TreeMap Name Nat

namespace Registry

/-- The registry without properties. -/
def empty : Registry := ⟨∅, ∅⟩

/-- The text of a property. -/
def get? (registry : Registry) (name : Name) : Option String := registry.texts[name]?

/-- Sets a property. -/
def set (registry : Registry) (name : Name) (text : String) : Registry :=
  ⟨registry.texts.insert name text,
    registry.writes.insert name (registry.writes.getD name 0 + 1)⟩

/-- The registry with some properties set in order. -/
def ofList (properties : List (Name × String)) : Registry :=
  properties.foldl (fun registry (name, text) => registry.set name text) empty

/-- Unsets a property. -/
def erase (registry : Registry) (name : Name) : Registry :=
  { registry with texts := registry.texts.erase name }

/-- Unsets every property. -/
def clear (registry : Registry) : Registry := { registry with texts := ∅ }

/-- Whether a property is set. -/
def contains (registry : Registry) (name : Name) : Bool := registry.texts.contains name

/-- The names that are set, in order. -/
def names (registry : Registry) : List Name := registry.texts.keys

/-- The names that are set with their texts, in order. -/
def toList (registry : Registry) : List (Name × String) := registry.texts.toList

/-- How many properties are set. -/
def size (registry : Registry) : Nat := registry.texts.size

/-- How often a name was set. -/
def writeCount (registry : Registry) (name : Name) : Nat := registry.writes.getD name 0

/-- How often any name was set. -/
def totalWrites (registry : Registry) : Nat := registry.writes.values.foldl (· + ·) 0

/-- Forgets how often names were set. -/
def resetCounts (registry : Registry) : Registry := { registry with writes := ∅ }

/-- All properties as one style rule for the root. -/
def stylesheet (registry : Registry) : String :=
  ":root \x7b\n" ++
    String.join (registry.toList.map fun (name, text) =>
      "  " ++ name.text ++ ": " ++ text ++ ";\n") ++ "\x7d\n"

/-- A property that was set reads back. -/
@[simp] theorem get?_set_self (registry : Registry) (name : Name) (text : String) :
    (registry.set name text).get? name = some text := by
  simp [get?, set]

/-- Setting a property leaves the others alone. -/
theorem get?_set_of_ne (registry : Registry) {name other : Name} (text : String)
    (different : name ≠ other) : (registry.set name text).get? other = registry.get? other := by
  simp [get?, set, Std.TreeMap.getElem?_insert, different]

/-- A property that was unset is gone. -/
@[simp] theorem get?_erase_self (registry : Registry) (name : Name) :
    (registry.erase name).get? name = none := by
  simp [get?, erase]

/-- Unsetting a property leaves the others alone. -/
theorem get?_erase_of_ne (registry : Registry) {name other : Name} (different : name ≠ other) :
    (registry.erase name).get? other = registry.get? other := by
  simp [get?, erase, Std.TreeMap.getElem?_erase, different]

end Registry

end Legible
