import Std.Data.TreeSet
import Legible.Property.Text
import Legible.Token.Path

/-!
# Property maps

A property map holds the values of all output properties, what each was derived
from, and where in the documents it comes from. Names are in order, so that equal
inputs give equal maps.
-/

namespace Legible.Property

/-- What a property was derived from. -/
structure Origin where
  inputs : Std.TreeSet Name
  /-- The property that a foreground has to be legible on. -/
  background : Option Name

namespace Origin

/-- The origin with some inputs and no background. -/
def ofInputs (inputs : List Name) : Origin := ⟨Std.TreeSet.ofList inputs, none⟩

/-- The origin with one more input. -/
def withInput (origin : Origin) (input : Name) : Origin :=
  { origin with inputs := origin.inputs.insert input }

/-- The origin with a background, which is an input as well. -/
def against (origin : Origin) (background : Name) : Origin :=
  ⟨origin.inputs.insert background, some background⟩

end Origin

/-- The place in the documents that a property is bound at. -/
inductive Binding where
  | token (path : Token.Path)
  /-- A leaf of the theme document. -/
  | theme (path : List String)
  /-- A tone of a palette; without a level its primary tone. -/
  | tone (mode : Mode) (key : String) (level : Option Token.Level)
  deriving DecidableEq, Repr

/-- What is known about a property. -/
structure Entry where
  value : Value
  origin : Option Origin := none
  binding : Option Binding := none

/-- All output properties by name. -/
structure PropertyMap where
  entries : Std.TreeMap Name Entry

namespace PropertyMap

/-- The map without properties. -/
def empty : PropertyMap := ⟨∅⟩

/-- Adds what is known about a property. The value replaces an earlier one; an
earlier origin or binding stays when the new entry has none. -/
def add (map : PropertyMap) (name : Name) (entry : Entry) : PropertyMap :=
  let earlier := map.entries[name]?
  ⟨map.entries.insert name
    { value := entry.value
      origin := entry.origin.orElse fun _ => earlier.bind Entry.origin
      binding := entry.binding.orElse fun _ => earlier.bind Entry.binding }⟩

/-- Adds a list of entries in order. -/
def addAll (map : PropertyMap) (entries : List (Name × Entry)) : PropertyMap :=
  entries.foldl (fun map entry => map.add entry.1 entry.2) map

/-- The map of a list of entries. -/
def ofList (entries : List (Name × Entry)) : PropertyMap := empty.addAll entries

/-- Everything in the order of names. -/
def toList (map : PropertyMap) : List (Name × Entry) := map.entries.toList

/-- The names in order. -/
def names (map : PropertyMap) : List Name := map.entries.keys

/-- How many properties there are. -/
def size (map : PropertyMap) : Nat := map.entries.size

/-- Whether a property is in the map. -/
def contains (map : PropertyMap) (name : Name) : Bool := map.entries.contains name

/-- The value of a property. -/
def value? (map : PropertyMap) (name : Name) : Option Value := map.entries[name]?.map Entry.value

/-- What a property was derived from. -/
def origin? (map : PropertyMap) (name : Name) : Option Origin :=
  map.entries[name]?.bind Entry.origin

/-- The background of a property. -/
def background? (map : PropertyMap) (name : Name) : Option Name :=
  (map.origin? name).bind Origin.background

/-- Where a property is bound. -/
def binding? (map : PropertyMap) (name : Name) : Option Binding :=
  map.entries[name]?.bind Entry.binding

/-- The values in the order of names. -/
def values (map : PropertyMap) : List (Name × Value) :=
  map.toList.map fun (name, entry) => (name, entry.value)

/-- The texts of the values in the order of names. -/
def rendered (map : PropertyMap) : List (Name × String) :=
  map.values.map fun (name, value) => (name, value.render)

/-- The derived properties with their origins. -/
def origins (map : PropertyMap) : List (Name × Origin) :=
  map.toList.filterMap fun (name, entry) => entry.origin.map fun origin => (name, origin)

/-- The foregrounds with their backgrounds. -/
def pairs (map : PropertyMap) : List (Name × Name) :=
  map.origins.filterMap fun (name, origin) =>
    origin.background.map fun background => (name, background)

/-- Brand and component properties that hold a literal. -/
def literalIndirections (map : PropertyMap) : List Name :=
  (map.values.filter fun (name, value) =>
    (name.tier == .brand || name.tier == .ui) && value.isLiteral).map (·.1)

/-- The names bound to a tone of a palette. -/
def tones (map : PropertyMap) (mode : Mode) (key : String) : List Name :=
  map.names.filter fun name =>
    match map.binding? name with
    | some (.tone mode' key' _) => mode' == mode && key' == key
    | _ => false

/-- What was added holds its value. -/
@[simp] theorem value?_add_self (map : PropertyMap) (name : Name) (entry : Entry) :
    (map.add name entry).value? name = some entry.value := by
  simp [add, value?]

/-- An addition leaves the values of other properties alone. -/
theorem value?_add_of_ne (map : PropertyMap) {name other : Name} (entry : Entry)
    (different : name ≠ other) : (map.add name entry).value? other = map.value? other := by
  simp [add, value?, Std.TreeMap.getElem?_insert, different]

/-- Adding in order means adding the first part and then the second. -/
theorem addAll_append (map : PropertyMap) (first second : List (Name × Entry)) :
    map.addAll (first ++ second) = (map.addAll first).addAll second := by
  simp [addAll, List.foldl_append]

/-- What changes from one map to another. -/
structure Difference where
  /-- New properties and properties with another value. -/
  changed : List Name
  /-- Properties that are gone. -/
  removed : List Name
  deriving DecidableEq, Repr

/-- Whether nothing changes. -/
def Difference.isEmpty (difference : Difference) : Bool :=
  difference.changed.isEmpty && difference.removed.isEmpty

/-- Whether a property has this value already. -/
def holds (map : PropertyMap) (name : Name) (value : Value) : Bool :=
  (map.value? name).any fun held => held.agrees value

/-- What changes from `previous` to `next`. -/
def difference (previous next : PropertyMap) : Difference :=
  { changed := (next.values.filter fun (name, value) => !previous.holds name value).map (·.1)
    removed := previous.names.filter fun name => !next.contains name }

end PropertyMap

end Legible.Property
