import Legible.Issue
import Legible.Property.Map

/-!
# What a part of a theme gives

Each part of a theme gives entries for the property map and issues, both in order.
Parts are put together by joining their lists.
-/

namespace Legible

/-- Entries for the property map, and issues. -/
structure Emission where
  entries : List (Property.Name × Property.Entry) := []
  issues : List Issue := []

namespace Emission

/-- An emission of one entry. -/
def entry (name : Property.Name) (entry : Property.Entry) : Emission :=
  { entries := [(name, entry)] }

/-- An emission of some issues. -/
def ofIssues (issues : List Issue) : Emission := { issues }

instance : Append Emission :=
  ⟨fun first second => ⟨first.entries ++ second.entries, first.issues ++ second.issues⟩⟩

/-- Emissions put together in order. -/
def join (emissions : List Emission) : Emission :=
  ⟨emissions.flatMap Emission.entries, emissions.flatMap Emission.issues⟩

@[simp] theorem entries_append (first second : Emission) :
    (first ++ second).entries = first.entries ++ second.entries := rfl

@[simp] theorem issues_append (first second : Emission) :
    (first ++ second).issues = first.issues ++ second.issues := rfl

end Emission

end Legible
