import Legible.Property.Name

/-!
# Change events

An event says which properties changed and in what way. It carries names only; who
wants the values reads them from the registry.
-/

namespace Legible

/-- In what way properties changed. -/
inductive EventKind where
  /-- The token behind a property changed. -/
  | tokenChanged
  /-- The ramp of a palette changed. -/
  | paletteChanged
  /-- A palette was deleted. -/
  | paletteDeleted
  /-- Live properties were set or unset. -/
  | propertiesUpdated
  deriving DecidableEq, Repr

namespace EventKind

/-- Every kind. -/
def all : List EventKind := [.tokenChanged, .paletteChanged, .paletteDeleted, .propertiesUpdated]

/-- The written form of a kind. -/
def text : EventKind → String
  | .tokenChanged => "token-changed"
  | .paletteChanged => "palette-changed"
  | .paletteDeleted => "palette-deleted"
  | .propertiesUpdated => "properties-updated"

/-- The kind with a written form. -/
def read? (text : String) : Option EventKind := all.find? fun kind => kind.text == text

end EventKind

/-- Which properties changed, and in what way. -/
structure Event where
  kind : EventKind
  names : List Property.Name
  deriving DecidableEq, Repr

namespace Event

/-- The event of live properties that were set or unset; nothing happened when there
are none. -/
def updated (names : List Property.Name) : List Event :=
  if names.isEmpty then [] else [⟨.propertiesUpdated, names⟩]

/-- The event as messages name it. -/
def text (event : Event) : String :=
  event.kind.text ++ " (" ++ toString event.names.length ++ " properties)"

end Event

end Legible
