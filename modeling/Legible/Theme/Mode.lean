import Legible.Text.Quoted

/-!
# Color schemes and brand subsystems

A theme binds its colors once for each mode. Brand properties are grouped by
subsystem.
-/

namespace Legible

/-- A color scheme. -/
inductive Mode where
  | light
  | dark
  deriving DecidableEq, Repr

namespace Mode

/-- Both modes, light first. -/
def all : List Mode := [.light, .dark]

/-- The written form of a mode. -/
def text : Mode → String
  | .light => "light"
  | .dark => "dark"

/-- The mode with a written form. -/
def read? (text : String) : Option Mode :=
  all.find? fun mode => mode.text == text

/-- What is said about a text that names no mode. -/
def unknownMessage (text : String) : String :=
  "unknown mode " ++ Text.quote text

/-- Whether a mode comes before the other. -/
def rank : Mode → Nat
  | .light => 0
  | .dark => 1

instance : Ord Mode := ⟨compareOn rank⟩

instance : Std.TransOrd Mode := inferInstanceAs (Std.TransCmp (compareOn rank))

instance : Std.LawfulEqOrd Mode where
  eq_of_compare {left right} equal := by
    revert equal
    cases left <;> cases right <;> decide

/-- Reading a written mode gives it back. -/
@[simp] theorem read?_text (mode : Mode) : read? mode.text = some mode := by
  cases mode <;> decide

end Mode

/-- A group of brand properties. -/
inductive Subsystem where
  | palettes
  | core
  | layer
  | elevations
  | typography
  | dimensions
  deriving DecidableEq, Repr

namespace Subsystem

/-- Every subsystem. -/
def all : List Subsystem := [.palettes, .core, .layer, .elevations, .typography, .dimensions]

/-- The subsystems whose bindings are copied through as they are. -/
def copied : List Subsystem := [.elevations, .typography, .dimensions]

/-- The written form of a subsystem. -/
def text : Subsystem → String
  | .palettes => "palettes"
  | .core => "core"
  | .layer => "layer"
  | .elevations => "elevations"
  | .typography => "typography"
  | .dimensions => "dimensions"

/-- The subsystem with a written form. -/
def read? (text : String) : Option Subsystem :=
  all.find? fun subsystem => subsystem.text == text

/-- Reading a written subsystem gives it back. -/
@[simp] theorem read?_text (subsystem : Subsystem) : read? subsystem.text = some subsystem := by
  cases subsystem <;> decide

end Subsystem

end Legible
