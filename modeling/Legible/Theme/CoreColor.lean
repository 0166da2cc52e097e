import Legible.Property.Name

/-!
# Core colors

Every mode binds a fixed set of semantic colors. The interactive color has one
binding for each of its states.
-/

namespace Legible

/-- A semantic color. -/
inductive CoreColor where
  | black
  | white
  | alert
  | warning
  | success
  | interactive
  deriving DecidableEq, Repr

namespace CoreColor

/-- Every core color. -/
def all : List CoreColor := [.black, .white, .alert, .warning, .success, .interactive]

/-- The colors that give every layer a status text. -/
def status : List CoreColor := [.alert, .warning, .success]

/-- The written form of a core color. -/
def text : CoreColor → String
  | .black => "black"
  | .white => "white"
  | .alert => "alert"
  | .warning => "warning"
  | .success => "success"
  | .interactive => "interactive"

/-- The core color with a written form. -/
def read? (text : String) : Option CoreColor :=
  all.find? fun color => color.text == text

/-- Reading a written core color gives it back. -/
@[simp] theorem read?_text (color : CoreColor) : read? color.text = some color := by
  cases color <;> decide

end CoreColor

/-- A state of the interactive color. -/
inductive InteractiveState where
  | default
  | hover
  deriving DecidableEq, Repr

namespace InteractiveState

/-- Both states. -/
def all : List InteractiveState := [.default, .hover]

/-- The written form of a state. -/
def text : InteractiveState → String
  | .default => "default"
  | .hover => "hover"

/-- The state with a written form. -/
def read? (text : String) : Option InteractiveState :=
  all.find? fun state => state.text == text

/-- Reading a written state gives it back. -/
@[simp] theorem read?_text (state : InteractiveState) : read? state.text = some state := by
  cases state <;> decide

end InteractiveState

/-- A place where a theme binds a core color. -/
structure CoreSlot where
  color : CoreColor
  state : Option InteractiveState
  deriving DecidableEq, Repr

namespace CoreSlot

/-- The slot of a core color without states. -/
def plain (color : CoreColor) : CoreSlot := ⟨color, none⟩

/-- The slot of a state of the interactive color. -/
def interactive (state : InteractiveState) : CoreSlot := ⟨.interactive, some state⟩

/-- The slot of the black anchor. -/
def black : CoreSlot := plain .black

/-- The slot of the white anchor. -/
def white : CoreSlot := plain .white

/-- Every slot that a theme binds. -/
def all : List CoreSlot :=
  [black, white, plain .alert, plain .warning, plain .success,
    interactive .default, interactive .hover]

/-- The color and the state of a slot, as path segments. -/
def segments (slot : CoreSlot) : List String :=
  slot.color.text :: (slot.state.map InteractiveState.text).toList

/-- The path of the binding in a theme document. -/
def documentPath (slot : CoreSlot) (mode : Mode) : List String :=
  ["themes", mode.text, "core-colors"] ++ slot.segments

/-- The brand property of a slot. -/
def property (slot : CoreSlot) (mode : Mode) : Property.Name :=
  Property.Name.brand mode .core slot.segments

/-- The slot as messages name it. -/
def label (slot : CoreSlot) : String :=
  String.intercalate "." slot.segments

end CoreSlot

end Legible
