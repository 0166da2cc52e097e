import Std.Data.TreeMap
import Legible.Color.Basic
import Legible.Token.Path

/-!
# Color ramps

A ramp is a named family of colors at discrete levels, lightest first. It may have
an alias, under which it can be referred to as well, and a scale.
-/

namespace Legible

/-- A named family of colors in the order of their levels. -/
structure Ramp where
  name : String
  aliasName : Option String
  scale : Option String
  colors : Std.TreeMap Token.Level Color

namespace Ramp

open Token

/-- The ramp over a list of colors; of a repeated level the last color counts. -/
def ofList (name : String) (colors : List (Level × Color)) : Ramp :=
  ⟨name, none, none, colors.foldl (fun kept entry => kept.insert entry.1 entry.2) ∅⟩

/-- The scale of a ramp: its own, or else its name. -/
def scaleName (ramp : Ramp) : String := ramp.scale.getD ramp.name

/-- The color at a level. -/
def color? (ramp : Ramp) (level : Level) : Option Color := ramp.colors[level]?

/-- The levels of a ramp, lightest first. -/
def levels (ramp : Ramp) : List Level := ramp.colors.keys

/-- How many levels a ramp has. -/
def size (ramp : Ramp) : Nat := ramp.levels.length

/-- Where a level stands, counted from the lightest. -/
def position? (ramp : Ramp) (level : Level) : Option Nat :=
  ramp.levels.findIdx? (· == level)

/-- The level at a position counted from the lightest. -/
def levelAt? (ramp : Ramp) (position : Nat) : Option Level := ramp.levels[position]?

/-- The nearer of two levels to a third; of two equally near ones the first. -/
def nearer (target best next : Level) : Level :=
  if next.distance target < best.distance target then next else best

/-- The level of the ramp nearest to a level, the lighter one when two are. -/
def nearest? (ramp : Ramp) (target : Level) : Option Level :=
  match ramp.levels with
  | [] => none
  | first :: rest => some (rest.foldl (nearer target) first)

/-- The address of a level of the ramp. -/
def path (ramp : Ramp) (level : Level) : Path := Path.color ramp.name level

end Ramp

end Legible
