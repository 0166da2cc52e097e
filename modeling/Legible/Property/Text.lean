import Legible.Numeric.Shortest
import Legible.Property.Value
import Legible.Text.Scan

/-!
# The text of property values

A reference is written `var(--name)`. A blend is written
`color-mix(in srgb, var(--a) calc(var(--w) * 100%), var(--b))`, or with a
percentage in place of `calc(…)`. Blanks are free where the grammar has room for
them. Every other text is a literal, and so is a blend whose percentage lies
outside the range from 0 to 100.
-/

namespace Legible.Property

namespace Weight

/-- The text of a weight. -/
def render : Weight → String
  | .property name => "calc(var(" ++ name.text ++ ") * 100%)"
  | .percent amount => Numeric.text amount ++ "%"

end Weight

namespace Value

/-- The text of a value. -/
def render : Value → String
  | .literal text => text
  | .reference target => "var(" ++ target.text ++ ")"
  | .blend foreground background weight =>
      "color-mix(in srgb, var(" ++ foreground.text ++ ") " ++ weight.render ++ ", var(" ++
        background.text ++ "))"

namespace Reader

open Text

/-- Reads a property name: two dashes and at least one name character. -/
def name? (characters : List Char) : Option (Name × List Char) :=
  let name := characters.takeWhile isNameCharacter
  let rest := characters.dropWhile isNameCharacter
  if "--".toList.isPrefixOf name && decide (2 < name.length) then
    some (⟨String.ofList name⟩, rest)
  else none

/-- Reads `var(…)`. -/
def access? (characters : List Char) : Option (Name × List Char) := do
  let opened ← expect? "var(" characters
  let (name, afterName) ← name? (dropBlank opened)
  let rest ← expect? ")" (dropBlank afterName)
  pure (name, rest)

/-- Reads the product of a property and `100%` inside `calc(…)`. -/
def scaled? (characters : List Char) : Option (Name × List Char) := do
  let opened ← expect? "calc(" characters
  let (name, afterName) ← access? (dropBlank opened)
  let afterSign ← expect? "*" (dropBlank afterName)
  let afterFactor ← expect? "100%" (dropBlank afterSign)
  let rest ← expect? ")" (dropBlank afterFactor)
  pure (name, rest)

/-- Whether characters are digits with at most one point, the last one a digit. -/
def isPercentage (characters : List Char) : Bool :=
  decide (characters.count '.' ≤ 1) && characters.getLast?.any Char.isDigit

/-- Reads a percentage. -/
def percentage? (characters : List Char) : Option (Float × List Char) := do
  let isPart (character : Char) : Bool := character.isDigit || character == '.'
  let written := characters.takeWhile isPart
  let rest ← expect? "%" (characters.dropWhile isPart)
  let amount ← Numeric.Decimal.read? written
  if isPercentage written then pure (amount, rest) else none

/-- Reads the weight of a blend. -/
def weight? (characters : List Char) : Option (Weight × List Char) :=
  match scaled? characters with
  | some (name, rest) => some (.property name, rest)
  | none => (percentage? characters).map fun (amount, rest) => (.percent amount, rest)

/-- Reads a comma with blanks around it. -/
def comma? (characters : List Char) : Option (List Char) :=
  (expect? "," (dropBlank characters)).map dropBlank

/-- Reads a blend that fills the whole text. -/
def blend? (characters : List Char) : Option Value := do
  let opened ← expect? "color-mix(" characters
  let afterIn ← expect? "in" (dropBlank opened)
  let space ← expectBlank? afterIn
  let afterSpace ← expect? "srgb" space
  let (foreground, afterForeground) ← access? (← comma? afterSpace)
  let (weight, afterWeight) ← weight? (← expectBlank? afterForeground)
  let (background, afterBackground) ← access? (← comma? afterWeight)
  let rest ← expect? ")" (dropBlank afterBackground)
  if rest.isEmpty then pure (.blend foreground background weight) else none

/-- Reads a reference that fills the whole text. -/
def reference? (characters : List Char) : Option Value := do
  let (target, rest) ← access? characters
  if rest.isEmpty then pure (.reference target) else none

/-- Whether a value can stand: a percentage has to lie between 0 and 100. -/
def isInRange : Value → Bool
  | .blend _ _ (.percent amount) => decide (0 ≤ amount) && decide (amount ≤ 100)
  | _ => true

end Reader

/-- The value that a text spells, blanks at its ends left out. -/
def read (text : String) : Value :=
  let characters := Text.trimCharacters text.toList
  let structured := (Reader.reference? characters).orElse fun _ => Reader.blend? characters
  match structured.filter Reader.isInRange with
  | some value => value
  | none => .literal (String.ofList characters)

end Value

end Legible.Property
