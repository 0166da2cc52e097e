import Legible.Color.Basic
import Legible.Json.Writer
import Legible.Numeric.Shortest
import Legible.Token.Path

/-!
# Values of tokens

A token holds a color, a length in px, a number without unit, or free text. This
module says which leaf of a document gives which value, and why a leaf is refused.
-/

namespace Legible.Token

/-- What a token holds. -/
inductive Value where
  | color (color : Color)
  /-- A length in px. -/
  | dimension (pixels : Float)
  /-- A number without unit. -/
  | number (amount : Float)
  | text (text : String)
  deriving DecidableEq, Repr

namespace Value

/-- The text a token property is set to. -/
def literal : Value → String
  | .color held => held.hex
  | .dimension pixels => Numeric.text pixels ++ "px"
  | .number amount => Numeric.text amount
  | .text held => held

/-- The color a token holds. -/
def color? : Value → Option Color
  | .color held => some held
  | _ => none

/-- The number a token holds, with or without unit. -/
def number? : Value → Option Float
  | .number amount => some amount
  | .dimension pixels => some pixels
  | _ => none

end Value

/-- Why a token is refused. -/
inductive Refusal where
  | levelNotNumeric
  | notAColor
  | opacityOutOfRange (amount : Float)
  | notPixels (text : String)
  | unsupported (value : Json)

namespace Refusal

/-- What is said about a refusal. -/
def message : Refusal → String
  | .levelNotNumeric => "ramp level must be numeric"
  | .notAColor => "color must be #rgb or #rrggbb hex"
  | .opacityOutOfRange amount => "opacity " ++ Numeric.text amount ++ " outside [0, 1]"
  | .notPixels text => "dimension " ++ Text.quote text ++ " is not a px value"
  | .unsupported value => "unsupported token value " ++ value.render

end Refusal

/-- Whether a number is a share of one. -/
def isShare (amount : Float) : Bool :=
  decide (0 ≤ amount) && decide (amount ≤ 1)

/-- The characters before a final `px`. -/
def beforePixels? (characters : List Char) : Option (List Char) :=
  match characters.reverse with
  | 'x' :: 'p' :: rest => some rest.reverse
  | _ => none

/-- The length that a text with a `px` ending spells, blanks left out. -/
def pixels? (text : String) : Option Float :=
  (beforePixels? (Text.trimCharacters text.toList)).bind fun number =>
    Numeric.Decimal.read? (Text.trimCharacters number)

/-- Whether a leaf of this category and type is a length. -/
def isDimension (category : String) (kind : Option String) : Bool :=
  category == "size" || category == "font-size" || category == "dimension" ||
    kind == some "dimension" || kind == some "size"

/-- The token value of a leaf outside the color category. -/
def valueOfLeaf (category : String) (kind : Option String) : Json → Except Refusal Value
  | .number number =>
      let amount := number.toFloat
      if category == "opacity" && !isShare amount then .error (.opacityOutOfRange amount)
      else if isDimension category kind then .ok (.dimension amount)
      else .ok (.number amount)
  | .text text =>
      if isDimension category kind then
        match pixels? text with
        | some pixels => .ok (.dimension pixels)
        | none => .error (.notPixels text)
      else if kind == some "color" then
        match Color.read? text with
        | some held => .ok (.color held)
        | none => .error .notAColor
      else .ok (.text text)
  | other => .error (.unsupported other)

end Legible.Token
