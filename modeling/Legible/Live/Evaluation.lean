import Legible.Color.Blend
import Legible.Live.Registry
import Legible.Numeric.Decimal
import Legible.Property.Text
import Legible.Token.Value

/-!
# What a live property renders as

References are followed through the registry and blends are composited. A chain may
have so many properties and no more, which also ends every cycle.
-/

namespace Legible

open Property

/-- How many properties a chain may have after its first. -/
def maxEvaluationDepth : Nat := 16

/-- Why a property renders as nothing. -/
inductive EvaluationError where
  | missing (name : Name)
  | notAColor (name : Name) (text : String)
  | notANumber (name : Name) (text : String)
  | tooDeep (name : Name)
  deriving DecidableEq, Repr

/-- The message of an error. -/
def EvaluationError.message : EvaluationError → String
  | .missing name => name.text ++ " is not set"
  | .notAColor name text => name.text ++ " is not a color: " ++ Text.quote text
  | .notANumber name text => name.text ++ " is not a number: " ++ Text.quote text
  | .tooDeep name => "reference chain through " ++ name.text ++ " is too deep"

namespace Evaluation

/-- The number that a literal spells, with or without `px`. -/
def literalNumber? (text : String) : Option Float :=
  let characters := Text.trimCharacters text.toList
  Numeric.Decimal.read?
    (Text.trimCharacters ((Token.beforePixels? characters).getD characters))

/-- The number that a property renders as. `remaining` counts the properties that
the chain may still have. -/
def numberAt (registry : Registry) : (remaining : Nat) → Name → Except EvaluationError Float
  | 0, name => .error (.tooDeep name)
  | remaining + 1, name =>
      match registry.get? name with
      | none => .error (.missing name)
      | some text =>
          match Value.read text with
          | .reference target => numberAt registry remaining target
          | .literal literal =>
              match literalNumber? literal with
              | some amount => .ok amount
              | none => .error (.notANumber name literal)
          | .blend _ _ _ => .error (.notANumber name text)

/-- The share of the foreground in a blend. -/
def shareOf (numberOf : Name → Except EvaluationError Float) :
    Weight → Except EvaluationError Float
  | .property name => numberOf name
  | .percent amount => .ok (amount / 100)

/-- The color that a value renders as under a name, given what other properties
render as. -/
def colorOf (colorAt : Name → Except EvaluationError Color)
    (numberOf : Name → Except EvaluationError Float) (name : Name) :
    Value → Except EvaluationError Color
  | .literal text =>
      match Color.read? text with
      | some color => .ok color
      | none => .error (.notAColor name text)
  | .reference target => colorAt target
  | .blend foreground background weight => do
      let front ← colorAt foreground
      let back ← colorAt background
      let share ← shareOf numberOf weight
      pure (front.blendOver back share)

/-- The color that a property renders as. `remaining` counts the properties that the
chain may still have. -/
def colorAt (registry : Registry) : (remaining : Nat) → Name → Except EvaluationError Color
  | 0, name => .error (.tooDeep name)
  | remaining + 1, name =>
      match registry.get? name with
      | none => .error (.missing name)
      | some text =>
          colorOf (colorAt registry remaining) (numberAt registry remaining) name
            (Value.read text)

end Evaluation

namespace Registry

/-- The color that a property renders as. -/
def color (registry : Registry) (name : Name) : Except EvaluationError Color :=
  Evaluation.colorAt registry (maxEvaluationDepth + 1) name

/-- The number that a property renders as. -/
def number (registry : Registry) (name : Name) : Except EvaluationError Float :=
  Evaluation.numberAt registry (maxEvaluationDepth + 1) name

/-- The color that a value would render as under a name. -/
def colorOfValue (registry : Registry) (name : Name) (value : Value) :
    Except EvaluationError Color :=
  Evaluation.colorOf (Evaluation.colorAt registry maxEvaluationDepth)
    (Evaluation.numberAt registry maxEvaluationDepth) name value

end Registry

end Legible
