import Legible.Property.Name

/-!
# Values of output properties

A value is a literal text, a reference to another property, or a blend of two
properties. The weight of a blend is read from a property or is a percentage.
-/

namespace Legible.Property

/-- How much of the foreground a blend takes. -/
inductive Weight where
  /-- Read from a property that holds a share of one. -/
  | property (name : Name)
  | percent (amount : Float)
  deriving DecidableEq, Repr

/-- What a property is set to. -/
inductive Value where
  | literal (text : String)
  | reference (target : Name)
  | blend (foreground background : Name) (weight : Weight)
  deriving DecidableEq, Repr

/-- Whether two weights are the same; percentages are compared as numbers. -/
def Weight.agrees : Weight → Weight → Bool
  | .property left, .property right => left == right
  | .percent left, .percent right => left == right
  | _, _ => false

/-- The property that a weight reads. -/
def Weight.property? : Weight → Option Name
  | .property name => some name
  | .percent _ => none

namespace Value

/-- Whether two values are the same; percentages are compared as numbers. -/
def agrees : Value → Value → Bool
  | .literal left, .literal right => left == right
  | .reference left, .reference right => left == right
  | .blend foreground background weight, .blend foreground' background' weight' =>
      foreground == foreground' && background == background' && weight.agrees weight'
  | _, _ => false

/-- Whether a value is a literal. -/
def isLiteral : Value → Bool
  | .literal _ => true
  | _ => false

/-- Whether a value is a blend by a percentage. -/
def hasFixedWeight : Value → Bool
  | .blend _ _ (.percent _) => true
  | _ => false

/-- The properties that a value reads, in the order of its text apart from the
weight, which comes last. -/
def references : Value → List Name
  | .literal _ => []
  | .reference target => [target]
  | .blend foreground background weight =>
      [foreground, background] ++ weight.property?.toList

end Value

end Legible.Property
