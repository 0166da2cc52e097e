import Legible.Property.Text
import Legible.Token.Index

/-!
# Validation of writes

Token and foreign properties may be set to anything. A brand property may only read
token properties, and a component property only brand and token properties; the
weight of a blend is always read from a token property, and every token property
that is read has to be one of the index. A literal in these tiers is repaired when a
token holds exactly its value, and a percentage when an unit-less token holds its
share; otherwise the write is refused.
-/

namespace Legible

open Property

/-- Why a write is refused. -/
inductive WriteError where
  | unmatchedLiteral (name : Name) (text : String)
  | forbiddenReference (name target : Name)
  | unknownTarget (name target : Name)
  deriving DecidableEq, Repr

namespace WriteError

/-- The property that was to be set. -/
def name : WriteError → Name
  | .unmatchedLiteral name _ => name
  | .forbiddenReference name _ => name
  | .unknownTarget name _ => name

/-- The message of an error. -/
def message : WriteError → String
  | .unmatchedLiteral name text =>
      name.text ++ ": literal " ++ Text.quote text ++ " matches no token"
  | .forbiddenReference name target =>
      name.text ++ ": " ++ target.text ++ " is outside the tiers it may reference"
  | .unknownTarget name target => name.text ++ ": " ++ target.text ++ " names no token"

end WriteError

/-- The outcome of a validation that refuses nothing. -/
inductive Verdict where
  | accepted (value : Value)
  /-- The text `replaced` gave way to a value that reads a token. -/
  | repaired (replaced : String) (value : Value)
  deriving DecidableEq, Repr

namespace Verdict

/-- The value to be set. -/
def value : Verdict → Value
  | .accepted value => value
  | .repaired _ value => value

/-- The text that was replaced. -/
def replaced? : Verdict → Option String
  | .accepted _ => none
  | .repaired replaced _ => some replaced

end Verdict

namespace Property.Tier

/-- The tiers that a property may read; a tier without a list may hold anything. -/
def readable? : Tier → Option (List Tier)
  | .tokens => none
  | .brand => some [.tokens]
  | .ui => some [.brand, .tokens]
  | .foreign => none

end Property.Tier

namespace Validation

/-- The token that holds exactly what a literal spells: a color, a length in px, or a
number without unit. -/
def matchingToken? (index : Token.Index) (text : String) : Option Token.Path :=
  let characters := Text.trimCharacters text.toList
  match Color.read? text with
  | some color => index.findColor? color
  | none =>
      match Token.beforePixels? characters with
      | some number =>
          (Numeric.Decimal.read? (Text.trimCharacters number)).bind fun pixels =>
            index.findNumber? pixels true
      | none => (Numeric.Decimal.read? characters).bind fun amount => index.findNumber? amount false

/-- The first property that a value must not read in these tiers. -/
def forbidden? (allowed : List Tier) (value : Value) : Option Name :=
  let weight : Option Name :=
    match value with
    | .blend _ _ (.property name) => if name.tier = .tokens then none else some name
    | _ => none
  (value.references.find? fun target => !allowed.contains target.tier).orElse fun _ => weight

/-- The first token property that a value reads and the index does not have. -/
def unknown? (index : Token.Index) (value : Value) : Option Name :=
  value.references.find? fun target =>
    target.tier == .tokens && (index.pathOf? target).isNone

/-- Replaces a percentage by a token that holds its share. -/
def settle (name : Name) (value : Value) (index : Token.Index) : Except WriteError Verdict :=
  match value with
  | .blend foreground background (.percent amount) =>
      match index.findNumber? (amount / 100) false with
      | some path =>
          .ok (.repaired value.render
            (.blend foreground background (.property (Name.ofToken path))))
      | none => .error (.unmatchedLiteral name value.render)
  | value => .ok (.accepted value)

/-- Validates an indirection that may read some tiers. -/
def checkIndirection (name : Name) (value : Value) (allowed : List Tier) (index : Token.Index) :
    Except WriteError Verdict :=
  match forbidden? allowed value with
  | some target => .error (.forbiddenReference name target)
  | none =>
      match unknown? index value with
      | some target => .error (.unknownTarget name target)
      | none => settle name value index

end Validation

/-- Validates a value for a property. -/
def validate (name : Name) (value : Value) (index : Token.Index) : Except WriteError Verdict :=
  match name.tier.readable? with
  | none => .ok (.accepted value)
  | some allowed =>
      match value with
      | .literal text =>
          match Validation.matchingToken? index text with
          | some path => .ok (.repaired text (.reference (Name.ofToken path)))
          | none => .error (.unmatchedLiteral name text)
      | value => Validation.checkIndirection name value allowed index

end Legible
