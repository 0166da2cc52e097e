import Legible.Document
import Legible.Property.Name
import Legible.Token.Ramp
import Legible.Token.Value

/-!
# The token index

The leaves of a token document, flattened into tables. Colors are read level by
level below `color/<ramp>`; every other leaf is keyed by its category and the rest
of its path joined by dashes. What cannot be read is left out and listed. A later
leaf with the same address replaces an earlier one.
-/

namespace Legible.Token

/-- A token that was left out. -/
structure Rejection where
  path : String
  refusal : Refusal

/-- The message of a rejection. -/
def Rejection.message (rejection : Rejection) : String :=
  "token " ++ rejection.path ++ ": " ++ rejection.refusal.message

/-- What one leaf of a token document gives. -/
inductive Finding where
  | token (path : Path) (value : Value)
  | rejected (rejection : Rejection)

namespace Finding

/-- The token that was found. -/
def token? : Finding → Option (Path × Value)
  | .token path value => some (path, value)
  | .rejected _ => none

/-- The rejection that was found. -/
def rejection? : Finding → Option Rejection
  | .token _ _ => none
  | .rejected rejection => some rejection

/-- The level and color that were found. -/
def shade? : Finding → Option (Level × Color)
  | .token path (.color color) => path.level.map fun level => (level, color)
  | _ => none

end Finding

/-- The color that a document gives for a level of a ramp. -/
def findShade (document : Document) (ramp key : String) : Finding :=
  match Level.read? key with
  | none =>
      .rejected ⟨String.intercalate "/" [Path.colorCategory, ramp, key], .levelNotNumeric⟩
  | some level =>
      let path := Path.color ramp level
      match (document.leafText? [Path.colorCategory, ramp, key]).bind Color.read? with
      | some color => .token path (.color color)
      | none => .rejected ⟨path.text, .notAColor⟩

/-- What a document gives for the keys of a ramp. -/
def findRamp (document : Document) (ramp : String) : List Finding :=
  (document.keys [Path.colorCategory, ramp]).map (findShade document ramp)

/-- The address of a leaf outside the color category. -/
def leafPath (category : String) (leaf : Document.Leaf) : Path :=
  Path.plain category (String.intercalate "-" (leaf.path.drop 1))

/-- What a leaf outside the color category gives. -/
def findLeaf (category : String) (leaf : Document.Leaf) : Finding :=
  let path := leafPath category leaf
  match valueOfLeaf category leaf.kind leaf.value with
  | .ok value => .token path value
  | .error refusal => .rejected ⟨path.text, refusal⟩

/-- What a document gives for a category. -/
def findCategory (document : Document) (category : String) : List Finding :=
  if category = Path.colorCategory then
    (document.keys [Path.colorCategory]).flatMap (findRamp document)
  else
    (document.leaves [category]).map (findLeaf category)

/-- What a whole document gives, in document order. -/
def findings (document : Document) : List Finding :=
  (document.keys []).flatMap (findCategory document)

/-- The ramp that a document declares under a name. -/
def rampOf (document : Document) (name : String) : Ramp :=
  let described (key : String) : Option String :=
    (document.get? [Path.colorCategory, name, key]).bind Json.text?
  { Ramp.ofList name ((findRamp document name).filterMap Finding.shade?) with
    aliasName := described "$alias"
    scale := described "$scale" }

/-- The flattened tables of a token document. -/
structure Index where
  values : Std.TreeMap Path Value
  ramps : Std.TreeMap String Ramp
  /-- From the alias of a ramp to its name. -/
  aliases : Std.TreeMap String String
  /-- From the name of a token's property to the token. -/
  published : Std.TreeMap Property.Name Path
  rejected : List Rejection

namespace Index

/-- The index of a token document. -/
def ofDocument (document : Document) : Index :=
  let found := findings document
  let values : Std.TreeMap Path Value :=
    (found.filterMap Finding.token?).foldl (fun kept entry => kept.insert entry.1 entry.2) ∅
  let ramps := (document.keys [Path.colorCategory]).map (rampOf document)
  { values
    ramps := ramps.foldl (fun kept ramp => kept.insert ramp.name ramp) ∅
    aliases := ramps.foldl
      (fun kept ramp =>
        match ramp.aliasName with
        | some aliasName => kept.insert aliasName ramp.name
        | none => kept) ∅
    published := values.keys.foldl
      (fun kept path => kept.insert (Property.Name.ofToken path) path) ∅
    rejected := found.filterMap Finding.rejection? }

/-- Every token in the order of paths. -/
def tokens (index : Index) : List (Path × Value) := index.values.toList

/-- The ramps in the order of their names. -/
def rampList (index : Index) : List Ramp := index.ramps.values

/-- How many tokens there are. -/
def size (index : Index) : Nat := index.values.size

/-- The path under which a token is held: the given one, or the one with the
ramp's name in place of its alias. -/
def canonicalize? (index : Index) (path : Path) : Option Path :=
  if path ∈ index.values then some path
  else if path.isColor then
    index.aliases[path.key]?.bind fun ramp =>
      let canonical := { path with key := ramp }
      if canonical ∈ index.values then some canonical else none
  else none

/-- The value of a token; a color may be addressed by the alias of its ramp. -/
def get? (index : Index) (path : Path) : Option Value :=
  (index.canonicalize? path).bind fun canonical => index.values[canonical]?

/-- The color at a path. -/
def color? (index : Index) (path : Path) : Option Color :=
  (index.get? path).bind Value.color?

/-- The token published under a property name. -/
def pathOf? (index : Index) (name : Property.Name) : Option Path := index.published[name]?

/-- The ramp with a name or an alias. -/
def ramp? (index : Index) (name : String) : Option Ramp :=
  index.ramps[name]?.orElse fun _ => index.aliases[name]?.bind fun ramp => index.ramps[ramp]?

/-- The first token in the order of paths that holds a color. -/
def findColor? (index : Index) (color : Color) : Option Path :=
  (index.tokens.find? fun entry => entry.2 == .color color).map (·.1)

/-- Whether two numbers are the same up to a billionth. -/
def isClose (left right : Float) : Bool :=
  decide ((left - right).abs < 1e-9)

/-- Whether a value is this number, as a length or without unit. -/
def holdsNumber (amount : Float) (dimension : Bool) : Value → Bool
  | .dimension pixels => dimension && isClose pixels amount
  | .number held => !dimension && isClose held amount
  | _ => false

/-- The first token in the order of paths that holds a number. -/
def findNumber? (index : Index) (amount : Float) (dimension : Bool) : Option Path :=
  (index.tokens.find? fun entry => holdsNumber amount dimension entry.2).map (·.1)

end Index

end Legible.Token
