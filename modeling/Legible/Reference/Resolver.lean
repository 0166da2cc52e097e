import Legible.Reference.Basic
import Legible.Token.Index

/-!
# Following references

A reference is followed through the bindings of a theme until it reaches a token or
a ramp that the index holds. Each binding may be passed once, and only so many of
them. A failed lookup is an error; nothing is substituted here.
-/

namespace Legible

/-- What a reference leads to. -/
inductive Target where
  | token (path : Token.Path)
  | ramp (name : String)
  deriving DecidableEq, Repr

/-- Why a reference leads nowhere. -/
inductive ReferenceError where
  | unrecognized (text : String)
  | unknownToken (path : Token.Path)
  | unknownRamp (name : String)
  | missingBinding (path : List String)
  | paletteNotARamp (key : String)
  | cycle (mode : Mode) (site : Site)
  | tooDeep (limit : Nat)
  | outputProperty (subsystem : Subsystem) (path : List String)
  deriving DecidableEq, Repr

/-- The message of an error. -/
def ReferenceError.message : ReferenceError → String
  | .unrecognized text => "unrecognized reference " ++ Text.quote text
  | .unknownToken path => "no token at " ++ path.text
  | .unknownRamp name => "no color ramp named " ++ Text.quote name
  | .missingBinding path => "theme has no binding at " ++ String.intercalate "." path
  | .paletteNotARamp key => "palette " ++ Text.quote key ++ " must bind a color ramp"
  | .cycle mode site => "reference cycle through " ++ (Reference.site (some mode) site).text
  | .tooDeep limit => "reference chain deeper than " ++ toString limit
  | .outputProperty subsystem path =>
      (Reference.property subsystem path).text ++
        " names an output property, not a document binding"

/-- How many bindings are passed at most, when nothing else is configured. -/
def defaultReferenceDepth : Nat := 8

/-- What references are followed against. -/
structure Resolver where
  index : Token.Index
  theme : Document
  mode : Mode
  maxDepth : Nat

namespace Resolver

/-- The reference bound at a path of the theme. -/
def binding (resolver : Resolver) (path : List String) : Except ReferenceError Reference :=
  match resolver.theme.leafText? path with
  | some text => .ok (Reference.read text)
  | none => .error (.missingBinding path)

/-- The path of a palette in a theme document. -/
def palettePath (mode : Mode) (key : String) : List String :=
  ["themes", mode.text, "palettes", key]

/-- The text of the primary level that a palette declares. -/
def primaryText? (resolver : Resolver) (mode : Mode) (key : String) : Option String :=
  ((resolver.theme.get? (palettePath mode key)).bind fun node => node.member? "$primary").bind
    Json.text?

/-- The level meant by a palette reference: the written one, or the primary one. -/
def paletteLevel (resolver : Resolver) (mode : Mode) (key : String)
    (level : Option Token.Level) : Except ReferenceError Token.Level :=
  match level.orElse fun _ => (resolver.primaryText? mode key).bind Token.Level.read? with
  | some level => .ok level
  | none => .error (.missingBinding (palettePath mode key ++ ["$primary"]))

/-- The reference bound at a site of a mode. The interactive color without a state
is the one of its default state. -/
def step (resolver : Resolver) (mode : Mode) : Site → Except ReferenceError Reference
  | .palette key level => do
      match ← resolver.binding (palettePath mode key) with
      | .ramp ramp =>
          let level ← resolver.paletteLevel mode key level
          pure (.token (Token.Path.color ramp level))
      | _ => .error (.paletteNotARamp key)
  | .core .interactive state =>
      resolver.binding ((CoreSlot.interactive (state.getD .default)).documentPath mode)
  | .core color _ => resolver.binding ((CoreSlot.plain color).documentPath mode)
  | .surface layer => resolver.binding (layer.surfacePath mode)

/-- Follows a reference. `seen` are the sites passed so far, `remaining` says how
many more may be passed. -/
def follow (resolver : Resolver) :
    (remaining : Nat) → (seen : List (Mode × Site)) → Reference → Except ReferenceError Target
  | _, _, .token path =>
      match resolver.index.canonicalize? path with
      | some canonical => .ok (.token canonical)
      | none => .error (.unknownToken path)
  | _, _, .ramp name =>
      match resolver.index.ramp? name with
      | some ramp => .ok (.ramp ramp.name)
      | none => .error (.unknownRamp name)
  | _, _, .unrecognized text => .error (.unrecognized text)
  | _, _, .property subsystem path => .error (.outputProperty subsystem path)
  | remaining, seen, .site mode site =>
      let mode := mode.getD resolver.mode
      if (mode, site) ∈ seen then .error (.cycle mode site)
      else
        match remaining with
        | 0 => .error (.tooDeep resolver.maxDepth)
        | remaining + 1 =>
            match resolver.step mode site with
            | .ok next => resolver.follow remaining ((mode, site) :: seen) next
            | .error error => .error error

/-- What a reference leads to. -/
def resolve (resolver : Resolver) (reference : Reference) : Except ReferenceError Target :=
  resolver.follow resolver.maxDepth [] reference

/-- The single token a reference leads to; a whole ramp is no token. -/
def resolveToken (resolver : Resolver) (reference : Reference) :
    Except ReferenceError Token.Path :=
  match resolver.resolve reference with
  | .ok (.token path) => .ok path
  | .ok (.ramp name) =>
      .error (.unknownToken (Token.Path.plain Token.Path.colorCategory name))
  | .error error => .error error

end Resolver

end Legible
