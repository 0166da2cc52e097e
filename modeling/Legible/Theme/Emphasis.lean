import Legible.Reference.Resolver
import Legible.Theme.Emission

/-!
# Text emphasis

Text may be written at less than full opacity, which is held by a token: a number
without unit between zero and one. The options name it, or else the theme does. A
binding that leads to no such token is reported, and text is written at full
opacity.
-/

namespace Legible

open Property

/-- The opacity of text with the token that holds it. -/
structure Emphasis where
  token : Token.Path
  opacity : Float
  deriving DecidableEq, Repr

namespace Emphasis

/-- The property of the emphasis token. -/
def property (emphasis : Emphasis) : Name := Name.ofToken emphasis.token

/-- The path of the theme's own binding. -/
def documentPath (mode : Mode) : List String := ["themes", mode.text, "text-emphasis"]

/-- The emphasis that a reference leads to, or what is said about it. -/
def ofReference (resolver : Resolver) (reference : Reference) : Except String Emphasis :=
  match resolver.resolveToken reference with
  | .error error => .error error.message
  | .ok token =>
      match resolver.index.get? token with
      | some (.number opacity) =>
          if Token.isShare opacity then .ok ⟨token, opacity⟩
          else .error (token.text ++ " is not an opacity in [0, 1]")
      | _ => .error (token.text ++ " is not an opacity in [0, 1]")

/-- The text of the binding that counts, and where it stands. -/
def binding? (resolver : Resolver) (configured : Option String) : Option (String × String) :=
  match configured with
  | some text => some (text, "options.text-emphasis")
  | none =>
      let path := documentPath resolver.mode
      (resolver.theme.leafText? path).map fun text => (text, String.intercalate "." path)

/-- The emphasis of the resolver's mode, and the issue of a binding that leads to
none. -/
def resolve (resolver : Resolver) (configured : Option String) : Option Emphasis × List Issue :=
  match binding? resolver configured with
  | none => (none, [])
  | some (text, locus) =>
      match ofReference resolver (Reference.read text) with
      | .ok emphasis => (some emphasis, [])
      | .error failure =>
          (none, [Issue.warning .reference locus (failure ++ "; text uses full opacity")])

end Emphasis

end Legible
