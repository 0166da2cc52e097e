import Legible.Json.Reader
import Legible.Reference.Resolver

/-!
# Options

Options are read from a JSON object, every key of which may be left out, or from
an array of the values in the order of the fields. Unknown and repeated keys and
values of another type are refused.
-/

namespace Legible

/-- What can be configured beside the documents. -/
structure Options where
  /-- A reference to the opacity of text, in place of the theme's own. -/
  textEmphasis : Option String := none
  /-- How many bindings a reference may pass. -/
  maxReferenceDepth : Nat := defaultReferenceDepth
  /-- How many milliseconds pass between two fix passes at least. -/
  fixCooldown : Nat := 1000
  /-- The mode whose brand properties component bindings point at. -/
  uiKitMode : Mode := .light
  deriving DecidableEq, Repr

namespace Options

/-- The keys of the fields, in order. -/
def keys : List String :=
  ["text-emphasis", "max-reference-depth", "fix-cooldown-ms", "ui-kit-mode"]

/-- A text, or `null` for none. -/
def optionalText? : Json → Option (Option String)
  | .null => some none
  | .text text => some (some text)
  | _ => none

/-- A whole number of at most 64 bits without sign. -/
def count? : Json → Option Nat
  | .number (.integer (.ofNat value)) => if value < UInt64.size then some value else none
  | _ => none

/-- A mode by its name, or as an object with the name as its only key. -/
def mode? : Json → Option Mode
  | .text text => Mode.read? text
  | .object [(text, .null)] => Mode.read? text
  | _ => none

/-- Sets the field with a key. -/
def setField? (options : Options) (key : String) (value : Json) : Option Options :=
  match key with
  | "text-emphasis" => (optionalText? value).map fun text => { options with textEmphasis := text }
  | "max-reference-depth" =>
      (count? value).map fun depth => { options with maxReferenceDepth := depth }
  | "fix-cooldown-ms" => (count? value).map fun cooldown => { options with fixCooldown := cooldown }
  | "ui-kit-mode" => (mode? value).map fun mode => { options with uiKitMode := mode }
  | _ => none

/-- The options with the fields of some members set. -/
def setFields? (members : List (String × Json)) : Option Options :=
  members.foldlM (fun options (key, value) => options.setField? key value) {}

/-- The options that a tree spells. -/
def ofJson? : Json → Option Options
  | .object members =>
      if (members.map (·.1)).Nodup then setFields? members else none
  | .array items => if items.length ≤ keys.length then setFields? (keys.zip items) else none
  | _ => none

/-- Why a text spells no options. -/
inductive Error where
  | invalid (name : String)
  deriving DecidableEq, Repr

/-- The message of an error. -/
def Error.message : Error → String
  | .invalid name => "invalid options in " ++ name

/-- The options that a JSON text spells; `name` is for the message of an error. -/
def read (name text : String) : Except Error Options :=
  match (Json.read? text).bind ofJson? with
  | some options => .ok options
  | none => .error (.invalid name)

end Options

end Legible
