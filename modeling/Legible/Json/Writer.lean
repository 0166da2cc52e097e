import Legible.Json.Number
import Legible.Text.Hex

/-!
# Writing JSON text

A tree is written either without any space or with one member or item a line,
indented by two spaces a level. Only the quote, the backslash and the controls
below U+0020 are escaped.
-/

namespace Legible.Json

namespace Writer

/-- The written form of one character of a string. -/
def character (character : Char) : List Char :=
  if character = '"' then ['\\', '"']
  else if character = '\\' then ['\\', '\\']
  else if character = '\x08' then ['\\', 'b']
  else if character = '\x0c' then ['\\', 'f']
  else if character = '\n' then ['\\', 'n']
  else if character = '\r' then ['\\', 'r']
  else if character = '\t' then ['\\', 't']
  else if character.toNat < 0x20 then
    ['\\', 'u', '0', '0',
      Text.hexDigit (character.toNat / 16), Text.hexDigit (character.toNat % 16)]
  else [character]

/-- A string between double quotes. -/
def string (value : String) : String :=
  String.ofList ('"' :: value.toList.flatMap character ++ ['"'])

/-- A line break and the indentation of a level. -/
def line (level : Nat) : String :=
  String.ofList ('\n' :: List.replicate (2 * level) ' ')

mutual

/-- A tree without spaces. -/
def compact : Json → String
  | .null => "null"
  | .boolean value => if value then "true" else "false"
  | .number value => value.render
  | .text value => string value
  | .array items => "[" ++ String.intercalate "," (compactItems items) ++ "]"
  | .object members => "\x7b" ++ String.intercalate "," (compactMembers members) ++ "\x7d"

/-- The items of an array, each without spaces. -/
def compactItems : List Json → List String
  | [] => []
  | item :: rest => compact item :: compactItems rest

/-- The members of an object, each without spaces. -/
def compactMembers : List (String × Json) → List String
  | [] => []
  | (key, value) :: rest => (string key ++ ":" ++ compact value) :: compactMembers rest

end

mutual

/-- A tree with one entry a line, whose brackets stand at indentation `level`. -/
def pretty (level : Nat) : Json → String
  | .array [] => "[]"
  | .array (item :: rest) =>
      "[" ++ String.intercalate "," (prettyItems (level + 1) (item :: rest)) ++ line level ++ "]"
  | .object [] => "\x7b\x7d"
  | .object (member :: rest) =>
      "\x7b" ++ String.intercalate "," (prettyMembers (level + 1) (member :: rest)) ++
        line level ++ "\x7d"
  | .null => "null"
  | .boolean value => if value then "true" else "false"
  | .number value => value.render
  | .text value => string value

/-- The items of an array, each on a line at indentation `level`. -/
def prettyItems (level : Nat) : List Json → List String
  | [] => []
  | item :: rest => (line level ++ pretty level item) :: prettyItems level rest

/-- The members of an object, each on a line at indentation `level`. -/
def prettyMembers (level : Nat) : List (String × Json) → List String
  | [] => []
  | (key, value) :: rest =>
      (line level ++ string key ++ ": " ++ pretty level value) :: prettyMembers level rest

end

end Writer

/-- The text of a tree without spaces. -/
def render (tree : Json) : String :=
  Writer.compact tree

/-- The text of a tree with one entry a line. -/
def renderPretty (tree : Json) : String :=
  Writer.pretty 0 tree

/-- A float as a tree: a float without a JSON form is `null`. -/
def ofFloat (value : Float) : Json :=
  if value.isFinite then .number (.real value) else .null

end Legible.Json
