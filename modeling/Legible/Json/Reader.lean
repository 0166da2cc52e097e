import Legible.Json.Number
import Legible.Text.Hex
import Legible.Text.Scan

/-!
# Reading JSON text

The grammar is the strict one: no comments, no trailing commas, no control
characters inside strings, surrogate escapes only in pairs, and nothing but blanks
after the value. Arrays and objects may nest 127 levels deep. Repeated keys are
kept as written; `Json.unique` merges them.
-/

namespace Legible.Json

namespace Reader

/-- How many arrays and objects may be open at once. -/
def depthLimit : Nat := 127

/-- Whether a character may stand between JSON tokens. -/
def isSpace (character : Char) : Bool :=
  character = ' ' || character = '\t' || character = '\n' || character = '\r'

/-- The characters after leading spaces. -/
def skipSpace (characters : List Char) : List Char :=
  characters.dropWhile isSpace

/-- The 16-bit unit that four hexadecimal digits spell. -/
def unit? (first second third fourth : Char) : Option Nat := do
  let first ← Text.hexValue? first
  let second ← Text.hexValue? second
  let third ← Text.hexValue? third
  let fourth ← Text.hexValue? fourth
  pure (((first * 16 + second) * 16 + third) * 16 + fourth)

/-- The character of an escape letter. -/
def escaped? : Char → Option Char
  | '"' => some '"'
  | '\\' => some '\\'
  | '/' => some '/'
  | 'b' => some '\x08'
  | 'f' => some '\x0c'
  | 'n' => some '\n'
  | 'r' => some '\r'
  | 't' => some '\t'
  | _ => none

/-- Reads a string body up to its closing quote. `reversed` holds what has been
read, last character first. -/
def body? (reversed : List Char) : List Char → Option (String × List Char)
  | [] => none
  | '"' :: rest => some (String.ofList reversed.reverse, rest)
  | '\\' :: 'u' :: first :: second :: third :: fourth :: rest =>
      match unit? first second third fourth with
      | none => none
      | some unit =>
          if 0xd800 ≤ unit ∧ unit ≤ 0xdbff then
            match rest with
            | '\\' :: 'u' :: fifth :: sixth :: seventh :: eighth :: after =>
                match unit? fifth sixth seventh eighth with
                | none => none
                | some low =>
                    if 0xdc00 ≤ low ∧ low ≤ 0xdfff then
                      let code := 0x10000 + (unit - 0xd800) * 0x400 + (low - 0xdc00)
                      body? (Char.ofNat code :: reversed) after
                    else none
            | _ => none
          else if 0xdc00 ≤ unit ∧ unit ≤ 0xdfff then none
          else body? (Char.ofNat unit :: reversed) rest
  | '\\' :: letter :: rest =>
      match escaped? letter with
      | none => none
      | some character => body? (character :: reversed) rest
  | character :: rest =>
      if character = '\\' ∨ character.toNat < 0x20 then none
      else body? (character :: reversed) rest

mutual

/-- Reads one value. `fuel` bounds the calls, `depth` the open brackets. -/
def value? (fuel depth : Nat) (characters : List Char) : Option (Json × List Char) :=
  match fuel with
  | 0 => none
  | fuel + 1 =>
      match skipSpace characters with
      | [] => none
      | '\x7b' :: rest =>
          if depth = 0 then none
          else
            match skipSpace rest with
            | '\x7d' :: after => some (.object [], after)
            | opened => (members? fuel (depth - 1) opened).map fun (members, after) =>
                (.object members, after)
      | '[' :: rest =>
          if depth = 0 then none
          else
            match skipSpace rest with
            | ']' :: after => some (.array [], after)
            | opened => (items? fuel (depth - 1) opened).map fun (items, after) =>
                (.array items, after)
      | '"' :: rest => (body? [] rest).map fun (value, after) => (.text value, after)
      | 't' :: rest => (Text.expect? "rue" rest).map fun after => (.boolean true, after)
      | 'f' :: rest => (Text.expect? "alse" rest).map fun after => (.boolean false, after)
      | 'n' :: rest => (Text.expect? "ull" rest).map fun after => (.null, after)
      | start :: rest =>
          (Number.read? (start :: rest)).map fun (numeral, after) =>
            (.number numeral, after)

/-- Reads the items of an array and its closing bracket. -/
def items? (fuel depth : Nat) (characters : List Char) : Option (List Json × List Char) :=
  match fuel with
  | 0 => none
  | fuel + 1 =>
      match value? fuel depth characters with
      | none => none
      | some (item, after) =>
          match skipSpace after with
          | ']' :: rest => some ([item], rest)
          | ',' :: rest => (items? fuel depth rest).map fun (items, last) => (item :: items, last)
          | _ => none

/-- Reads the members of an object and its closing brace. -/
def members? (fuel depth : Nat) (characters : List Char) :
    Option (List (String × Json) × List Char) :=
  match fuel with
  | 0 => none
  | fuel + 1 =>
      match skipSpace characters with
      | '"' :: rest =>
          match body? [] rest with
          | none => none
          | some (key, afterKey) =>
              match skipSpace afterKey with
              | ':' :: start =>
                  match value? fuel depth start with
                  | none => none
                  | some (value, after) =>
                      match skipSpace after with
                      | '\x7d' :: last => some ([(key, value)], last)
                      | ',' :: next =>
                          (members? fuel depth next).map fun (members, last) =>
                            ((key, value) :: members, last)
                      | _ => none
              | _ => none
      | _ => none

end

end Reader

/-- The tree that the whole of `text` spells, repeated keys kept. -/
def read? (text : String) : Option Json :=
  let characters := text.toList
  match Reader.value? (2 * characters.length + 2) Reader.depthLimit characters with
  | none => none
  | some (value, after) => if (Reader.skipSpace after).isEmpty then some value else none

end Legible.Json
