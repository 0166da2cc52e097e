import Legible.Text.GraphemeExtend
import Legible.Text.Unprintable

/-!
# Quoted text in messages

A quoted text stands between double quotes. The quote and the backslash are
escaped, four controls have a letter of their own, and every other character that
has no printed form or extends the one before it is written by its code point in
hexadecimal.
-/

namespace Legible.Text

/-- The hexadecimal digits of a number, lower case. -/
def hexDigits (number : Nat) : List Char :=
  Nat.toDigits 16 number

/-- Whether a character can only be shown by its code point. -/
def needsCodePoint (character : Char) : Bool :=
  let code := character.toNat
  if 0x20 ≤ code ∧ code ≤ 0x7e then false
  else isUnprintable character || extendsGrapheme character

/-- The written form of one character inside quotes. -/
def quoteCharacter (character : Char) : List Char :=
  if character = '"' then ['\\', '"']
  else if character = '\\' then ['\\', '\\']
  else if character = '\n' then ['\\', 'n']
  else if character = '\r' then ['\\', 'r']
  else if character = '\t' then ['\\', 't']
  else if character = '\x00' then ['\\', '0']
  else if needsCodePoint character then
    ['\\', 'u', '\x7b'] ++ hexDigits character.toNat ++ ['\x7d']
  else [character]

/-- A text between double quotes, with its escapes. -/
def quote (text : String) : String :=
  String.ofList ('"' :: text.toList.flatMap quoteCharacter ++ ['"'])

end Legible.Text
