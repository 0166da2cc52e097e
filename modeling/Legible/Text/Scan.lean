import Legible.Text.Blank

/-!
# Steps of reading from the front

Small readers on lists of characters. Each drops what it recognizes and gives the
rest, or nothing when the text does not begin that way.
-/

namespace Legible.Text

/-- Drops an expected word. -/
def expect? (word : String) (characters : List Char) : Option (List Char) :=
  if word.toList.isPrefixOf characters then some (characters.drop word.toList.length) else none

/-- Drops one blank or more. -/
def expectBlank? : List Char → Option (List Char)
  | [] => none
  | first :: rest => if isBlank first then some (dropBlank rest) else none

/-- The characters of names in references and values: letters, digits, underscore
and dash. -/
def isNameCharacter (character : Char) : Bool :=
  character.isAlphanum || character == '_' || character == '-'

/-- An expected word in front of anything is dropped. -/
@[simp] theorem expect?_append (word : String) (rest : List Char) :
    expect? word (word.toList ++ rest) = some rest := by
  simp [expect?]

end Legible.Text
