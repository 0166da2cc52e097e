/-!
# Blank characters

The characters with the `White_Space` property, and the operation that drops them
from both ends of a text.
-/

namespace Legible.Text

/-- The `White_Space` characters beyond U+007F. -/
def isWideBlank (code : Nat) : Bool :=
  code == 0x85 || code == 0xa0 || code == 0x1680 ||
    (decide (0x2000 ≤ code) && decide (code ≤ 0x200a)) ||
    code == 0x2028 || code == 0x2029 || code == 0x202f || code == 0x205f || code == 0x3000

/-- Whether a character is white space. -/
def isBlank (character : Char) : Bool :=
  let code := character.toNat
  code == 0x20 || (decide (9 ≤ code) && decide (code ≤ 13)) || isWideBlank code

/-- The characters of a text after its leading blanks. -/
def dropBlank (characters : List Char) : List Char :=
  characters.dropWhile isBlank

/-- The characters of a text without the blanks at either end. -/
def trimCharacters (characters : List Char) : List Char :=
  (dropBlank (dropBlank characters).reverse).reverse

/-- A text without the blanks at either end. -/
def trim (text : String) : String :=
  String.ofList (trimCharacters text.toList)

/-- Every blank of the core library is blank here. -/
theorem isBlank_of_isWhitespace {character : Char} (blank : character.isWhitespace) :
    isBlank character := by
  simp only [Char.isWhitespace, Bool.or_eq_true, decide_eq_true_eq] at blank
  rcases blank with ((rfl | rfl) | rfl) | rfl <;> decide

/-- What is left after the leading blanks does not begin with a blank. -/
theorem isBlank_head_dropBlank {characters : List Char} {first : Char} {rest : List Char}
    (left : dropBlank characters = first :: rest) : isBlank first = false := by
  induction characters with
  | nil => simp [dropBlank] at left
  | cons head tail inductionHypothesis =>
      by_cases blank : isBlank head
      · exact inductionHypothesis (by simpa [dropBlank, blank] using left)
      · simp [dropBlank, blank] at left
        simpa [← left.1] using blank

end Legible.Text
