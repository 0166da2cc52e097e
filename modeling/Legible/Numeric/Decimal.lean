import Legible.Numeric.Binary

/-!
# Decimal text read as a binary64 number

A decimal number is an optional sign, digits with an optional point among or
beside them, and an optional power of ten. `infinity`, `inf` and `nan` are
accepted in any case. The result is the `Float` nearest to the written value.
-/

namespace Legible.Numeric

/-- Positive infinity. -/
def infinity : Float := 1 / 0

/-- The float that stands for no number. -/
def notANumber : Float := 0 / 0

namespace Decimal

/-- The whole number that a list of decimal digits spells. -/
def ofDigits (digits : List Char) : Nat :=
  digits.foldl (fun value digit => 10 * value + (digit.toNat - '0'.toNat)) 0

/-- The decimal digits of a whole number, most significant first. -/
def toDigits (number : Nat) : List Char :=
  Nat.toDigits 10 number

/-- The `Float` nearest to `significand * 10 ^ exponent`. Values far outside the
range of binary64 are decided without computing the power. -/
def nearest (significand : Nat) (exponent : Int) : Float :=
  let magnitude := exponent + Int.ofNat (toDigits significand).length
  if significand = 0 ∨ magnitude < -400 then 0
  else if 400 < magnitude then infinity
  else
    match exponent with
    | .ofNat up => Float.ofScientific significand false up
    | .negSucc down => Float.ofScientific significand true (down + 1)

/-- A non-empty run of digits with an optional sign, filling the whole text. -/
def signedWhole? (text : List Char) : Option Int :=
  let (negative, digits) :=
    match text with
    | '-' :: rest => (true, rest)
    | '+' :: rest => (false, rest)
    | rest => (false, rest)
  if digits.isEmpty || !digits.all Char.isDigit then none
  else if negative then some (-Int.ofNat (ofDigits digits))
  else some (Int.ofNat (ofDigits digits))

/-- The power of ten after the digits: nothing, or `e` and a signed number. -/
def exponent? : List Char → Option Int
  | [] => some 0
  | mark :: rest => if mark = 'e' ∨ mark = 'E' then signedWhole? rest else none

/-- An unsigned number written with digits. -/
def digits? (text : List Char) : Option Float :=
  let whole := text.takeWhile Char.isDigit
  let afterWhole := text.dropWhile Char.isDigit
  let (places, rest) :=
    match afterWhole with
    | '.' :: tail => (tail.takeWhile Char.isDigit, tail.dropWhile Char.isDigit)
    | _ => ([], afterWhole)
  if (whole ++ places).isEmpty then none
  else
    (exponent? rest).map fun exponent =>
      nearest (ofDigits (whole ++ places)) (exponent - Int.ofNat places.length)

/-- An unsigned number: digits, or one of the three words. -/
def unsigned? (text : List Char) : Option Float :=
  let word := String.ofList (text.map Char.toLower)
  if word = "inf" ∨ word = "infinity" then some infinity
  else if word = "nan" then some notANumber
  else digits? text

/-- The number that the whole of `text` spells, or `none`. -/
def read? (text : List Char) : Option Float :=
  match text with
  | '-' :: rest => (unsigned? rest).map (-·)
  | '+' :: rest => unsigned? rest
  | rest => unsigned? rest

end Decimal

end Legible.Numeric
