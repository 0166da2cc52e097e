import Legible.Numeric.Decimal

/-!
# Short whole numbers

Ramp levels and layer numbers are whole numbers below `2 ^ 16`, written with
decimal digits only.
-/

namespace Legible.Text

/-- The number below `2 ^ 16` that a non-empty run of decimal digits spells. -/
def shortNumber? (digits : List Char) : Option UInt16 :=
  if digits.isEmpty || !digits.all Char.isDigit then none
  else
    let value := Numeric.Decimal.ofDigits digits
    if value < UInt16.size then some (UInt16.ofNat value) else none

/-- The digits of a number, filled with zeros from the left up to `width`. -/
def paddedDigits (width number : Nat) : List Char :=
  let digits := Numeric.Decimal.toDigits number
  List.replicate (width - digits.length) '0' ++ digits

end Legible.Text
