import Legible.Numeric.Decimal

/-!
# A fixed number of decimal places

A fraction is rounded to whole units of the last place, a tie going to the even
neighbour, and written with all its places.
-/

namespace Legible.Numeric

namespace Places

/-- A non-negative fraction written with `places` digits after the point. -/
def ofFraction (numerator denominator places : Nat) : String :=
  let units := roundDiv (numerator * Nat.pow 10 places) denominator
  let digits := Decimal.toDigits units
  let padded := List.replicate (places + 1 - digits.length) '0' ++ digits
  let whole := padded.length - places
  String.ofList (padded.take whole ++ '.' :: padded.drop whole)

/-- A float written with `places` digits after the point, keeping the sign of
zero. -/
def ofFloat (number : Float) (places : Nat) : String :=
  match Binary.ofFloat number with
  | .nan => "NaN"
  | .infinite negative => if negative then "-inf" else "inf"
  | .finite negative mantissa exponent =>
      let (numerator, denominator) := Binary.fraction mantissa exponent
      (if negative then "-" else "") ++ ofFraction numerator denominator places

end Places

end Legible.Numeric
