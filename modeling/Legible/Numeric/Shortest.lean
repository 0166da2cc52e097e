import Legible.Numeric.Decimal

/-!
# The fewest digits that read back

A finite number is written with the fewest decimal digits whose value reads back
as the same float. On the grid of each digit count the only candidates are the
two neighbours of the exact value; the first grid with a candidate that reads
back wins, and of two such candidates the nearer one.
-/

namespace Legible.Numeric

/-- The decimal number `digits * 10 ^ exponent`. -/
structure Scientific where
  digits : Nat
  exponent : Int
  deriving DecidableEq, Repr

/-- Which neighbour is taken when both are equally near. -/
inductive Tie where
  | awayFromZero
  | toEven
  deriving DecidableEq, Repr

namespace Scientific

/-- The power of ten just above a positive fraction: the number of digits before
the point, or minus the number of zeros right after it. -/
def magnitude (numerator denominator : Nat) : Int :=
  if denominator ≤ numerator then
    Int.ofNat (Decimal.toDigits (numerator / denominator)).length
  else
    let inverse := (denominator + numerator - 1) / numerator
    1 - Int.ofNat (Decimal.toDigits (inverse - 1)).length

/-- The fraction times a power of ten. -/
def scale (numerator denominator : Nat) (power : Int) : Nat × Nat :=
  match power with
  | .ofNat up => (numerator * Nat.pow 10 up, denominator)
  | .negSucc down => (numerator, denominator * Nat.pow 10 (down + 1))

/-- The candidate with `count` digits that reads back as `number`, if any. -/
def withDigits? (tie : Tie) (number : Float) (numerator denominator count : Nat) :
    Option Scientific :=
  let exponent := magnitude numerator denominator - Int.ofNat count
  let (top, bottom) := scale numerator denominator (-exponent)
  let below := top / bottom
  let doubled := 2 * (top % bottom)
  let readsBack (digits : Nat) : Bool := Decimal.nearest digits exponent == number
  let nearerAbove := decide (bottom < doubled) ||
    (decide (bottom = doubled) && (tie == .awayFromZero || below % 2 == 1))
  let first := if nearerAbove then below + 1 else below
  let second := if nearerAbove then below else below + 1
  if readsBack first then some ⟨first, exponent⟩
  else if readsBack second then some ⟨second, exponent⟩
  else none

/-- Every digit of a fraction whose denominator is a power of two. -/
def exact (mantissa : Nat) (exponent : Int) : Scientific :=
  match exponent with
  | .ofNat up => ⟨mantissa * Nat.pow 2 up, 0⟩
  | .negSucc down => ⟨mantissa * Nat.pow 5 (down + 1), .negSucc down⟩

/-- Drops trailing zeros of the digits, at most `fuel` of them. -/
def trimZeros : Nat → Scientific → Scientific
  | 0, value => value
  | fuel + 1, value =>
      if value.digits % 10 = 0 ∧ value.digits ≠ 0 then
        trimZeros fuel ⟨value.digits / 10, value.exponent + 1⟩
      else value

/-- The shortest decimal for the positive number `mantissa * 2 ^ exponent`, whose
float is `number`. Seventeen digits always suffice; the exact expansion stands
behind them. -/
def shortest (tie : Tie) (number : Float) (mantissa : Nat) (exponent : Int) : Scientific :=
  let (numerator, denominator) := Binary.fraction mantissa exponent
  let found := (List.range 17).findSome? fun index =>
    withDigits? tie number numerator denominator (index + 1)
  let value := found.getD (exact mantissa exponent)
  trimZeros (Decimal.toDigits value.digits).length value

/-- Digits and point only, never a power of ten. -/
def positional (value : Scientific) : String :=
  let digits := Decimal.toDigits value.digits
  match value.exponent with
  | .ofNat up => String.ofList (digits ++ List.replicate up '0')
  | .negSucc down =>
      let places := down + 1
      let padded := List.replicate (places + 1 - digits.length) '0' ++ digits
      let whole := padded.length - places
      String.ofList (padded.take whole ++ '.' :: padded.drop whole)

end Scientific

/-- The text of a number: the fewest digits that read back, positional, without a
point when there are no places after it. -/
def text (number : Float) : String :=
  match Binary.ofFloat number with
  | .nan => "NaN"
  | .infinite negative => if negative then "-inf" else "inf"
  | .finite negative mantissa exponent =>
      let sign := if negative then "-" else ""
      if mantissa = 0 then sign ++ "0"
      else sign ++ (Scientific.shortest .awayFromZero number.abs mantissa exponent).positional

end Legible.Numeric
