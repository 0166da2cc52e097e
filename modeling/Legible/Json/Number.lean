import Legible.Json.Basic
import Legible.Numeric.Shortest

/-!
# The text of JSON numbers

A number without point and power is whole when it fits 64 bits. Any other number
is a float, computed from at most 64 bits of its digits by one scaling with a
power of ten, so its last bit may differ from the nearest float; a scaling past
the largest float is refused. Minus zero is a float.

A float is written with the fewest digits that read back, at least one of them
after the point, and with a power of ten from `1e+16` up and below `1e-5`.
-/

namespace Legible.Json.Number

open Numeric

/-- The largest whole number that the digits of a number may build up. -/
def significandLimit : Nat := UInt64.size - 1

/-- Takes digits into `significand` while it stays within the limit; also counts
the digits taken. -/
def accumulate (significand : Nat) : List Char → Nat × Nat
  | [] => (significand, 0)
  | digit :: rest =>
      let next := 10 * significand + (digit.toNat - '0'.toNat)
      if next ≤ significandLimit then
        let (value, taken) := accumulate next rest
        (value, taken + 1)
      else (significand, 0)

/-- The float nearest to `10 ^ power`. -/
def powerOfTen (power : Nat) : Float :=
  Float.ofScientific 1 false power

/-- Divides by a power of ten in steps of at most `10 ^ 308`. Three steps take
every significand to zero. -/
def scaleDown : Nat → Float → Nat → Float
  | 0, _, _ => 0
  | steps + 1, value, power =>
      if power ≤ 308 then value / powerOfTen power
      else scaleDown steps (value / powerOfTen 308) (power - 308)

/-- The significand times a power of ten, refused beyond the largest float. -/
def scale? (significand : Nat) (power : Int) : Option Float :=
  let value := Float.ofNat significand
  match power with
  | .ofNat up =>
      if up ≤ 308 then
        let scaled := value * powerOfTen up
        if scaled == infinity then none else some scaled
      else if significand = 0 then some value
      else none
  | .negSucc down => some (scaleDown 4 value (down + 1))

/-- The parts of a written number. -/
structure Parts where
  negative : Bool
  whole : List Char
  places : Option (List Char)
  power : Option Int

/-- The float that the parts spell. -/
def Parts.toFloat? (parts : Parts) : Option Float :=
  let (upper, takenWhole) := accumulate 0 parts.whole
  let (significand, takenPlaces) := accumulate upper (parts.places.getD [])
  let dropped := Int.ofNat parts.whole.length - Int.ofNat takenWhole
  let power := dropped - Int.ofNat takenPlaces + parts.power.getD 0
  (scale? significand power).map fun value => if parts.negative then -value else value

/-- The number that the parts spell. -/
def Parts.toNumber? (parts : Parts) : Option Number :=
  let value := Decimal.ofDigits parts.whole
  if parts.places.isSome || parts.power.isSome || decide (significandLimit < value) then
    parts.toFloat?.map .real
  else if !parts.negative then some (.integer (Int.ofNat value))
  else if value = 0 ∨ UInt64.size / 2 < value then some (.real (-Float.ofNat value))
  else some (.integer (-Int.ofNat value))

/-- The digits before the point: a lone zero, or digits that start with another. -/
def whole? (characters : List Char) : Option (List Char × List Char) :=
  let digits := characters.takeWhile Char.isDigit
  let rest := characters.dropWhile Char.isDigit
  match digits with
  | [] => none
  | '0' :: _ :: _ => none
  | digits => some (digits, rest)

/-- The point and the digits after it, when there is a point. -/
def places? (characters : List Char) : Option (Option (List Char) × List Char) :=
  match characters with
  | '.' :: rest =>
      let digits := rest.takeWhile Char.isDigit
      if digits.isEmpty then none else some (some digits, rest.dropWhile Char.isDigit)
  | rest => some (none, rest)

/-- The digits of a power of ten after its sign. -/
def magnitude? (negative : Bool) (characters : List Char) : Option (Option Int × List Char) :=
  let digits := characters.takeWhile Char.isDigit
  let size := Int.ofNat (Decimal.ofDigits digits)
  if digits.isEmpty then none
  else some (some (if negative then -size else size), characters.dropWhile Char.isDigit)

/-- The power of ten, when there is one. -/
def power? (characters : List Char) : Option (Option Int × List Char) :=
  match characters with
  | mark :: rest =>
      if mark = 'e' ∨ mark = 'E' then
        match rest with
        | '-' :: digits => magnitude? true digits
        | '+' :: digits => magnitude? false digits
        | digits => magnitude? false digits
      else some (none, characters)
  | [] => some (none, [])

/-- Reads a number at the front of the text. -/
def read? (characters : List Char) : Option (Number × List Char) := do
  let (negative, unsigned) :=
    match characters with
    | '-' :: rest => (true, rest)
    | rest => (false, rest)
  let (whole, afterWhole) ← whole? unsigned
  let (places, afterPlaces) ← places? afterWhole
  let (power, rest) ← power? afterPlaces
  let numeral ← (Parts.mk negative whole places power).toNumber?
  pure (numeral, rest)

/-- The digits of a positive float with its point or power of ten. -/
def layout (value : Scientific) : List Char :=
  let digits := Decimal.toDigits value.digits
  let point := Int.ofNat digits.length + value.exponent
  if 0 ≤ value.exponent ∧ point ≤ 16 then
    digits ++ List.replicate value.exponent.toNat '0' ++ ['.', '0']
  else if 0 < point ∧ point ≤ 16 then
    digits.take point.toNat ++ '.' :: digits.drop point.toNat
  else if -5 < point ∧ point ≤ 0 then
    ['0', '.'] ++ List.replicate (-point).toNat '0' ++ digits
  else
    let power := point - 1
    let sign := if power < 0 then '-' else '+'
    let places := digits.drop 1
    digits.take 1 ++ (if places.isEmpty then [] else '.' :: places) ++
      ['e', sign] ++ Decimal.toDigits power.natAbs

/-- The text of a float; a float without a JSON form is `null`. -/
def floatText (value : Float) : String :=
  match Binary.ofFloat value with
  | .finite negative mantissa exponent =>
      let sign := if negative then "-" else ""
      if mantissa = 0 then sign ++ "0.0"
      else sign ++ String.ofList (layout (Scientific.shortest .toEven value.abs mantissa exponent))
  | _ => "null"

/-- The text of a number. -/
def render : Number → String
  | .integer value => toString value
  | .real value => floatText value

end Legible.Json.Number
