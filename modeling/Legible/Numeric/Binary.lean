/-!
# Binary64 numbers as exact integers

Every finite binary64 number is a whole number of quanta, one quantum being
`2 ^ (-1074)`, with at most 53 significant bits. This module decodes a `Float`
into that form and rounds a whole number to the nearest one that has a binary64
form. The modules that blend and print numbers work on these integers; nothing
here depends on a floating-point operation.
-/

namespace Legible.Numeric

/-- What the bits of a `Float` denote. -/
inductive Binary where
  | nan
  | infinite (negative : Bool)
  /-- The value `mantissa * 2 ^ exponent` under the given sign. -/
  | finite (negative : Bool) (mantissa : Nat) (exponent : Int)
  deriving DecidableEq, Repr

namespace Binary

/-- Reads the sign, exponent and fraction fields of a `Float`. -/
def ofFloat (number : Float) : Binary :=
  let bits := number.toBits.toNat
  let negative := decide (Nat.pow 2 63 ≤ bits)
  let biased := bits / Nat.pow 2 52 % Nat.pow 2 11
  let fraction := bits % Nat.pow 2 52
  if biased = 2047 then
    if fraction = 0 then .infinite negative else .nan
  else if biased = 0 then
    .finite negative fraction (-1074)
  else
    .finite negative (Nat.pow 2 52 + fraction) (Int.ofNat biased - 1075)

/-- The magnitude of a finite number as a numerator and a denominator. -/
def fraction (mantissa : Nat) (exponent : Int) : Nat × Nat :=
  match exponent with
  | .ofNat up => (mantissa * Nat.pow 2 up, 1)
  | .negSucc down => (mantissa, Nat.pow 2 (down + 1))

end Binary

/-- How many quanta one whole unit has. -/
def quantaPerUnit : Nat := Nat.pow 2 1074

/-- The magnitude of a finite `Float` in quanta; other floats count as zero. -/
def quanta (number : Float) : Nat :=
  match Binary.ofFloat number with
  | .finite _ mantissa exponent => mantissa * Nat.pow 2 (exponent + 1074).toNat
  | _ => 0

/-- `value` divided by `unit`, to the nearest whole number; a tie goes to the
even neighbour. -/
def roundDiv (value unit : Nat) : Nat :=
  let quotient := value / unit
  let doubled := 2 * (value % unit)
  if unit < doubled ∨ (unit = doubled ∧ quotient % 2 = 1) then quotient + 1 else quotient

/-- The nearest number with at most 53 significant bits; a tie goes to the
number whose last significant bit is zero. -/
def roundSignificant (value : Nat) : Nat :=
  let unit := Nat.pow 2 (value.log2 + 1 - 53)
  roundDiv value unit * unit

/-- Rounding to a whole multiple of one changes nothing. -/
@[simp] theorem roundDiv_one (value : Nat) : roundDiv value 1 = value := by
  simp [roundDiv, Nat.mod_one]

/-- A number of at most 53 bits is already rounded. -/
theorem roundSignificant_of_lt {value : Nat} (small : value < Nat.pow 2 53) :
    roundSignificant value = value := by
  have bits : value.log2 + 1 - 53 = 0 := by
    by_cases zero : value = 0
    · simp [zero]
    · have := (Nat.log2_lt zero).2 small
      omega
  simp [roundSignificant, bits]

end Legible.Numeric
