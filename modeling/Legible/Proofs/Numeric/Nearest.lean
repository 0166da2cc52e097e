import Mathlib
import Legible.Proofs.Numeric.Digits
import Legible.Proofs.Numeric.Packing

/-!
# The float nearest to a decimal number

What is read from a decimal number is the float nearest to its value, whichever way it is computed.
So the same value written with other digits gives the same float.
-/

namespace Legible.Numeric

open Float.Model Float.Model.UnpackedFloat

/-! ## Exact operands -/

/-- A float keeps a positive number exactly, with all bits of its mantissa. -/
def Keeps (float : Float) (number : ℚ) : Prop :=
  ∃ mantissa exponent present,
    float.toModel.unpack = .finite .positive mantissa exponent present ∧ 2 ^ 52 ≤ mantissa ∧
      (mantissa * 2 ^ exponent : ℚ) = number

namespace Keeps

variable {left right : Float} {first second : ℚ}

/-- The product of kept numbers is correctly rounded. -/
theorem mul (keeps : Keeps left first) (keeps' : Keeps right second) :
    IsNearest (first * second) (left * right) := by
  obtain ⟨mantissa, exponent, present, unpacked, full, rfl⟩ := keeps
  obtain ⟨mantissa', exponent', present', unpacked', -, rfl⟩ := keeps'
  refine ⟨_, .mul present present' (full.trans (Nat.le_mul_of_pos_right _ present')), ?_⟩
  rw [← unpacked, ← unpacked']
  rfl

/-- The quotient of kept numbers is correctly rounded. -/
theorem div (keeps : Keeps left first) (keeps' : Keeps right second) :
    IsNearest (first / second) (left / right) := by
  obtain ⟨mantissa, exponent, present, unpacked, -, rfl⟩ := keeps
  obtain ⟨mantissa', exponent', present', unpacked', -, rfl⟩ := keeps'
  refine ⟨_, .div present present', ?_⟩
  rw [← unpacked, ← unpacked']
  rfl

/-- A float whose fields are full keeps its number. -/
theorem of_ofFloat {float : Float} {mantissa : ℕ} {exponent : ℤ}
    (finite : Binary.ofFloat float = .finite false mantissa exponent) (full : 2 ^ 52 ≤ mantissa) :
    Keeps float (mantissa * 2 ^ exponent) :=
  ⟨mantissa, exponent, by omega, unpack_of_ofFloat finite _, full, rfl⟩

/-- A whole number shifted so that its leading bit is the first one of a mantissa. -/
theorem isCanonical_shiftLeft {number count : ℕ} (present : 0 < number)
    (bits : number.log2 + count = 52) : IsCanonical (number <<< count) (0 - count) := by
  have leading := Nat.mul_le_mul_right (2 ^ count) (Nat.log2_self_le present.ne')
  have next := Nat.mul_lt_mul_of_pos_right (@Nat.lt_log2_self number)
    (Nat.two_pow_pos count)
  rw [← pow_add, bits] at leading
  rw [← pow_add, add_right_comm, bits] at next
  rw [Nat.shiftLeft_eq]
  exact ⟨by positivity, next, .inl leading, by omega, by omega⟩

/-- A whole number of at most 53 bits is kept. -/
theorem toFloat {number : ℕ} (present : 0 < number) (small : number < 2 ^ 53) :
    Keeps number.toUInt64.toFloat number := by
  obtain ⟨count, bits⟩ : ∃ count, number.log2 + count = 52 :=
    (Nat.exists_eq_add_of_le (Nat.le_of_lt_succ ((Nat.log2_lt present.ne').2 small))).imp
      fun _ => Eq.symm
  have canonical := isCanonical_shiftLeft present bits
  have full : 2 ^ 52 ≤ number <<< count := canonical.full.resolve_right (by omega)
  have converted : UnpackedFloat.ofUInt64 Format.binary64 number.toUInt64 =
      .finite .positive (number <<< count) (0 - count) canonical.present := by
    have whole : number.toUInt64.toNat = number := Nat.mod_eq_of_lt (by omega)
    have target : (0 - Format.binary64.targetExponent (totalExponent number 0)).toNat = count := by
      change (0 - max ((number.log2 : ℤ) + 1 + 0 - 53) (-1074)).toNat = count
      omega
    have positive : compare (number : ℤ) 0 = .gt := compare_gt_iff_gt.2 (by omega)
    rw [UnpackedFloat.ofUInt64, whole, UnpackedFloat.ofNat, UnpackedFloat.ofInt,
      UnpackedFloat.normalize, positive]
    simp only [Int.toNat_natCast, UnpackedFloat.round, decreaseExponent, target]
    exact canonical.roundWithAccuracy_eq _
  refine ⟨number <<< count, 0 - count, canonical.present, ?_, full, ?_⟩
  · change (Float.Model.pack (UnpackedFloat.ofUInt64 Format.binary64 number.toUInt64)).unpack = _
    rw [converted]
    exact unpack_pack _ canonical full
  · rw [Nat.shiftLeft_eq, zero_sub, zpow_neg, zpow_natCast]
    push_cast
    field_simp

/-- The fields of the powers of ten in the table. -/
theorem ofFloat_powerOfTen : ∀ power : Fin Float.exactlyRepresentablePowersOfTen.size,
    Binary.ofFloat Float.exactlyRepresentablePowersOfTen[power] =
        .finite false (10 ^ power.val * 2 ^ 52 / 2 ^ (10 ^ power.val).log2)
          ((10 ^ power.val).log2 - 52) ∧
      2 ^ (10 ^ power.val).log2 ∣ 10 ^ power.val * 2 ^ 52 := by
  decide +kernel

/-- The powers of ten of the table are kept. -/
theorem powerOfTen {power : ℕ} (listed : power < Float.exactlyRepresentablePowersOfTen.size) :
    Keeps Float.exactlyRepresentablePowersOfTen[power] (10 ^ power) := by
  obtain ⟨fields, whole⟩ := ofFloat_powerOfTen ⟨power, listed⟩
  have present : 10 ^ power ≠ 0 := by positivity
  have full : 2 ^ 52 ≤ 10 ^ power * 2 ^ 52 / 2 ^ (10 ^ power).log2 := by
    rw [Nat.le_div_iff_mul_le (by positivity), mul_comm]
    exact Nat.mul_le_mul_right _ (Nat.log2_self_le present)
  have value : ((10 ^ power * 2 ^ 52 / 2 ^ (10 ^ power).log2 : ℕ) : ℚ) *
      2 ^ (((10 ^ power).log2 : ℤ) - 52) = 10 ^ power := by
    rw [Nat.cast_div whole (by positivity), zpow_sub₀ two_ne_zero, zpow_natCast]
    push_cast
    field_simp
  rw [← value]
  exact of_ofFloat fields full

end Keeps

/-! ## Decimal numbers -/

section

variable {significand power : ℕ}

/-- A whole number times a power of ten is correctly rounded. -/
theorem rounds_ofScientific (present : 0 < significand) (bounded : power ≤ 2 ^ 11) :
    Rounds (significand * 10 ^ power)
      (UnpackedFloat.ofScientific Format.binary64 significand power) := by
  -- The significand is shifted up beforehand, so that the product fills a mantissa.
  have shifted : (significand * 10 ^ power : ℚ) =
      (significand <<< 53 : ℕ) * 2 ^ (-53 : ℤ) * ((10 ^ power : ℕ) * 2 ^ (0 : ℤ)) := by
    rw [Nat.shiftLeft_eq, zpow_zero, zpow_neg]
    push_cast
    field_simp
  have present' : 0 < significand <<< 53 := by
    rw [Nat.shiftLeft_eq]
    positivity
  have bits : 2 ^ 52 ≤ significand <<< 53 * 10 ^ power := by
    refine le_trans ?_ (Nat.le_mul_of_pos_right _ (by positivity))
    rw [Nat.shiftLeft_eq]
    exact le_trans (by decide) (Nat.le_mul_of_pos_left _ present)
  have tooLarge : ¬ (power : ℤ) > 2 ^ 11 := by omega
  have tooSmall : ¬ (power : ℤ) < -(2 ^ 11 + significand.log2) := by omega
  rw [UnpackedFloat.ofScientific, dif_neg present.ne', if_neg tooLarge, if_neg tooSmall,
    if_pos (Int.natCast_nonneg power), shifted]
  exact .mul present' (by positivity) bits

/-- A whole number divided by a power of ten is correctly rounded. -/
theorem rounds_ofScientific_neg (present : 0 < significand) (divided : 0 < power)
    (bounded : power ≤ 2 ^ 11 + significand.log2) :
    Rounds (significand / 10 ^ power)
      (UnpackedFloat.ofScientific Format.binary64 significand (-power)) := by
  have shifted : (significand / 10 ^ power : ℚ) =
      significand * 2 ^ (0 : ℤ) / ((10 ^ power : ℕ) * 2 ^ (0 : ℤ)) := by
    push_cast
    simp
  have tooLarge : ¬ -(power : ℤ) > 2 ^ 11 := by omega
  have tooSmall : ¬ -(power : ℤ) < -(2 ^ 11 + significand.log2) := by omega
  have negative : ¬ 0 ≤ -(power : ℤ) := by omega
  have magnitude : (- -(power : ℤ)).toNat = power := by omega
  rw [UnpackedFloat.ofScientific, dif_neg present.ne', if_neg tooLarge, if_neg tooSmall,
    if_neg negative, shifted]
  simp only [magnitude]
  exact .div present (by positivity)

/-- A whole number times a power of ten gives the nearest float. -/
theorem isNearest_ofScientific (present : 0 < significand) (bounded : power ≤ 2 ^ 11) :
    IsNearest (significand * 10 ^ power) (Float.ofScientific significand false power) := by
  rw [Float.ofScientific]
  split
  · next fast => exact (Keeps.toFloat present fast.1).mul (.powerOfTen _)
  · exact ⟨_, rounds_ofScientific present bounded, rfl⟩

/-- A whole number divided by a power of ten gives the nearest float. -/
theorem isNearest_ofScientific_neg (present : 0 < significand) (divided : 0 < power)
    (bounded : power ≤ 2 ^ 11 + significand.log2) :
    IsNearest (significand / 10 ^ power) (Float.ofScientific significand true power) := by
  rw [Float.ofScientific]
  split
  · next fast => exact (Keeps.toFloat present fast.1).div (.powerOfTen _)
  · refine ⟨_, rounds_ofScientific_neg present divided bounded, ?_⟩
    have written : Int.negOfNat power = -(power : ℤ) := Int.negOfNat_eq
    rw [← written]
    rfl

end

namespace Decimal

variable {significand significand' : ℕ} {exponent exponent' : ℤ}

/-- The place of the first digit of a decimal number. -/
theorem add_length_eq_log (present : 0 < significand) :
    exponent + Int.ofNat (toDigits significand).length =
      Int.log 10 (significand * 10 ^ exponent : ℚ) + 1 := by
  have positive : (0 : ℚ) < significand := by exact_mod_cast present
  obtain ⟨length, digits⟩ : ∃ length, (toDigits significand).length = length + 1 :=
    Nat.exists_eq_succ_of_ne_zero Nat.length_toDigits_pos.ne'
  have first : ((10 : ℕ) : ℚ) ^ (length + exponent) ≤ significand * 10 ^ exponent := by
    have least := pow_length_le present
    rw [digits, Nat.add_sub_cancel] at least
    rw [zpow_add₀ (by norm_num), zpow_natCast]
    exact mul_le_mul_of_nonneg_right (by exact_mod_cast least) (by positivity)
  have next : (significand * 10 ^ exponent : ℚ) < ((10 : ℕ) : ℚ) ^ (length + exponent + 1) := by
    have most := lt_pow_length significand
    rw [digits] at most
    rw [add_right_comm, zpow_add₀ (by norm_num), ← Nat.cast_succ, zpow_natCast]
    exact mul_lt_mul_of_pos_right (by exact_mod_cast most) (by positivity)
  rw [Int.zpow_le_iff_le_log (by decide) (by positivity)] at first
  rw [Int.lt_zpow_iff_log_lt (by decide) (by positivity)] at next
  rw [digits, Int.ofNat_eq_natCast]
  omega

/-- A number has at most as many decimal digits as binary ones. -/
theorem length_le_log2 (number : ℕ) : (toDigits number).length ≤ number.log2 + 1 := by
  refine (Nat.length_toDigits_le_iff (by decide) (Nat.succ_pos _)).2 ?_
  exact Nat.lt_log2_self.trans_le (Nat.pow_le_pow_left (by decide) _)

/-- No digits other than zeros give zero. -/
@[simp] theorem nearest_zero (exponent : ℤ) : nearest 0 exponent = 0 := by
  rw [nearest.eq_def]
  exact if_pos (.inl rfl)

/-- Numbers far below the least float give zero. -/
theorem nearest_of_lt (small : exponent + Int.ofNat (toDigits significand).length < -400) :
    nearest significand exponent = 0 := by
  rw [nearest.eq_def]
  exact if_pos (.inr small)

/-- Numbers far above the greatest float give infinity. -/
theorem nearest_of_gt (present : 0 < significand)
    (large : 400 < exponent + Int.ofNat (toDigits significand).length) :
    nearest significand exponent = infinity := by
  rw [nearest.eq_def]
  dsimp only
  rw [if_neg (by omega), if_pos large]

/-- In the range that is not decided beforehand, a decimal number gives the nearest float. -/
theorem isNearest_nearest (present : 0 < significand)
    (low : -400 ≤ exponent + Int.ofNat (toDigits significand).length)
    (high : exponent + Int.ofNat (toDigits significand).length ≤ 400) :
    IsNearest (significand * 10 ^ exponent) (nearest significand exponent) := by
  have length := length_le_log2 significand
  rw [nearest.eq_def]
  dsimp only
  rw [if_neg (by omega), if_neg (by omega)]
  rw [Int.ofNat_eq_natCast] at low high
  cases exponent with
  | ofNat up =>
      rw [Int.ofNat_eq_natCast] at high ⊢
      rw [zpow_natCast]
      exact isNearest_ofScientific present (by omega)
  | negSucc down =>
      rw [zpow_negSucc, ← div_eq_mul_inv]
      exact isNearest_ofScientific_neg present (Nat.succ_pos down) (by omega)

/-- Decimal numbers of the same value give the same float. -/
theorem nearest_eq (present : 0 < significand) (present' : 0 < significand')
    (same : (significand * 10 ^ exponent : ℚ) = significand' * 10 ^ exponent') :
    nearest significand exponent = nearest significand' exponent' := by
  -- The value alone says where the first digit stands, and so whether it is decided beforehand.
  have place := @add_length_eq_log _ exponent present
  rw [same, ← add_length_eq_log present'] at place
  by_cases small : exponent + Int.ofNat (toDigits significand).length < -400
  · rw [nearest_of_lt small, nearest_of_lt (by omega)]
  by_cases large : 400 < exponent + Int.ofNat (toDigits significand).length
  · rw [nearest_of_gt present large, nearest_of_gt present' (by omega)]
  · have nearest := isNearest_nearest present (not_lt.1 small) (not_lt.1 large)
    rw [same] at nearest
    have positive : (0 : ℚ) < significand' := by exact_mod_cast present'
    exact nearest.unique (isNearest_nearest present' (by omega) (by omega)) (by positivity)

/-- Zeros behind the digits stand for a power of ten. -/
theorem nearest_mul_pow (significand power : ℕ) :
    nearest (significand * 10 ^ power) 0 = nearest significand power := by
  obtain rfl | present := Nat.eq_zero_or_pos significand
  · simp
  · refine nearest_eq (by positivity) present ?_
    push_cast
    simp

/-- A decimal number with the value of a finite float gives that float back. -/
theorem nearest_eq_of_ofFloat {number : Float} {mantissa : ℕ} {place : ℤ}
    (finite : Binary.ofFloat number = .finite false mantissa place) (present : 0 < mantissa)
    (present' : 0 < significand)
    (same : (significand * 10 ^ exponent : ℚ) = mantissa * 2 ^ place) :
    nearest significand exponent = number := by
  obtain ⟨-, fits, -, least, most⟩ := isCanonical_of_ofFloat finite present
  have log := @add_length_eq_log _ exponent present'
  have positive : (0 : ℚ) < mantissa * 2 ^ place := by
    have : (0 : ℚ) < mantissa := by exact_mod_cast present
    positivity
  rw [same] at log
  have low : -401 ≤ Int.log 10 (mantissa * 2 ^ place : ℚ) := by
    rw [← Int.zpow_le_iff_le_log (by decide) positive]
    have powers : 2 ^ 1074 ≤ 10 ^ 401 := by decide +kernel
    calc ((10 : ℕ) : ℚ) ^ (-401 : ℤ) ≤ 1 * 2 ^ (-1074 : ℤ) := by
          rw [one_mul, zpow_neg, zpow_neg]
          exact inv_anti₀ (by positivity) (by exact_mod_cast powers)
      _ ≤ mantissa * 2 ^ place :=
        mul_le_mul (by exact_mod_cast present) (zpow_le_zpow_right₀ (by norm_num) least)
          (by positivity) (by positivity)
  have high : Int.log 10 (mantissa * 2 ^ place : ℚ) < 400 := by
    rw [← Int.lt_zpow_iff_log_lt (by decide) positive]
    have powers : 2 ^ 53 * 2 ^ 971 < 10 ^ 400 := by decide +kernel
    calc (mantissa * 2 ^ place : ℚ) ≤ 2 ^ 53 * 2 ^ (971 : ℤ) :=
        mul_le_mul (by exact_mod_cast fits.le) (zpow_le_zpow_right₀ (by norm_num) most)
          (by positivity) (by positivity)
      _ < ((10 : ℕ) : ℚ) ^ (400 : ℤ) := by exact_mod_cast powers
  have nearest := @isNearest_nearest _ exponent present' (by omega) (by omega)
  rw [same] at nearest
  exact nearest.unique (isNearest_of_ofFloat finite present) positive

/-! ## Signs -/

theorem isUnsigned_infinity : IsUnsigned infinity := by
  rw [IsUnsigned]
  decide +kernel

/-- The float nearest to a decimal number has no sign. -/
theorem isUnsigned_nearest (significand : ℕ) (exponent : ℤ) :
    IsUnsigned (nearest significand exponent) := by
  have zero : IsUnsigned 0 := by
    rw [IsUnsigned]
    decide +kernel
  obtain rfl | present := Nat.eq_zero_or_pos significand
  · rw [nearest_zero]
    exact zero
  by_cases small : exponent + Int.ofNat (toDigits significand).length < -400
  · rw [nearest_of_lt small]
    exact zero
  by_cases large : 400 < exponent + Int.ofNat (toDigits significand).length
  · rw [nearest_of_gt present large]
    exact isUnsigned_infinity
  · exact .of_isNearest (isNearest_nearest present (not_lt.1 small) (not_lt.1 large))

/-- What is read from a text without a minus in front has no sign. -/
theorem isUnsigned_of_read? {characters : List Char} {number : Float}
    (read : read? characters = some number) (plain : ∀ rest, characters ≠ '-' :: rest) :
    IsUnsigned number := by
  have unsigned {characters : List Char} (read : unsigned? characters = some number) :
      IsUnsigned number := by
    rw [unsigned?] at read
    split at read
    · cases read
      exact isUnsigned_infinity
    split at read
    · cases read
      rw [IsUnsigned]
      decide +kernel
    · obtain ⟨written, places, rest, shape⟩ : ∃ written places rest, digits? characters =
          if List.isEmpty written then none
          else (exponent? rest).map fun exponent =>
            nearest (ofDigits written) (exponent - Int.ofNat places) := ⟨_, _, _, rfl⟩
      rw [shape] at read
      split at read
      · cases read
      · obtain ⟨exponent, -, rfl⟩ := Option.map_eq_some_iff.1 read
        exact isUnsigned_nearest _ _
  rw [read?.eq_def] at read
  split at read
  · exact absurd rfl (plain _)
  · exact unsigned read
  · exact unsigned read

end Decimal

end Legible.Numeric
