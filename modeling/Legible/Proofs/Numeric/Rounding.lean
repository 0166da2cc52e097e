import Mathlib
import Legible.Numeric.Decimal

/-!
# Correct rounding

A float operation keeps the leading bits of its exact result and what it has to know about the
rest. Rounding sees nothing else than the number for which these stand: computations with the same
exact result give the same float. The float nearest to a decimal number is one of them.
-/

namespace Legible.Numeric

open Float.Model Float.Model.UnpackedFloat

/-! ## Guard bits -/

/-- The halves of a unit that a mantissa and its round bit count. -/
def halves (extended : ExtendedMantissa) : ℕ := 2 * extended.mantissa + extended.roundBit.toNat

/-- A mantissa with its guard bits stands for a number: for so many halves exactly, or for a number
before the next half when the sticky bit is set. -/
def Guards (extended : ExtendedMantissa) (number : ℚ) : Prop :=
  if extended.stickyBit then halves extended < 2 * number ∧ 2 * number < halves extended + 1
  else 2 * number = halves extended

namespace Guards

variable {extended other : ExtendedMantissa} {number : ℚ}

theorem le (guards : Guards extended number) : (halves extended : ℚ) ≤ 2 * number := by
  rw [Guards] at guards
  split at guards
  · exact guards.1.le
  · exact guards.ge

theorem lt (guards : Guards extended number) : 2 * number < (halves extended : ℚ) + 1 := by
  rw [Guards] at guards
  split at guards
  · exact guards.2
  · rw [guards]
    exact lt_add_one _

/-- The number has one mantissa with guard bits that stands for it. -/
theorem unique (guards : Guards extended number) (guards' : Guards other number) :
    extended = other := by
  have counted : halves extended = halves other := by
    have below : (halves extended : ℚ) < halves other + 1 := guards.le.trans_lt guards'.lt
    have above : (halves other : ℚ) < halves extended + 1 := guards'.le.trans_lt guards.lt
    norm_cast at below above
    omega
  have sticky : extended.stickyBit = other.stickyBit := by
    rw [Guards] at guards guards'
    rw [counted] at guards
    split at guards <;> split at guards' <;> simp_all
  obtain ⟨mantissa, round, sticky'⟩ := extended
  obtain ⟨mantissa', round', sticky''⟩ := other
  cases sticky
  have : mantissa = mantissa' ∧ round = round' := by
    cases round <;> cases round' <;> simp [halves] at counted ⊢ <;> omega
  rw [this.1, this.2]

/-- The mantissa is the whole part of the number. -/
theorem mantissa_le (guards : Guards extended number) : (extended.mantissa : ℚ) ≤ number := by
  have := guards.le
  rw [halves] at this
  push_cast at this
  have : (0 : ℚ) ≤ (extended.roundBit.toNat : ℚ) := Nat.cast_nonneg _
  linarith

theorem lt_mantissa (guards : Guards extended number) : number < (extended.mantissa : ℚ) + 1 := by
  have := guards.lt
  rw [halves] at this
  push_cast at this
  have : (extended.roundBit.toNat : ℚ) ≤ 1 := by exact_mod_cast Bool.toNat_le _
  linarith

/-- Shifting by one place halves the number. -/
theorem shiftRightOne (guards : Guards extended number) :
    Guards extended.shiftRightOne (number / 2) := by
  obtain ⟨mantissa, round, sticky⟩ := extended
  have counted : halves (ExtendedMantissa.shiftRightOne ⟨mantissa, round, sticky⟩) = mantissa := by
    have parity : (mantissa % 2 != 0).toNat = mantissa % 2 := by
      rcases Nat.mod_two_eq_zero_or_one mantissa with even | odd
      · rw [even]
        rfl
      · rw [odd]
        rfl
    simp only [halves, ExtendedMantissa.shiftRightOne, parity]
    omega
  rw [Guards, counted, mul_div_cancel₀ _ two_ne_zero]
  cases round <;> cases sticky <;>
    simp [Guards, halves, ExtendedMantissa.shiftRightOne] at guards ⊢
  · exact guards
  · constructor <;> linarith
  · constructor <;> linarith
  · constructor <;> linarith

/-- Shifting divides the number by a power of two. -/
theorem shiftRight (guards : Guards extended number) (count : ℕ) :
    Guards (extended >>> count) (number / 2 ^ count) := by
  change Guards (Nat.repeat ExtendedMantissa.shiftRightOne count extended) _
  induction count with
  | zero => simpa [Nat.repeat] using guards
  | succ count inductionHypothesis =>
      rw [Nat.repeat, pow_succ, ← div_div]
      exact inductionHypothesis.shiftRightOne

/-- A quotient with its remainder stands for the fraction. -/
theorem fraction {numerator denominator : ℕ} (positive : 0 < denominator) :
    Guards (.ofMantissaAndAccuracy (numerator / denominator)
      (accuracyOfFraction (numerator % denominator) denominator))
      ((numerator : ℚ) / denominator) := by
  have divided : (denominator : ℚ) * (numerator / denominator : ℕ) + (numerator % denominator : ℕ) =
      numerator := by exact_mod_cast Nat.div_add_mod numerator denominator
  have small := Nat.mod_lt numerator positive
  have pos : (0 : ℚ) < denominator := by exact_mod_cast positive
  generalize numerator / denominator = quotient at divided ⊢
  generalize numerator % denominator = rest at divided small ⊢
  have value : (numerator : ℚ) / denominator = quotient + rest / denominator := by
    rw [← divided]
    field_simp
  rw [value, accuracyOfFraction]
  split
  · next zero => simp [Guards, halves, ExtendedMantissa.ofMantissaAndAccuracy, zero]
  · next present =>
      have present : (0 : ℚ) < rest := by exact_mod_cast Nat.pos_of_ne_zero present
      have small : (rest : ℚ) < denominator := by exact_mod_cast small
      have share : (0 : ℚ) < rest / denominator := by positivity
      have whole : (rest : ℚ) / denominator < 1 := (div_lt_one pos).2 small
      cases side : compare (2 * rest) denominator with
      | lt =>
          have side : (2 * rest : ℚ) < denominator := by exact_mod_cast compare_lt_iff_lt.1 side
          have half : 2 * ((rest : ℚ) / denominator) < 1 := by
            rw [← mul_div_assoc]
            exact (div_lt_one pos).2 side
          simp [Guards, halves, ExtendedMantissa.ofMantissaAndAccuracy]
          constructor <;> linarith
      | eq =>
          have side : (2 * rest : ℚ) = denominator := by exact_mod_cast compare_eq_iff_eq.1 side
          have half : 2 * ((rest : ℚ) / denominator) = 1 := by
            rw [← mul_div_assoc, side]
            exact div_self pos.ne'
          simp [Guards, halves, ExtendedMantissa.ofMantissaAndAccuracy]
          linarith
      | gt =>
          have side : (denominator : ℚ) < 2 * rest := by exact_mod_cast compare_gt_iff_gt.1 side
          have half : 1 < 2 * ((rest : ℚ) / denominator) := by
            rw [← mul_div_assoc]
            exact (one_lt_div pos).2 side
          simp [Guards, halves, ExtendedMantissa.ofMantissaAndAccuracy]
          constructor <;> linarith

end Guards

/-! ## The place that is rounded at -/

/-- The exponent of the last bit that a float keeps of a positive number. -/
def lastPlace (number : ℚ) : ℤ := max (Int.log 2 number + 1 - 53) (-1074)

/-- The leading bit of a number is that of its whole part. -/
theorem log_eq_of_whole {number : ℚ} {mantissa : ℕ} {exponent : ℤ} (present : mantissa ≠ 0)
    (above : (mantissa : ℚ) ≤ number / 2 ^ exponent)
    (below : number / 2 ^ exponent < (mantissa : ℚ) + 1) :
    Int.log 2 number = mantissa.log2 + exponent := by
  have unit : (0 : ℚ) < 2 ^ exponent := by positivity
  have leading : ((2 : ℕ) : ℚ) ^ ((mantissa.log2 : ℤ) + exponent) ≤ number := by
    rw [Nat.cast_ofNat, zpow_add₀ two_ne_zero, zpow_natCast, ← le_div_iff₀ unit]
    exact le_trans (by exact_mod_cast Nat.log2_self_le present) above
  have next : number < ((2 : ℕ) : ℚ) ^ ((mantissa.log2 : ℤ) + exponent + 1) := by
    have whole : (mantissa : ℚ) + 1 ≤ 2 ^ (mantissa.log2 + 1) := by
      exact_mod_cast Nat.succ_le_of_lt (@Nat.lt_log2_self mantissa)
    rw [Nat.cast_ofNat, add_right_comm, zpow_add₀ two_ne_zero, ← Nat.cast_succ, zpow_natCast,
      ← div_lt_iff₀ unit]
    exact below.trans_le whole
  have positive : 0 < number := lt_of_lt_of_le (by positivity) leading
  rw [Int.zpow_le_iff_le_log (by decide) positive] at leading
  rw [Int.lt_zpow_iff_log_lt (by decide) positive] at next
  omega

/-- A mantissa, an exponent and an accuracy that stand for a number and reach at least to the
place that it is rounded at. -/
structure Stands (number : ℚ) (mantissa : ℕ) (exponent : ℤ) (accuracy : Accuracy) : Prop where
  guards : Guards (.ofMantissaAndAccuracy mantissa accuracy) (number / 2 ^ exponent)
  reaches : exponent ≤ lastPlace number

namespace Stands

variable {number : ℚ} {mantissa mantissa' : ℕ} {exponent exponent' : ℤ}
  {accuracy accuracy' : Accuracy}

/-- A whole multiple of a unit stands for itself. -/
theorem exact (reaches : exponent ≤ lastPlace (mantissa * 2 ^ exponent)) :
    Stands (mantissa * 2 ^ exponent) mantissa exponent .exact where
  guards := by
    rw [mul_div_cancel_right₀ _ (zpow_ne_zero _ two_ne_zero)]
    simp [Guards, halves, ExtendedMantissa.ofMantissaAndAccuracy]
  reaches := reaches

/-- The place is found from the mantissa and the exponent alone. -/
theorem targetExponent_eq (stands : Stands number mantissa exponent accuracy)
    (positive : 0 < number) :
    Format.binary64.targetExponent (totalExponent mantissa exponent) = lastPlace number := by
  have same : (ExtendedMantissa.ofMantissaAndAccuracy mantissa accuracy).mantissa = mantissa := by
    rcases accuracy with _ | _ | _ | _ <;> rfl
  have above := stands.guards.mantissa_le
  have below := stands.guards.lt_mantissa
  have reaches := stands.reaches
  rw [same] at above below
  change max (totalExponent mantissa exponent - 53) (-1074) = _
  rw [totalExponent, lastPlace] at *
  by_cases zero : mantissa = 0
  · -- The number lies below the unit, so that only the lowest place of all can be reached.
    have small : Int.log 2 number < exponent := by
      rw [← Int.lt_zpow_iff_log_lt (by decide) positive]
      simpa [zero, div_lt_one (show (0 : ℚ) < 2 ^ exponent by positivity)] using below
    rw [zero, Nat.log2_zero]
    omega
  · rw [log_eq_of_whole zero above below]
    omega

/-- Shifting to the place that is rounded at leaves what only depends on the number. -/
theorem shiftToTargetExponent_eq (stands : Stands number mantissa exponent accuracy)
    (stands' : Stands number mantissa' exponent' accuracy') (positive : 0 < number) :
    shiftToTargetExponent Format.binary64 mantissa exponent accuracy =
      shiftToTargetExponent Format.binary64 mantissa' exponent' accuracy' := by
  -- Each of the two is shifted to the same place; there only one mantissa stands for the number.
  have shifted {mantissa : ℕ} {exponent : ℤ} {accuracy : Accuracy}
      (stands : Stands number mantissa exponent accuracy) :
      ∃ extended, Guards extended (number / 2 ^ lastPlace number) ∧
        shiftToTargetExponent Format.binary64 mantissa exponent accuracy =
          (extended, lastPlace number) := by
    obtain ⟨count, distance⟩ := Int.eq_ofNat_of_zero_le (Int.sub_nonneg.2 stands.reaches)
    have place : lastPlace number = exponent + count := by omega
    refine ⟨ExtendedMantissa.ofMantissaAndAccuracy mantissa accuracy >>> count, ?_, ?_⟩
    · rw [place, zpow_add₀ two_ne_zero, zpow_natCast, ← div_div]
      exact stands.guards.shiftRight count
    · rw [shiftToTargetExponent, stands.targetExponent_eq positive, shiftToExponent, distance,
        Int.toNat_natCast, ← place]
  obtain ⟨extended, guards, shift⟩ := shifted stands
  obtain ⟨extended', guards', shift'⟩ := shifted stands'
  rw [shift, shift', guards.unique guards']

/-- Rounding depends on the number only. -/
theorem roundWithAccuracy_eq (stands : Stands number mantissa exponent accuracy)
    (stands' : Stands number mantissa' exponent' accuracy') (positive : 0 < number) (sign : Sign) :
    roundWithAccuracy Format.binary64 sign mantissa exponent accuracy =
      roundWithAccuracy Format.binary64 sign mantissa' exponent' accuracy' := by
  rw [roundWithAccuracy, roundWithAccuracy, stands.shiftToTargetExponent_eq stands' positive]

end Stands

/-! ## Correct rounding -/

/-- An unpacked float is a number, correctly rounded. -/
def Rounds (number : ℚ) (result : UnpackedFloat) : Prop :=
  ∃ mantissa exponent accuracy, Stands number mantissa exponent accuracy ∧
    result = roundWithAccuracy Format.binary64 .positive mantissa exponent accuracy

/-- A float is the one nearest to a number. -/
def IsNearest (number : ℚ) (float : Float) : Prop :=
  ∃ result, Rounds number result ∧ float.toModel = .pack result

/-- A number has one nearest float. -/
theorem IsNearest.unique {number : ℚ} {float float' : Float} (nearest : IsNearest number float)
    (nearest' : IsNearest number float') (positive : 0 < number) : float = float' := by
  obtain ⟨_, ⟨mantissa, exponent, accuracy, stands, rfl⟩, packed⟩ := nearest
  obtain ⟨_, ⟨mantissa', exponent', accuracy', stands', rfl⟩, packed'⟩ := nearest'
  cases float
  cases float'
  rw [stands.roundWithAccuracy_eq stands' positive, ← packed'] at packed
  exact congrArg Float.ofModel packed

namespace Rounds

variable {mantissa mantissa' : ℕ} {exponent exponent' : ℤ}

/-- The leading bit of a whole multiple of a unit. -/
theorem log_mul_zpow (present : 0 < mantissa) :
    Int.log 2 (mantissa * 2 ^ exponent : ℚ) = mantissa.log2 + exponent := by
  have whole : (mantissa * 2 ^ exponent : ℚ) / 2 ^ exponent = mantissa :=
    mul_div_cancel_right₀ _ (zpow_ne_zero _ two_ne_zero)
  exact log_eq_of_whole present.ne' whole.ge (by rw [whole]; exact lt_add_one _)

/-- A product of enough bits is the exact product, correctly rounded. -/
theorem mul (present : 0 < mantissa) (present' : 0 < mantissa')
    (bits : 2 ^ 52 ≤ mantissa * mantissa') :
    Rounds (mantissa * 2 ^ exponent * (mantissa' * 2 ^ exponent'))
      (UnpackedFloat.mul Format.binary64 (.finite .positive mantissa exponent present)
        (.finite .positive mantissa' exponent' present')) := by
  have product : (mantissa * 2 ^ exponent * (mantissa' * 2 ^ exponent') : ℚ) =
      (mantissa * mantissa' : ℕ) * 2 ^ (exponent + exponent') := by
    rw [zpow_add₀ two_ne_zero]
    push_cast
    ring
  have leading : 52 ≤ (mantissa * mantissa').log2 :=
    (Nat.le_log2 (Nat.mul_pos present present').ne').2 bits
  refine ⟨mantissa * mantissa', exponent + exponent', .exact, ?_, rfl⟩
  rw [product]
  refine .exact ?_
  rw [lastPlace, log_mul_zpow (Nat.mul_pos present present')]
  omega

/-- The leading bit of a quotient lies at most one place before the difference of the leading
bits. -/
theorem log_div (present : 0 < mantissa) (present' : 0 < mantissa') :
    totalExponent mantissa exponent - totalExponent mantissa' exponent' ≤
      Int.log 2 (mantissa * 2 ^ exponent / (mantissa' * 2 ^ exponent') : ℚ) + 1 := by
  have positive : (0 : ℚ) < mantissa := by exact_mod_cast present
  have positive' : (0 : ℚ) < mantissa' := by exact_mod_cast present'
  have least : ((2 : ℕ) : ℚ) ^ (mantissa.log2 + exponent) ≤ mantissa * 2 ^ exponent := by
    rw [Int.zpow_le_iff_le_log (by decide) (by positivity), log_mul_zpow present]
  have most : (mantissa' * 2 ^ exponent' : ℚ) <
      ((2 : ℕ) : ℚ) ^ (mantissa'.log2 + exponent' + 1) := by
    rw [Int.lt_zpow_iff_log_lt (by decide) (by positivity), log_mul_zpow present']
    exact lt_add_one _
  have quotient : ((2 : ℕ) : ℚ) ^ (mantissa.log2 + exponent - (mantissa'.log2 + exponent' + 1)) ≤
      mantissa * 2 ^ exponent / (mantissa' * 2 ^ exponent') := by
    rw [zpow_sub₀ (by norm_num)]
    exact div_le_div₀ (by positivity) least (by positivity) most.le
  rw [Int.zpow_le_iff_le_log (by decide) (by positivity)] at quotient
  rw [totalExponent, totalExponent]
  omega

/-- A quotient is the exact quotient, correctly rounded. -/
theorem div (present : 0 < mantissa) (present' : 0 < mantissa') :
    Rounds (mantissa * 2 ^ exponent / (mantissa' * 2 ^ exponent'))
      (UnpackedFloat.div Format.binary64 (.finite .positive mantissa exponent present)
        (.finite .positive mantissa' exponent' present')) := by
  -- The exponent that the quotient is computed at, and the shift that reaches it.
  obtain ⟨place, placed⟩ : ∃ place, place = min (exponent - exponent')
    (Format.binary64.targetExponent
      (totalExponent mantissa exponent - totalExponent mantissa' exponent')) := ⟨_, rfl⟩
  obtain ⟨count, distance⟩ : ∃ count : ℕ, exponent - exponent' - place = count :=
    Int.eq_ofNat_of_zero_le (by omega)
  refine ⟨(mantissa <<< count) / mantissa', place,
    accuracyOfFraction ((mantissa <<< count) % mantissa') mantissa', ⟨?_, ?_⟩, ?_⟩
  · have shifted : (mantissa * 2 ^ exponent / (mantissa' * 2 ^ exponent') : ℚ) / 2 ^ place =
        (mantissa <<< count : ℕ) / mantissa' := by
      have scale : (2 : ℚ) ^ exponent = 2 ^ exponent' * 2 ^ place * 2 ^ count := by
        rw [← zpow_natCast, ← zpow_add₀ two_ne_zero, ← zpow_add₀ two_ne_zero]
        congr 1
        omega
      rw [scale, Nat.shiftLeft_eq]
      push_cast
      field_simp
    rw [shifted]
    exact .fraction present'
  · have leading := @log_div _ _ exponent exponent' present present'
    rw [lastPlace]
    change place = min _ (max (_ - 53) (-1074)) at placed
    omega
  · rw [UnpackedFloat.div, divCore, ← placed, distance]
    rfl

end Rounds

end Legible.Numeric
