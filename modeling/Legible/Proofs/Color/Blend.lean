import Legible.Color.Blend
import Mathlib.Algebra.Group.Nat.Defs

/-!
# Compositing at full opacity

At full opacity nothing of the background is left: a whole channel of quanta has few
significant bits, so none of the roundings changes it. A color that is not blended
therefore measures the same as one composited at an opacity of one.
-/

namespace Legible

namespace Numeric

/-- A whole multiple is its own nearest multiple. -/
theorem roundDiv_mul (value : Nat) {unit : Nat} (positive : 0 < unit) :
    roundDiv (value * unit) unit = value := by
  rw [roundDiv, Nat.mul_mod_left, Nat.mul_div_cancel value positive]
  simp only [Nat.mul_zero]
  rw [if_neg (by omega)]

/-- A number of at most 53 significant bits is already rounded. -/
theorem roundSignificant_mul_pow {significand : Nat} (small : significand < 2 ^ 53)
    (exponent : Nat) : roundSignificant (significand * 2 ^ exponent) = significand * 2 ^ exponent := by
  by_cases zero : significand = 0
  · rw [zero, Nat.zero_mul]
    exact roundSignificant_of_lt (by decide)
  · have nonzero : significand * 2 ^ exponent ≠ 0 :=
      Nat.mul_ne_zero zero (Nat.pos_iff_ne_zero.1 (Nat.two_pow_pos exponent))
    have log : (significand * 2 ^ exponent).log2 < 53 + exponent := by
      rw [Nat.log2_lt nonzero, Nat.pow_add]
      exact Nat.mul_lt_mul_of_pos_right small (Nat.two_pow_pos exponent)
    -- The unit of the rounding is a power of two that divides the whole number.
    obtain ⟨power, same⟩ : ∃ power, (significand * 2 ^ exponent).log2 + 1 - 53 = power := ⟨_, rfl⟩
    obtain ⟨left, split⟩ : ∃ left, exponent = left + power :=
      ⟨exponent - power, (Nat.sub_add_cancel (by omega)).symm⟩
    have multiple : significand * 2 ^ exponent = significand * 2 ^ left * 2 ^ power := by
      rw [split, Nat.pow_add, Nat.mul_assoc]
    calc roundSignificant (significand * 2 ^ exponent)
        = roundDiv (significand * 2 ^ exponent) (2 ^ power) * 2 ^ power := by
          rw [← same]
          rfl
      _ = significand * 2 ^ left * 2 ^ power := by
          rw [multiple, roundDiv_mul _ (Nat.two_pow_pos power)]
      _ = significand * 2 ^ exponent := multiple.symm

end Numeric

namespace Color

open Numeric

theorem quantaPerUnit_eq : quantaPerUnit = 2 * 2 ^ 1073 := by
  have double (exponent : Nat) : Nat.pow 2 (exponent + 1) = 2 * 2 ^ exponent := Nat.pow_succ'
  exact double 1073

/-- At full coverage a channel stays as it is. -/
theorem blendChannel_full (foreground background : UInt8) :
    blendChannel quantaPerUnit foreground background = foreground := by
  have bound : foreground.toNat < 256 := foreground.toNat_lt
  have nothing : roundSignificant (quantaPerUnit - quantaPerUnit) = 0 := by
    rw [Nat.sub_self]
    exact roundSignificant_of_lt (by decide)
  have beneath : roundSignificant (background.toNat * 0) = 0 := by
    rw [Nat.mul_zero]
    exact roundSignificant_of_lt (by decide)
  have above : roundSignificant (foreground.toNat * quantaPerUnit) =
      foreground.toNat * quantaPerUnit :=
    roundSignificant_mul_pow (by omega) 1074
  have raised : roundSignificant (foreground.toNat * quantaPerUnit + quantaPerUnit / 2) =
      (2 * foreground.toNat + 1) * 2 ^ 1073 := by
    have sum : foreground.toNat * quantaPerUnit + quantaPerUnit / 2 =
        (2 * foreground.toNat + 1) * 2 ^ 1073 := by
      rw [quantaPerUnit_eq, Nat.mul_div_cancel_left _ (by decide), Nat.add_mul, Nat.one_mul,
        ← Nat.mul_assoc, Nat.mul_comm foreground.toNat 2]
    rw [sum]
    exact roundSignificant_mul_pow (by omega) 1073
  have whole : (2 * foreground.toNat + 1) * 2 ^ 1073 / quantaPerUnit = foreground.toNat := by
    rw [quantaPerUnit_eq, Nat.mul_div_mul_right _ _ (Nat.two_pow_pos _)]
    omega
  simp only [blendChannel, nothing, beneath, Nat.add_zero, above, raised, whole]
  rw [Nat.min_eq_right (by omega), UInt8.ofNat_toNat]

/-- A color composited at full opacity is itself. -/
theorem blendOver_one (foreground background : Color) :
    foreground.blendOver background 1 = foreground := by
  have full : coverage 1 = quantaPerUnit := by
    have atLeast : decide ((1 : Float) ≤ 1) = true := by decide
    rw [coverage, atLeast, Bool.or_true, if_pos rfl]
  simp only [blendOver, full, blendChannel_full]

end Color

end Legible
