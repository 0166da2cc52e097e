import Mathlib
import Legible.Proofs.Numeric.Rounding

/-!
# Floats and their fields

The fields of a float say which number it is, and the float is the one nearest to that number.
-/

namespace Legible.Numeric

open Float.Model Float.Model.UnpackedFloat

/-! ## Mantissas as a float keeps them -/

/-- A positive mantissa and an exponent that a float can keep: all bits are used, or the exponent is
the least one. -/
structure IsCanonical (mantissa : ℕ) (exponent : ℤ) : Prop where
  present : 0 < mantissa
  fits : mantissa < 2 ^ 53
  full : 2 ^ 52 ≤ mantissa ∨ exponent = -1074
  least : -1074 ≤ exponent
  most : exponent ≤ 971

namespace IsCanonical

variable {mantissa : ℕ} {exponent : ℤ}

/-- The last place of the number is that of the mantissa. -/
theorem lastPlace_eq (canonical : IsCanonical mantissa exponent) :
    lastPlace (mantissa * 2 ^ exponent) = exponent := by
  have bits : mantissa.log2 < 53 :=
    (Nat.log2_lt canonical.present.ne').2 canonical.fits
  have leading : 52 ≤ mantissa.log2 ∨ exponent = -1074 :=
    canonical.full.imp_left (Nat.le_log2 canonical.present.ne').2
  have least := canonical.least
  rw [lastPlace, Rounds.log_mul_zpow canonical.present]
  omega

/-- The mantissa stands for its number. -/
theorem stands (canonical : IsCanonical mantissa exponent) :
    Stands (mantissa * 2 ^ exponent) mantissa exponent .exact :=
  .exact canonical.lastPlace_eq.ge

/-- Shifting to the place that is rounded at shifts by nothing. -/
theorem shiftToTargetExponent_eq (canonical : IsCanonical mantissa exponent) :
    shiftToTargetExponent Format.binary64 mantissa exponent .exact =
      (⟨mantissa, false, false⟩, exponent) := by
  have positive : (0 : ℚ) < mantissa := by exact_mod_cast canonical.present
  rw [shiftToTargetExponent, canonical.stands.targetExponent_eq (by positivity),
    canonical.lastPlace_eq, shiftToExponent, Int.sub_self]
  simp only [Int.toNat_zero, Nat.cast_zero, add_zero]
  rfl

/-- Rounding changes nothing. -/
theorem roundWithAccuracy_eq (canonical : IsCanonical mantissa exponent) (sign : Sign) :
    roundWithAccuracy Format.binary64 sign mantissa exponent .exact =
      .finite sign mantissa exponent canonical.present := by
  have same : ExtendedMantissa.roundedMantissa ⟨mantissa, false, false⟩ = mantissa := rfl
  simp only [roundWithAccuracy, canonical.shiftToTargetExponent_eq, same,
    dif_neg canonical.present.ne']

/-- The number is correctly rounded. -/
theorem rounds (canonical : IsCanonical mantissa exponent) :
    Rounds (mantissa * 2 ^ exponent) (.finite .positive mantissa exponent canonical.present) :=
  ⟨mantissa, exponent, .exact, canonical.stands, (canonical.roundWithAccuracy_eq _).symm⟩

end IsCanonical

/-! ## Fields -/

/-- A mantissa behind its implicit bit. -/
theorem toNat_implicit_append (fraction : BitVec 52) :
    (1#1 ++ fraction).toNat = 2 ^ 52 + fraction.toNat := by
  rw [BitVec.toNat_append, ← Nat.shiftLeft_add_eq_or_of_lt fraction.isLt]
  rfl

/-- What a full mantissa is packed to is unpacked to the same. -/
theorem unpack_pack {mantissa : ℕ} {exponent : ℤ} (sign : Sign)
    (canonical : IsCanonical mantissa exponent) (full : 2 ^ 52 ≤ mantissa) :
    (Float.Model.pack (.finite sign mantissa exponent canonical.present)).unpack =
      .finite sign mantissa exponent canonical.present := by
  obtain ⟨present, fits, -, least, most⟩ := canonical
  have bits : mantissa.log2 = 52 := (Nat.log2_eq_iff present.ne').2 ⟨full, fits⟩
  obtain ⟨biased, shift⟩ : ∃ biased : ℕ, exponent + 1075 = biased :=
    Int.eq_ofNat_of_zero_le (by omega)
  have packed : UnpackedFloat.pack Format.binary64 (.finite sign mantissa exponent present) =
      packComponents Format.binary64 sign (BitVec.ofNat 11 biased) (BitVec.ofNat 52 mantissa) := by
    have position : (exponent + (Format.binary64.exponentBias : ℤ) +
        (Format.binary64.mantissaBitsWithoutImplicit : ℤ)).toNat = biased := by
      change (exponent + 1023 + 52).toNat = biased
      omega
    rw [UnpackedFloat.pack]
    simp only [position, bits]
    rw [if_neg (by omega)]
    exact if_pos rfl
  have field : (BitVec.ofNat 11 biased).toNat = biased := by
    rw [BitVec.toNat_ofNat, Nat.mod_eq_of_lt (by omega)]
  have fraction : (1#1 ++ BitVec.ofNat 52 mantissa).toNat = mantissa := by
    rw [toNat_implicit_append, BitVec.toNat_ofNat]
    omega
  have notLast : BitVec.ofNat 11 biased ≠ -1#11 := fun last => by
    have := congrArg BitVec.toNat last
    rw [field] at this
    change biased = 2047 at this
    omega
  have notFirst : BitVec.ofNat 11 biased ≠ 0#11 := fun first => by
    have := congrArg BitVec.toNat first
    rw [field] at this
    change biased = 0 at this
    omega
  change UnpackedFloat.unpack Format.binary64
    (UnpackedFloat.pack Format.binary64 (.finite sign mantissa exponent present)) = _
  rw [packed, UnpackedFloat.unpack]
  simp only [unpackMantissa_packComponents, unpackExponent_packComponents,
    unpackSign_packComponents, Sign.ofBitVec_toBitVec, if_neg notLast, if_neg notFirst, fraction,
    field]
  congr 1
  change (biased : ℤ) - (1023 + 52) = exponent
  omega

/-- What a float is unpacked to is packed to the same float. -/
theorem pack_unpack_toModel (number : Float) :
    Float.Model.pack number.toModel.unpack = number.toModel :=
  congrArg Float.toModel (Float.ofBits_toBits number)

/-- The fields of a float are those that it is unpacked to. -/
theorem ofFloat_eq (number : Float) :
    Binary.ofFloat number =
      match number.toModel.unpack with
      | .notANumber => .nan
      | .infinity sign => .infinite (sign == .negative)
      | .zero sign => .finite (sign == .negative) 0 (-1074)
      | .finite sign mantissa exponent _ => .finite (sign == .negative) mantissa exponent := by
  obtain ⟨bits, represents⟩ : ∃ bits : BitVec 64, bits = number.toModel.toBits.toBitVec := ⟨_, rfl⟩
  have fraction : (@unpackMantissa Format.binary64 bits).toNat = bits.toNat % 2 ^ 52 := by
    rw [unpackMantissa_def, BitVec.extractLsb'_toNat, Nat.shiftRight_zero]
  have biased : (@unpackExponent Format.binary64 bits).toNat =
      bits.toNat / 2 ^ 52 % 2 ^ 11 := by
    rw [unpackExponent_def, BitVec.extractLsb'_toNat, Nat.shiftRight_eq_div_pow]
  have sign : (Sign.ofBitVec (@unpackSign Format.binary64 bits) == .negative) =
      decide (2 ^ 63 ≤ bits.toNat) := by
    have small := bits.isLt
    have top : (@unpackSign Format.binary64 bits).toNat = bits.toNat / 2 ^ 63 := by
      rw [unpackSign_def, BitVec.extractLsb'_toNat, Nat.shiftRight_eq_div_pow]
      change bits.toNat / 2 ^ 63 % 2 = _
      omega
    have flag (sign : BitVec 1) : (Sign.ofBitVec sign == .negative) = decide (sign.toNat = 1) := by
      decide +revert
    rw [flag, top]
    exact decide_eq_decide.2 (by omega)
  have last : @unpackExponent Format.binary64 bits = -1#11 ↔
      bits.toNat / 2 ^ 52 % 2 ^ 11 = 2047 := by
    rw [← BitVec.toNat_inj, biased]
    rfl
  have first : @unpackExponent Format.binary64 bits = 0#11 ↔
      bits.toNat / 2 ^ 52 % 2 ^ 11 = 0 := by
    rw [← BitVec.toNat_inj, biased]
    rfl
  have none : @unpackMantissa Format.binary64 bits = 0#52 ↔
      bits.toNat % 2 ^ 52 = 0 := by
    rw [← BitVec.toNat_inj, fraction]
    rfl
  have unfolded : Binary.ofFloat number =
      if bits.toNat / 2 ^ 52 % 2 ^ 11 = 2047 then
        if bits.toNat % 2 ^ 52 = 0 then .infinite (decide (2 ^ 63 ≤ bits.toNat)) else .nan
      else if bits.toNat / 2 ^ 52 % 2 ^ 11 = 0 then
        .finite (decide (2 ^ 63 ≤ bits.toNat)) (bits.toNat % 2 ^ 52) (-1074)
      else
        .finite (decide (2 ^ 63 ≤ bits.toNat)) (2 ^ 52 + bits.toNat % 2 ^ 52)
          (Int.ofNat (bits.toNat / 2 ^ 52 % 2 ^ 11) - 1075) := by
    rw [represents]
    rfl
  rw [unfolded, Float.Model.unpack, ← represents, UnpackedFloat.unpack, ← sign]
  simp only [last, first, none, fraction, biased, toNat_implicit_append]
  split_ifs with isLast isNone isFirst isNone
  · rfl
  · rfl
  · rw [isNone]
  · rw [isFirst]
    rfl
  · have distance : (Int.ofNat (bits.toNat / 2 ^ 52 % 2 ^ 11) - 1075 : ℤ) =
        (bits.toNat / 2 ^ 52 % 2 ^ 11 : ℕ) - (1023 + 52) := by
      rw [Int.ofNat_eq_natCast]
      omega
    rw [distance]
    rfl

section

variable {number : Float} {negative : Bool} {mantissa : ℕ} {exponent : ℤ}

/-- The fields of a finite float are canonical, but for zero. -/
theorem isCanonical_of_ofFloat (finite : Binary.ofFloat number = .finite negative mantissa exponent)
    (present : 0 < mantissa) : IsCanonical mantissa exponent := by
  simp only [Binary.ofFloat, Nat.pow_eq] at finite
  have fraction : number.toBits.toNat % 2 ^ 52 < 2 ^ 52 := Nat.mod_lt _ (by decide)
  have biased : number.toBits.toNat / 2 ^ 52 % 2 ^ 11 < 2 ^ 11 := Nat.mod_lt _ (by decide)
  split at finite
  · split at finite <;> cases finite
  · split at finite
    · cases finite
      exact ⟨present, by omega, .inr rfl, le_rfl, by decide⟩
    · next notLast notFirst =>
        cases finite
        refine ⟨present, by omega, .inl (by omega), ?_, ?_⟩ <;> rw [Int.ofNat_eq_natCast] <;> omega

/-- A finite float that is not negative is unpacked to its fields. -/
theorem unpack_of_ofFloat (finite : Binary.ofFloat number = .finite false mantissa exponent)
    (present : 0 < mantissa) :
    number.toModel.unpack = .finite .positive mantissa exponent present := by
  rw [ofFloat_eq] at finite
  split at finite
  · cases finite
  · cases finite
  · obtain ⟨-, rfl, -⟩ := Binary.finite.inj finite
    cases present
  · next sign _ _ _ unpacked =>
      obtain ⟨signs, rfl, rfl⟩ := Binary.finite.inj finite
      cases sign with
      | negative => cases signs
      | positive => exact unpacked

/-- A finite float is the one nearest to the number that its fields give. -/
theorem isNearest_of_ofFloat (finite : Binary.ofFloat number = .finite false mantissa exponent)
    (present : 0 < mantissa) : IsNearest (mantissa * 2 ^ exponent) number := by
  refine ⟨_, (isCanonical_of_ofFloat finite present).rounds, ?_⟩
  rw [← unpack_of_ofFloat finite present, pack_unpack_toModel]

/-- A finite float that is not negative is its own magnitude. -/
theorem abs_eq_of_ofFloat (finite : Binary.ofFloat number = .finite false mantissa exponent)
    (present : 0 < mantissa) : number.abs = number := by
  have magnitude : number.toModel.unpack.abs = number.toModel.unpack := by
    rw [unpack_of_ofFloat finite present]
    rfl
  change Float.ofModel (Float.Model.pack number.toModel.unpack.abs) = number
  rw [magnitude, pack_unpack_toModel]

/-- A float without a mantissa and a sign is zero. -/
theorem eq_zero_of_ofFloat (finite : Binary.ofFloat number = .finite false 0 exponent) :
    number = 0 := by
  have unpacked : number.toModel.unpack = .zero .positive := by
    rw [ofFloat_eq] at finite
    split at finite
    · cases finite
    · cases finite
    · next sign unpacked =>
        cases sign with
        | negative => cases finite
        | positive => exact unpacked
    · next present unpacked =>
        obtain ⟨-, rfl, -⟩ := Binary.finite.inj finite
        cases present
  have model : number.toModel = Float.toModel 0 := by
    rw [← pack_unpack_toModel, unpacked]
    decide +kernel
  cases number
  exact congrArg Float.ofModel model

end

/-! ## Signs -/

/-- The sign bit of a float is not set. -/
def IsUnsigned (number : Float) : Prop := number.toBits.toNat < 2 ^ 63

/-- The bits that are packed under the positive sign. -/
theorem packComponents_lt (biased : BitVec 11) (fraction : BitVec 52) :
    (packComponents Format.binary64 .positive biased fraction).toNat < 2 ^ 63 := by
  have front : ((0#1 ++ biased).toNat <<< 52 ||| fraction.toNat) < 2 ^ 63 := by
    rw [BitVec.toNat_append, BitVec.toNat_ofNat, ← Nat.shiftLeft_add_eq_or_of_lt fraction.isLt,
      Nat.shiftLeft_eq]
    have := biased.isLt
    have := fraction.isLt
    simp
    omega
  rw [packComponents, BitVec.toNat_append]
  exact front

namespace IsUnsigned

variable {number : Float}

/-- The float nearest to a number has no sign. -/
theorem of_isNearest {value : ℚ} (nearest : IsNearest value number) : IsUnsigned number := by
  obtain ⟨_, ⟨mantissa, exponent, accuracy, -, rfl⟩, packed⟩ := nearest
  have bits : number.toBits.toNat = (UnpackedFloat.pack Format.binary64
      (roundWithAccuracy Format.binary64 .positive mantissa exponent accuracy)).toNat := by
    change number.toModel.toBits.toBitVec.toNat = _
    rw [packed]
    rfl
  rw [IsUnsigned, bits, roundWithAccuracy]
  dsimp only
  split
  · exact packComponents_lt _ _
  · rw [UnpackedFloat.pack]
    dsimp only
    split_ifs <;> exact packComponents_lt _ _

/-- The fields of a float without a sign bit are not negative. -/
theorem eq_false {negative : Bool} {mantissa : ℕ} {exponent : ℤ} (unsigned : IsUnsigned number)
    (finite : Binary.ofFloat number = .finite negative mantissa exponent) : negative = false := by
  have clear : decide (Nat.pow 2 63 ≤ number.toBits.toNat) = false :=
    decide_eq_false (not_le.2 unsigned)
  simp only [Binary.ofFloat, clear] at finite
  split at finite
  · split at finite <;> cases finite
  · split at finite <;> cases finite <;> rfl

end IsUnsigned

/-- A share of a hundred is finite. -/
theorem ofFloat_of_range {number : Float} (low : 0 ≤ number) (high : number ≤ 100) :
    ∃ negative mantissa exponent, Binary.ofFloat number = .finite negative mantissa exponent := by
  have low : UnpackedFloat.le (0 : Float).toModel.unpack number.toModel.unpack = true :=
    of_decide_eq_true low
  have high : UnpackedFloat.le number.toModel.unpack (100 : Float).toModel.unpack = true :=
    of_decide_eq_true high
  rw [ofFloat_eq]
  cases unpacked : number.toModel.unpack with
  | notANumber =>
      rw [unpacked] at high
      cases high
  | infinity sign =>
      rw [unpacked] at low high
      cases sign with
      | positive => exact absurd high (by decide +kernel)
      | negative => exact absurd low (by decide +kernel)
  | zero sign => exact ⟨_, _, _, rfl⟩
  | finite sign mantissa exponent present => exact ⟨_, _, _, rfl⟩

end Legible.Numeric
