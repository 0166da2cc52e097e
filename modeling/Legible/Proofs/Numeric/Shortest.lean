import Mathlib
import Legible.Numeric.Shortest
import Legible.Proofs.Numeric.Nearest

/-!
# Written numbers read back

The digits that a finite number is written with are read as the same number: a candidate is only
taken when it does so, every digit of the number does so, and neither the zeros that are dropped nor
the place of the point changes the value.
-/

namespace Legible.Numeric

namespace Scientific

/-! ## Digits of a number -/

/-- A decimal number that is read as a float. -/
structure Spells (value : Scientific) (number : Float) : Prop where
  present : 0 < value.digits
  nearest_eq : Decimal.nearest value.digits value.exponent = number

section

variable {number : Float} {mantissa : ℕ} {exponent : ℤ}

/-- All digits of a number spell it. -/
theorem spells_exact (finite : Binary.ofFloat number = .finite false mantissa exponent)
    (present : 0 < mantissa) : (exact mantissa exponent).Spells number := by
  have positive : 0 < (exact mantissa exponent).digits := by
    cases exponent <;> simp only [exact, Nat.pow_eq] <;> positivity
  refine ⟨positive, Decimal.nearest_eq_of_ofFloat finite present positive ?_⟩
  cases exponent with
  | ofNat up => simp [exact]
  | negSucc down =>
      have ten : (10 : ℚ) = 5 * 2 := by norm_num
      simp only [exact, Nat.pow_eq, zpow_negSucc, ten, mul_pow]
      push_cast
      field_simp

/-- A candidate that compares equal to a number other than zero spells it. -/
theorem spells_of_beq {digits : ℕ} {place : ℤ}
    (finite : Binary.ofFloat number = .finite false mantissa exponent) (present : 0 < mantissa)
    (same : (Decimal.nearest digits place == number) = true) : Spells ⟨digits, place⟩ number := by
  -- The two zeros are equal without being the same, so they are excluded first.
  have other (zero : Float) (none : ∃ negative place', Binary.ofFloat zero =
      .finite negative 0 place') : number ≠ zero := by
    rintro rfl
    obtain ⟨negative, place', none⟩ := none
    rw [none] at finite
    cases finite
    cases present
  have noZero : number ≠ 0 := other 0 ⟨false, -1074, by decide +kernel⟩
  have noZero' : number ≠ -0 := other (-0) ⟨true, -1074, by decide +kernel⟩
  obtain ⟨-, -, equal | ⟨-, zero⟩ | ⟨-, zero⟩⟩ := Float.beq_iff_ne_nan_and_eq.1 same
  · refine ⟨Nat.pos_of_ne_zero ?_, equal⟩
    rintro rfl
    exact noZero (equal.symm.trans (Decimal.nearest_zero place))
  · exact absurd zero noZero'
  · exact absurd zero noZero

/-- A candidate that is found spells the number. -/
theorem spells_of_withDigits? {tie : Tie} {numerator denominator count : ℕ} {value : Scientific}
    (finite : Binary.ofFloat number = .finite false mantissa exponent) (present : 0 < mantissa)
    (found : withDigits? tie number numerator denominator count = some value) :
    value.Spells number := by
  obtain ⟨first, second, place, candidates⟩ : ∃ first second place,
      withDigits? tie number numerator denominator count =
        if Decimal.nearest first place == number then some ⟨first, place⟩
        else if Decimal.nearest second place == number then some ⟨second, place⟩
        else none := ⟨_, _, _, rfl⟩
  rw [candidates] at found
  split at found
  · next same =>
      cases found
      exact spells_of_beq finite present same
  · split at found
    · next same =>
        cases found
        exact spells_of_beq finite present same
    · cases found

/-- Dropping zeros at the end keeps what is spelled. -/
theorem Spells.trimZeros {value : Scientific} (spells : value.Spells number) (fuel : ℕ) :
    (trimZeros fuel value).Spells number := by
  induction fuel generalizing value with
  | zero => exact spells
  | succ fuel inductionHypothesis =>
      rw [Scientific.trimZeros]
      split
      · next zero =>
          refine inductionHypothesis ?_
          have divided : value.digits = 10 * (value.digits / 10) := by omega
          have present : 0 < value.digits / 10 := by omega
          refine ⟨present, Eq.trans ?_ spells.nearest_eq⟩
          refine Decimal.nearest_eq present spells.present ?_
          dsimp only
          conv_rhs => rw [divided]
          rw [zpow_add₀ (by norm_num)]
          push_cast
          ring
      · exact spells

/-- The fewest digits spell the number. -/
theorem spells_shortest (tie : Tie)
    (finite : Binary.ofFloat number = .finite false mantissa exponent) (present : 0 < mantissa) :
    (shortest tie number mantissa exponent).Spells number := by
  rw [shortest]
  dsimp only
  refine Spells.trimZeros ?_ _
  cases found : (List.range 17).findSome? fun index => withDigits? tie number
      (Binary.fraction mantissa exponent).1 (Binary.fraction mantissa exponent).2 (index + 1) with
  | none => exact spells_exact finite present
  | some value =>
      obtain ⟨index, -, found⟩ := List.exists_of_findSome?_eq_some found
      exact spells_of_withDigits? finite present found

end

/-! ## The written text -/

/-- The two ways in which a number is laid out: as digits alone, or as digits with a point among
them. -/
inductive Layout (value : Scientific) : List Char → Prop
  | whole {digits : List Char} {up : ℕ} (present : digits ≠ [])
      (all : ∀ digit ∈ digits, digit.isDigit = true) (place : value.exponent = up)
      (spelled : Decimal.ofDigits digits = value.digits * 10 ^ up) : Layout value digits
  | point {before after : List Char} (present : before ≠ []) (present' : after ≠ [])
      (all : ∀ digit ∈ before, digit.isDigit = true) (all' : ∀ digit ∈ after, digit.isDigit = true)
      (place : value.exponent = -(after.length : ℤ))
      (spelled : Decimal.ofDigits (before ++ after) = value.digits) :
      Layout value (before ++ '.' :: after)

/-- What is laid out is read as the float nearest to it. -/
theorem Layout.read?_eq {value : Scientific} {characters : List Char}
    (layout : value.Layout characters) :
    Decimal.read? characters = some (Decimal.nearest value.digits value.exponent) := by
  cases layout with
  | whole present all place spelled =>
      rw [Decimal.read?_digits present all, spelled, Decimal.nearest_mul_pow, place]
  | point present present' all all' place spelled =>
      rw [Decimal.read?_point present all all', spelled, place]
      rfl

/-- Numbers are laid out in one of the two ways. -/
theorem layout_positional (value : Scientific) : value.Layout value.positional.toList := by
  obtain ⟨number, exponent⟩ := value
  cases exponent with
  | ofNat up =>
      rw [positional]
      dsimp only
      rw [String.toList_ofList]
      refine .whole ?_ ?_ (show Int.ofNat up = (up : ℤ) from rfl) ?_
      · exact List.append_ne_nil_of_left_ne_nil Nat.toDigits_ne_nil _
      · intro digit member
        obtain written | zero := List.mem_append.1 member
        · exact Decimal.isDigit_of_mem_toDigits written
        · rw [List.eq_of_mem_replicate zero]
          rfl
      · rw [Decimal.ofDigits_append_zeros, Decimal.ofDigits_toDigits]
  | negSucc down =>
      have written : (positional ⟨number, .negSucc down⟩).toList =
          (Text.paddedDigits (down + 2) number).take
              ((Text.paddedDigits (down + 2) number).length - (down + 1)) ++
            '.' :: (Text.paddedDigits (down + 2) number).drop
              ((Text.paddedDigits (down + 2) number).length - (down + 1)) :=
        String.toList_ofList
      have long : down + 1 < (Text.paddedDigits (down + 2) number).length := by
        rw [Text.paddedDigits, List.length_append, List.length_replicate]
        omega
      have all (digit : Char) (member : digit ∈ Text.paddedDigits (down + 2) number) :=
        Text.isDigit_of_mem_paddedDigits member
      have spelled := Text.ofDigits_paddedDigits (down + 2) number
      rw [written]
      generalize Text.paddedDigits (down + 2) number = padded at *
      refine .point ?_ ?_ (fun digit member => all digit (List.mem_of_mem_take member))
        (fun digit member => all digit (List.mem_of_mem_drop member)) ?_ ?_
      · rw [Ne, List.take_eq_nil_iff, ← List.length_eq_zero_iff]
        omega
      · rw [Ne, List.drop_eq_nil_iff]
        omega
      · have places : padded.length - (padded.length - (down + 1)) = down + 1 := by omega
        rw [List.length_drop, places]
        rfl
      · rw [List.take_append_drop, spelled]

end Scientific

/-- The text of a finite number that is not negative: digits, at most a point among them, that are
read as the number. -/
theorem layout_text {number : Float} {mantissa : ℕ} {exponent : ℤ}
    (finite : Binary.ofFloat number = .finite false mantissa exponent) :
    ∃ value : Scientific, value.Layout (text number).toList ∧
      Decimal.nearest value.digits value.exponent = number := by
  rw [text, finite]
  dsimp only
  rw [if_neg Bool.false_ne_true, String.empty_append]
  split
  · next zero =>
      subst zero
      have layout : Scientific.Layout ⟨0, 0⟩ ['0'] :=
        .whole (List.cons_ne_nil _ _) (List.forall_mem_singleton.2 rfl)
          (show (0 : ℤ) = (0 : ℕ) from rfl) rfl
      refine ⟨⟨0, 0⟩, layout, ?_⟩
      rw [Decimal.nearest_zero, eq_zero_of_ofFloat finite]
  · next present =>
      have present := Nat.pos_of_ne_zero present
      rw [abs_eq_of_ofFloat finite present]
      exact ⟨_, Scientific.layout_positional _,
        (Scientific.spells_shortest .awayFromZero finite present).nearest_eq⟩

end Legible.Numeric
