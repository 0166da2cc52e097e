import Mathlib.Algebra.Group.Nat.Defs
import Legible.Numeric.Decimal
import Legible.Text.Digits

/-!
# Decimal digits

The digits of a number give the number back, and a text of digits with at most one point among them
is read as the float nearest to the number that it spells.
-/

namespace Legible

namespace Numeric.Decimal

/-- Written digits spell the number they were written for. -/
@[simp] theorem ofDigits_toDigits (number : Nat) : ofDigits (toDigits number) = number :=
  Nat.ofDigitChars_ten_toDigits

/-- Zeros in front change nothing. -/
theorem ofDigits_replicate_zero (count : Nat) (digits : List Char) :
    ofDigits (List.replicate count '0' ++ digits) = ofDigits digits := by
  induction count with
  | zero => simp
  | succ count inductionHypothesis =>
      rw [List.replicate_succ, List.cons_append]
      simpa [ofDigits] using inductionHypothesis

/-- Zeros behind the digits multiply by a power of ten. -/
theorem ofDigits_append_zeros (digits : List Char) (count : Nat) :
    ofDigits (digits ++ List.replicate count '0') = ofDigits digits * 10 ^ count := by
  induction count with
  | zero => simp
  | succ count inductionHypothesis =>
      have last : ofDigits (digits ++ List.replicate count '0' ++ ['0']) =
          10 * ofDigits (digits ++ List.replicate count '0') := by
        simp [ofDigits, List.foldl_append]
      rw [List.replicate_succ', ← List.append_assoc, last, inductionHypothesis, Nat.pow_succ]
      ac_rfl

/-- A written number holds digits only. -/
theorem isDigit_of_mem_toDigits {number : Nat} {digit : Char} (member : digit ∈ toDigits number) :
    digit.isDigit = true :=
  Nat.isDigit_of_mem_toDigits (by decide) (by decide) member

/-- A number lies below the power of ten of as many digits. -/
theorem lt_pow_length (number : Nat) : number < 10 ^ (toDigits number).length :=
  (Nat.length_toDigits_le_iff (by decide) Nat.length_toDigits_pos).1 (Nat.le_refl _)

/-- A positive number reaches the power of ten of one digit less. -/
theorem pow_length_le {number : Nat} (present : 0 < number) :
    10 ^ ((toDigits number).length - 1) ≤ number := by
  by_cases single : (toDigits number).length - 1 = 0
  · rw [single]
    exact present
  · refine Nat.le_of_not_lt fun below => ?_
    have := (Nat.length_toDigits_le_iff (by decide) (Nat.pos_of_ne_zero single)).2 below
    rw [toDigits] at *
    omega

/-! ## Reading -/

section

variable {digits whole places : List Char}

/-- A text that begins with a digit is read as an unsigned number written with digits. -/
theorem read?_of_digit {first : Char} {rest : List Char} (digit : first.isDigit = true) :
    read? (first :: rest) = digits? (first :: rest) := by
  have plain : first ≠ '-' ∧ first ≠ '+' := by
    constructor <;> rintro rfl <;> exact absurd digit (by decide)
  have noWord (word : Char) (others : List Char) (letter : word.isDigit = false) :
      String.ofList ((first :: rest).map Char.toLower) ≠ String.ofList (word :: others) := by
    intro same
    have begins := (List.cons.inj (String.ofList_injective same)).1
    have lower : first.toLower = first := by
      refine dif_neg ?_
      rintro ⟨low, high⟩
      simp only [Char.isDigit, Bool.and_eq_true, decide_eq_true_eq] at digit
      exact absurd (Nat.le_trans low digit.2) (by decide)
    rw [← begins, lower, digit] at letter
    cases letter
  rw [read?.eq_def]
  split
  · next same => exact absurd (List.cons.inj same).1 plain.1
  · next same => exact absurd (List.cons.inj same).1 plain.2
  · rw [unsigned?, if_neg, if_neg]
    · exact noWord 'n' ['a', 'n'] (by decide)
    · rintro (word | word)
      · exact noWord 'i' ['n', 'f'] (by decide) word
      · exact noWord 'i' ['n', 'f', 'i', 'n', 'i', 't', 'y'] (by decide) word

/-- Reading the digits off leaves nothing of a text of digits. -/
theorem takeWhile_dropWhile_digits (all : ∀ digit ∈ digits, digit.isDigit = true) :
    digits.takeWhile Char.isDigit = digits ∧ digits.dropWhile Char.isDigit = [] := by
  have taken : (digits ++ []).takeWhile Char.isDigit = digits ++ [] :=
    List.takeWhile_append_of_pos all
  have dropped : (digits ++ []).dropWhile Char.isDigit = [] :=
    List.dropWhile_append_of_pos all
  rw [List.append_nil] at taken dropped
  exact ⟨taken, dropped⟩

/-- Digits alone are read as a whole number. -/
theorem read?_digits (present : digits ≠ []) (all : ∀ digit ∈ digits, digit.isDigit = true) :
    read? digits = some (nearest (ofDigits digits) 0) := by
  obtain ⟨first, rest, rfl⟩ := List.exists_cons_of_ne_nil present
  obtain ⟨taken, dropped⟩ := takeWhile_dropWhile_digits all
  rw [read?_of_digit (all first List.mem_cons_self), digits?, taken, dropped]
  simp [exponent?]

/-- Digits with a point among them are read as a fraction. -/
theorem read?_point (present : whole ≠ []) (all : ∀ digit ∈ whole, digit.isDigit = true)
    (all' : ∀ digit ∈ places, digit.isDigit = true) :
    read? (whole ++ '.' :: places) =
      some (nearest (ofDigits (whole ++ places)) (-Int.ofNat places.length)) := by
  obtain ⟨first, rest, rfl⟩ := List.exists_cons_of_ne_nil present
  have taken : (first :: rest ++ '.' :: places).takeWhile Char.isDigit = first :: rest := by
    rw [List.takeWhile_append_of_pos all, List.takeWhile_cons_of_neg (by decide), List.append_nil]
  have dropped : (first :: rest ++ '.' :: places).dropWhile Char.isDigit = '.' :: places := by
    rw [List.dropWhile_append_of_pos all, List.dropWhile_cons_of_neg (by decide)]
  obtain ⟨taken', dropped'⟩ := takeWhile_dropWhile_digits all'
  rw [List.cons_append, read?_of_digit (all first List.mem_cons_self), ← List.cons_append, digits?,
    taken, dropped]
  simp [taken', dropped', exponent?]

end

end Numeric.Decimal

namespace Text

/-- Padded digits spell the number they were written for. -/
@[simp] theorem ofDigits_paddedDigits (width number : Nat) :
    Numeric.Decimal.ofDigits (paddedDigits width number) = number := by
  rw [paddedDigits, Numeric.Decimal.ofDigits_replicate_zero,
    Numeric.Decimal.ofDigits_toDigits]

/-- Padded digits are digits. -/
theorem isDigit_of_mem_paddedDigits {width number : Nat} {digit : Char}
    (member : digit ∈ paddedDigits width number) : digit.isDigit = true := by
  rw [paddedDigits, List.mem_append] at member
  rcases member with zero | written
  · rw [List.eq_of_mem_replicate zero]
    decide
  · exact Numeric.Decimal.isDigit_of_mem_toDigits written

end Text

end Legible
