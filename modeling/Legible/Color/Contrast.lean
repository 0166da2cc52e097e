import Legible.Color.Blend
import Legible.Color.LinearLight

/-!
# Contrast between opaque colors

Relative luminance is the weighted sum of the channels' linear light, and the
contrast of two colors is the quotient of their luminances, each raised by 0.05,
the lighter one on top. Both are binary64 numbers held as whole counts of a fixed
unit, so contrasts are compared as natural numbers: the order is total and a color
pair measures the same from either side.
-/

namespace Legible

open Numeric

/-- A relative luminance in `[0, 1]`, in units of `2 ^ (-68)`. -/
structure Luminance where
  units : Nat
  deriving DecidableEq, Repr

/-- A contrast ratio in `[1, 21]`, in units of `2 ^ (-52)`. -/
structure ContrastRatio where
  units : Nat
  deriving DecidableEq, Repr

namespace Luminance

/-- How many luminance units one whole unit has. -/
def unitsPerWhole : Nat := Nat.pow 2 68

/-- The channel weights 0.2126, 0.7152 and 0.0722 as binary64, in units of
`2 ^ (-56)`. -/
def redWeight : Nat := 15319444492463480

/-- See `redWeight`. -/
def greenWeight : Nat := 51535591255926056

/-- See `redWeight`. -/
def blueWeight : Nat := 5202558289538397

/-- The rounded sum of a weighted channel and what has been summed before. -/
def addWeighted (weight : Nat) (channel : UInt8) (sum : Nat) : Nat :=
  roundSignificant (weight * (Color.linearLightUnits channel * 16) + sum * Nat.pow 2 56) /
    Nat.pow 2 56

/-- The relative luminance of a color, summed from blue to red. -/
def ofColor (color : Color) : Luminance :=
  ⟨addWeighted redWeight color.red
    (addWeighted greenWeight color.green (addWeighted blueWeight color.blue 0))⟩

/-- The offset 0.05 as binary64, in luminance units. -/
def flare : Nat := 14757395258967642112

/-- The luminance raised by the offset. -/
def raised (luminance : Luminance) : Nat :=
  roundSignificant (luminance.units + flare)

end Luminance

namespace ContrastRatio

/-- How many ratio units one whole unit has. -/
def unitsPerWhole : Nat := Nat.pow 2 52

instance : LE ContrastRatio := ⟨fun left right => left.units ≤ right.units⟩

instance (left right : ContrastRatio) : Decidable (left ≤ right) :=
  inferInstanceAs (Decidable (left.units ≤ right.units))

/-- The least contrast at which normal text is legible: 4.5. -/
def threshold : ContrastRatio := ⟨9 * Nat.pow 2 51⟩

/-- The rounded quotient of two raised luminances, the larger one first. -/
def quotient (larger smaller : Nat) : ContrastRatio :=
  let scaled := larger * Nat.pow 2 61
  let inexact := if scaled % smaller = 0 then 0 else 1
  ⟨roundSignificant (2 * (scaled / smaller) + inexact) / 1024⟩

/-- The contrast of two colors. -/
def between (first second : Color) : ContrastRatio :=
  let first := Luminance.ofColor first
  let second := Luminance.ofColor second
  quotient (max first.raised second.raised) (min first.raised second.raised)

/-- The ratio as a float, exactly. -/
def toFloat (ratio : ContrastRatio) : Float :=
  Float.ofNat ratio.units / Float.ofNat unitsPerWhole

/-- Contrast does not depend on which color is in front. -/
theorem between_comm (first second : Color) : between first second = between second first := by
  simp only [between, Nat.max_comm, Nat.min_comm]

/-- Any two ratios can be compared. -/
theorem le_total (left right : ContrastRatio) : left ≤ right ∨ right ≤ left :=
  Nat.le_total left.units right.units

/-- Comparison of ratios composes. -/
theorem le_trans {first second third : ContrastRatio} (lower : first ≤ second)
    (upper : second ≤ third) : first ≤ third :=
  Nat.le_trans lower upper

end ContrastRatio

/-- Whether a pair of opaque colors is legible. -/
def Color.isLegibleOn (foreground background : Color) : Bool :=
  decide (ContrastRatio.threshold ≤ ContrastRatio.between foreground background)

end Legible
