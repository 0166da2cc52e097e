import Legible.Color.Basic

/-!
# Compositing at partial opacity

Each channel of the result is `foreground * opacity + background * (1 - opacity)`,
rounded to a whole channel with halves going up. The weights are binary64 numbers:
the complement of the opacity and the background's share are each rounded, and the
sum with the foreground's exact share is rounded once. All of it is arithmetic on
whole quanta.
-/

namespace Legible.Color

open Numeric

/-- How many quanta of a unit an opacity covers. Opacities are clamped to the unit
interval, and no number at all covers fully. -/
def coverage (opacity : Float) : Nat :=
  if opacity.isNaN || decide (1 ≤ opacity) then quantaPerUnit
  else if opacity ≤ 0 then 0
  else quanta opacity

/-- One channel composited at a coverage in quanta. -/
def blendChannel (covered : Nat) (foreground background : UInt8) : UInt8 :=
  let complement := roundSignificant (quantaPerUnit - covered)
  let beneath := roundSignificant (background.toNat * complement)
  let mixed := roundSignificant (foreground.toNat * covered + beneath)
  UInt8.ofNat (min 255 (roundSignificant (mixed + quantaPerUnit / 2) / quantaPerUnit))

/-- `foreground` composited over `background`. -/
def blendOver (foreground background : Color) (opacity : Float) : Color :=
  let covered := coverage opacity
  ⟨blendChannel covered foreground.red background.red,
    blendChannel covered foreground.green background.green,
    blendChannel covered foreground.blue background.blue⟩

end Legible.Color
