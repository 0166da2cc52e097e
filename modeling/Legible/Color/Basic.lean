import Legible.Numeric.Binary
import Legible.Text.Blank
import Legible.Text.Hex
import Legible.Text.Quoted

/-!
# Opaque colors

A color has three 8-bit sRGB channels and no alpha. It is written `#rrggbb` in
lower case; `#rgb` and either case are accepted, with or without the `#` and with
blanks around it.
-/

namespace Legible

/-- An opaque sRGB color. -/
structure Color where
  red : UInt8
  green : UInt8
  blue : UInt8
  deriving DecidableEq, Repr

namespace Color

/-- Pure black. -/
def black : Color := ⟨0, 0, 0⟩

/-- Pure white. -/
def white : Color := ⟨255, 255, 255⟩

/-- The digits of a color: three of them stand for themselves doubled. -/
def ofDigits? (digits : List Char) : Option Color :=
  match digits.mapM Text.hexValue? with
  | some [red, green, blue] =>
      some ⟨UInt8.ofNat (red * 17), UInt8.ofNat (green * 17), UInt8.ofNat (blue * 17)⟩
  | some [red, red', green, green', blue, blue'] =>
      some ⟨UInt8.ofNat (red * 16 + red'), UInt8.ofNat (green * 16 + green'),
        UInt8.ofNat (blue * 16 + blue')⟩
  | _ => none

/-- The color that `text` spells. -/
def read? (text : String) : Option Color :=
  match Text.trimCharacters text.toList with
  | '#' :: digits => ofDigits? digits
  | digits => ofDigits? digits

/-- The two digits of a channel. -/
def channelDigits (channel : UInt8) : List Char :=
  [Text.hexDigit (channel.toNat / 16), Text.hexDigit (channel.toNat % 16)]

/-- The `#rrggbb` form. -/
def hex (color : Color) : String :=
  String.ofList ('#' :: channelDigits color.red ++ channelDigits color.green ++
    channelDigits color.blue)

/-- What is said about a text that spells no color. -/
def invalidMessage (text : String) : String :=
  "invalid hex color: " ++ Text.quote text

/-- The channel nearest to a share of full intensity; shares outside the unit
interval are clamped. -/
def channelOfShare (share : Float) : UInt8 :=
  let clamped := if share < 0 then 0 else if 1 < share then 1 else share
  (clamped * 255 + 0.5).toUInt8

/-- The color with the given shares of full intensity. -/
def ofShares (red green blue : Float) : Color :=
  ⟨channelOfShare red, channelOfShare green, channelOfShare blue⟩

/-- A channel as a share of full intensity. -/
def share (channel : UInt8) : Float :=
  Float.ofNat channel.toNat / 255

end Color

end Legible
