import Legible.Text.Digits

/-!
# Addresses of tokens

A token is addressed by its category and key. Color tokens also have a level: the
key names their ramp, and larger levels are darker. Paths are ordered by category,
then key, then level, a path without a level before all others.
-/

namespace Legible.Token

/-- The level of a color in its ramp. -/
structure Level where
  value : UInt16
  deriving DecidableEq, Repr

namespace Level

instance : Ord Level := ⟨compareOn Level.value⟩

instance : Std.TransOrd Level :=
  inferInstanceAs (Std.TransCmp (compareOn Level.value))

instance : Std.LawfulEqOrd Level where
  eq_of_compare {left right} equal := by
    have same : compare left.value right.value = .eq := equal
    cases left
    cases right
    simpa using same

/-- The level that a text of decimal digits spells. -/
def read? (text : String) : Option Level :=
  (Text.shortNumber? text.toList).map Level.mk

/-- The level as a natural number. -/
def toNat (level : Level) : Nat := level.value.toNat

/-- The digits of a level, at least three of them. -/
def text (level : Level) : String :=
  String.ofList (Text.paddedDigits 3 level.toNat)

/-- How far apart two levels are. -/
def distance (first second : Level) : Nat :=
  (first.toNat - second.toNat) + (second.toNat - first.toNat)

end Level

/-- The address of a token. -/
structure Path where
  category : String
  key : String
  level : Option Level
  deriving DecidableEq, Repr

namespace Path

instance : Ord Path :=
  ⟨compareLex (compareOn category) (compareLex (compareOn key) (compareOn level))⟩

instance : Std.TransOrd Path :=
  inferInstanceAs (Std.TransCmp
    (compareLex (compareOn category) (compareLex (compareOn key) (compareOn level))))

instance : Std.LawfulEqOrd Path where
  eq_of_compare {left right} equal := by
    obtain ⟨sameCategory, rest⟩ := compareLex_eq_eq.1 equal
    obtain ⟨sameKey, sameLevel⟩ := compareLex_eq_eq.1 rest
    obtain ⟨category, key, level⟩ := left
    obtain ⟨category', key', level'⟩ := right
    simp only [compareOn, Std.LawfulEqCmp.compare_eq_iff_eq] at sameCategory sameKey sameLevel
    simp [sameCategory, sameKey, sameLevel]

/-- The category of color tokens. -/
def colorCategory : String := "color"

/-- The address of a token outside a ramp. -/
def plain (category key : String) : Path := ⟨category, key, none⟩

/-- The address of a color in a ramp. -/
def color (ramp : String) (level : Level) : Path := ⟨colorCategory, ramp, some level⟩

/-- Whether the address is one of a color. -/
def isColor (path : Path) : Bool := path.category == colorCategory

/-- The parts of an address, in order. -/
def segments (path : Path) : List String :=
  [path.category, path.key] ++ (path.level.map Level.text).toList

/-- The parts of an address between slashes. -/
def text (path : Path) : String :=
  String.intercalate "/" path.segments

end Path

end Legible.Token
