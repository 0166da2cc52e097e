import Mathlib.Logic.Relation
import Legible.Live.Evaluation
import Legible.Proofs.Property.Text
import Legible.Token.Index

/-!
# What live properties render as

Token literals read back as what the token holds. A value that reads token
properties renders as the composition of those tokens wherever the properties show
them. What a property renders as depends only on the properties that can be reached
from it by references.
-/

namespace Legible

open Property

/-! ## Literals -/

namespace Text

theorem isBlank_hexDigit {value : Nat} (small : value < 16) : isBlank (hexDigit value) = false := by
  revert value
  decide

theorem isBlank_of_isDigit {character : Char} (digit : character.isDigit = true) :
    isBlank character = false :=
  isBlank_of_isNameCharacter (isNameCharacter_of_isDigit digit)

end Text

namespace Color

theorem hexValue?_channelDigits (channel : UInt8) :
    (channelDigits channel).mapM Text.hexValue? =
      some [channel.toNat / 16, channel.toNat % 16] := by
  have small : channel.toNat < 256 := channel.toNat_lt
  have high : Text.hexValue? (Text.hexDigit (channel.toNat / 16)) = some (channel.toNat / 16) :=
    Text.hexValue?_hexDigit (by omega)
  have low : Text.hexValue? (Text.hexDigit (channel.toNat % 16)) = some (channel.toNat % 16) :=
    Text.hexValue?_hexDigit (by omega)
  simp [channelDigits, List.mapM_cons, high, low]

theorem ofNat_digits (channel : UInt8) :
    UInt8.ofNat (channel.toNat / 16 * 16 + channel.toNat % 16) = channel := by
  rw [Nat.div_add_mod', UInt8.ofNat_toNat]

/-- The characters of the written form of a color. -/
theorem toList_hex (color : Color) :
    color.hex.toList = '#' :: (channelDigits color.red ++ channelDigits color.green ++
      channelDigits color.blue) := by
  rw [hex, String.toList_ofList]
  rfl

/-- The written form of a color holds no blank. -/
theorem trimCharacters_hex (color : Color) :
    Text.trimCharacters color.hex.toList = color.hex.toList := by
  refine Text.trimCharacters_of_forall fun character member => ?_
  have digit (channel : UInt8) (member : character ∈ channelDigits channel) :
      Text.isBlank character = false := by
    have small : channel.toNat < 256 := channel.toNat_lt
    simp only [channelDigits, List.mem_cons, List.not_mem_nil, or_false] at member
    rcases member with rfl | rfl
    · exact Text.isBlank_hexDigit (by omega)
    · exact Text.isBlank_hexDigit (by omega)
  rw [toList_hex, List.mem_cons, List.mem_append, List.mem_append] at member
  rcases member with rfl | (red | green) | blue
  · decide
  · exact digit _ red
  · exact digit _ green
  · exact digit _ blue

/-- A color reads back from its written form. -/
theorem read?_hex (color : Color) : read? color.hex = some color := by
  have digits : (channelDigits color.red ++ channelDigits color.green ++
      channelDigits color.blue).mapM Text.hexValue? =
        some [color.red.toNat / 16, color.red.toNat % 16, color.green.toNat / 16,
          color.green.toNat % 16, color.blue.toNat / 16, color.blue.toNat % 16] := by
    rw [List.mapM_append, List.mapM_append, hexValue?_channelDigits, hexValue?_channelDigits,
      hexValue?_channelDigits]
    rfl
  rw [read?, trimCharacters_hex, toList_hex]
  simp only [ofDigits?, digits, ofNat_digits]

/-- The written form of a color is a literal. -/
theorem value_read_hex (color : Color) : Value.read color.hex = .literal color.hex := by
  rw [Value.read_of_head (by rw [trimCharacters_hex, toList_hex]) (by decide) (by decide),
    Text.trim, trimCharacters_hex, String.ofList_toList]

end Color

namespace Numeric

/-- The characters that written numbers are made of. -/
def isNumberCharacter (character : Char) : Bool :=
  character.isDigit || character ∈ ['.', '-', 'N', 'a', 'i', 'n', 'f']

theorem isNumberCharacter_of_mem_replicate {count : Nat} {character : Char}
    (member : character ∈ List.replicate count '0') : isNumberCharacter character = true := by
  rw [List.eq_of_mem_replicate member]
  decide

theorem isNumberCharacter_of_mem_toDigits {number : Nat} {character : Char}
    (member : character ∈ Decimal.toDigits number) : isNumberCharacter character = true := by
  rw [isNumberCharacter, Nat.isDigit_of_mem_toDigits (by decide) (by decide) member]
  rfl

theorem isNumberCharacter_of_mem_positional {value : Scientific} {character : Char}
    (member : character ∈ value.positional.toList) : isNumberCharacter character = true := by
  rw [Scientific.positional] at member
  split at member
  · rw [String.toList_ofList, List.mem_append] at member
    rcases member with digit | zero
    · exact isNumberCharacter_of_mem_toDigits digit
    · exact isNumberCharacter_of_mem_replicate zero
  · rw [String.toList_ofList, List.mem_append, List.mem_cons] at member
    have padded {count number : Nat}
        (member : character ∈ List.replicate count '0' ++ Decimal.toDigits number) :
        isNumberCharacter character = true := by
      rcases List.mem_append.1 member with zero | digit
      · exact isNumberCharacter_of_mem_replicate zero
      · exact isNumberCharacter_of_mem_toDigits digit
    rcases member with whole | rfl | places
    · exact padded (List.mem_of_mem_take whole)
    · decide
    · exact padded (List.mem_of_mem_drop places)

/-- A written number holds number characters only. -/
theorem isNumberCharacter_of_mem_text (number : Float) {character : Char}
    (member : character ∈ (text number).toList) : isNumberCharacter character = true := by
  have word {word : String} (all : word.toList.all isNumberCharacter = true)
      (member : character ∈ word.toList) : isNumberCharacter character = true :=
    List.all_eq_true.1 all character member
  rw [text] at member
  split at member
  · exact word (by decide) member
  · split at member
    · exact word (by decide) member
    · exact word (by decide) member
  · next negative mantissa exponent _ =>
      have sign (member : character ∈ (if negative = true then "-" else "").toList) :
          isNumberCharacter character = true := by
        split at member
        · exact word (by decide) member
        · exact word (by decide) member
      simp only at member
      split at member
      · rcases List.mem_append.1 (String.toList_append ▸ member) with front | zero
        · exact sign front
        · exact word (by decide) zero
      · rcases List.mem_append.1 (String.toList_append ▸ member) with front | digits
        · exact sign front
        · exact isNumberCharacter_of_mem_positional digits

theorem isBlank_of_isNumberCharacter {character : Char}
    (part : isNumberCharacter character = true) : Text.isBlank character = false := by
  rw [isNumberCharacter, Bool.or_eq_true] at part
  rcases part with digit | sign
  · exact Text.isBlank_of_isDigit digit
  · rw [decide_eq_true_eq] at sign
    simp only [List.mem_cons, List.not_mem_nil, or_false] at sign
    rcases sign with rfl | rfl | rfl | rfl | rfl | rfl | rfl <;> decide

/-- A written number holds no blank. -/
theorem trimCharacters_text (number : Float) :
    Text.trimCharacters (text number).toList = (text number).toList :=
  Text.trimCharacters_of_forall fun _ member =>
    isBlank_of_isNumberCharacter (isNumberCharacter_of_mem_text number member)

/-- A written number is a literal. -/
theorem value_read_text (number : Float) :
    Value.read (text number) = .literal (text number) := by
  have trimmed : Text.trim (text number) = text number := by
    rw [Text.trim, trimCharacters_text, String.ofList_toList]
  cases shape : (text number).toList with
  | nil =>
      have empty : text number = "" := String.toList_inj.1 (by rw [shape]; rfl)
      rw [empty]
      rfl
  | cons first rest =>
      have part : isNumberCharacter first = true :=
        isNumberCharacter_of_mem_text number (by rw [shape]; exact List.mem_cons_self)
      rw [Value.read_of_head (by rw [trimCharacters_text, shape]), trimmed]
      · rintro rfl
        revert part
        decide
      · rintro rfl
        revert part
        decide

/-- A written number has no unit. -/
theorem literalNumber?_text (number : Float) :
    Evaluation.literalNumber? (text number) = Decimal.read? (text number).toList := by
  have noUnit : Token.beforePixels? (text number).toList = none := by
    rw [Token.beforePixels?]
    split
    · next rest unit =>
        have part : isNumberCharacter 'x' = true :=
          isNumberCharacter_of_mem_text number
            (List.mem_reverse.1 (by rw [unit]; exact List.mem_cons_self))
        exact absurd part (by decide)
    · rfl
  rw [Evaluation.literalNumber?]
  simp only [trimCharacters_text, noUnit, Option.getD_none]

end Numeric

/-! ## Composed values -/

namespace Evaluation

variable {registry : Registry} {remaining : Nat} {name : Name}

/-- A set property renders as what its text spells. -/
theorem colorAt_succ {text : String} (held : registry.get? name = some text) :
    colorAt registry (remaining + 1) name =
      colorOf (colorAt registry remaining) (numberAt registry remaining) name
        (Value.read text) := by
  rw [colorAt, held]

/-- A property that holds the written form of a color renders as the color. -/
theorem colorAt_of_hex {color : Color} (held : registry.get? name = some color.hex) :
    colorAt registry (remaining + 1) name = .ok color := by
  rw [colorAt_succ held, Color.value_read_hex, colorOf, Color.read?_hex]

/-- A property that holds a written number renders as the number, if that reads back. -/
theorem numberAt_of_text {amount : Float} (held : registry.get? name = some (Numeric.text amount))
    (readsBack : Numeric.Decimal.read? (Numeric.text amount).toList = some amount) :
    numberAt registry (remaining + 1) name = .ok amount := by
  rw [numberAt, held]
  simp only [Numeric.value_read_text, Numeric.literalNumber?_text, readsBack]

end Evaluation

/-- What a value of token properties composes to, given what the tokens hold. -/
inductive Composes (index : Token.Index) : Value → Color → Prop where
  | reference {path : Token.Path} {color : Color}
      (held : index.values[path]? = some (.color color)) :
      Composes index (.reference (Name.ofToken path)) color
  | blend {front back share : Token.Path} {frontColor backColor : Color} {opacity : Float}
      (frontHeld : index.values[front]? = some (.color frontColor))
      (backHeld : index.values[back]? = some (.color backColor))
      (shareHeld : index.values[share]? = some (.number opacity))
      (isShare : Token.isShare opacity = true) :
      Composes index
        (.blend (Name.ofToken front) (Name.ofToken back) (.property (Name.ofToken share)))
        (frontColor.blendOver backColor opacity)

namespace Registry

/-- The property of a token renders as what the token holds, if that is a color or a
share. -/
structure Shows (registry : Registry) (index : Token.Index) (path : Token.Path) : Prop where
  color : ∀ color, index.values[path]? = some (.color color) →
    Evaluation.colorAt registry maxEvaluationDepth (Name.ofToken path) = .ok color
  number : ∀ amount, index.values[path]? = some (.number amount) → Token.isShare amount = true →
    Evaluation.numberAt registry maxEvaluationDepth (Name.ofToken path) = .ok amount

/-- A value renders as it composes wherever the tokens that it reads are shown. -/
theorem colorOfValue_of_composes {registry : Registry} {index : Token.Index} {value : Value}
    {color : Color} (composes : Composes index value color)
    (shown : ∀ path, Name.ofToken path ∈ value.references → registry.Shows index path)
    (name : Name) : registry.colorOfValue name value = .ok color := by
  cases composes with
  | reference held => exact (shown _ (by simp [Value.references])).color _ held
  | blend frontHeld backHeld shareHeld isShare =>
      have front := (shown _ (by simp [Value.references])).color _ frontHeld
      have back := (shown _ (by simp [Value.references])).color _ backHeld
      have share := (shown _ (by simp [Value.references, Weight.property?])).number _ shareHeld
        isShare
      rw [colorOfValue, Evaluation.colorOf, front, back, Evaluation.shareOf, share]
      rfl

/-- A set property renders as the value that its text spells. -/
theorem color_of_get? {registry : Registry} {name : Name} {text : String}
    (held : registry.get? name = some text) :
    registry.color name = registry.colorOfValue name (Value.read text) :=
  Evaluation.colorAt_succ held

/-- A set property renders as its value composes, wherever the tokens are shown. -/
theorem color_of_composes {registry : Registry} {index : Token.Index} {name : Name} {text : String}
    {value : Value} {color : Color} (held : registry.get? name = some text)
    (reads : Value.read text = value) (composes : Composes index value color)
    (shown : ∀ path, Name.ofToken path ∈ value.references → registry.Shows index path) :
    registry.color name = .ok color := by
  rw [color_of_get? held, reads]
  exact colorOfValue_of_composes composes shown name

/-! ## What a property depends on -/

/-- A set property reads another one. -/
def Reads (registry : Registry) (reader target : Name) : Prop :=
  ∃ text, registry.get? reader = some text ∧ target ∈ (Value.read text).references

/-- A property can be reached from another one by references. -/
def Reaches (registry : Registry) : Name → Name → Prop :=
  Relation.ReflTransGen registry.Reads

/-- Two registries hold the same texts for everything that is reached from a name. -/
def AgreesFrom (first second : Registry) (name : Name) : Prop :=
  ∀ reached, first.Reaches name reached → first.get? reached = second.get? reached

/-- Registries agree from names that read only each other when they agree on them. -/
theorem agreesFrom_of_closed {first second : Registry} {names : List Name} {name : Name}
    (closed : ∀ reader ∈ names, ∀ text ∈ first.get? reader,
      ∀ target ∈ (Value.read text).references, target ∈ names)
    (same : ∀ reader ∈ names, first.get? reader = second.get? reader) (member : name ∈ names) :
    first.AgreesFrom second name := by
  intro reached path
  have inside : reached ∈ names := by
    induction path with
    | refl => exact member
    | tail _ step inductionHypothesis =>
        obtain ⟨text, held, reads⟩ := step
        exact closed _ inductionHypothesis text held _ reads
  exact same reached inside

end Registry

namespace Evaluation

variable {first second : Registry}

/-- Numbers agree where everything reached holds the same texts. -/
theorem numberAt_congr {remaining : Nat} {name : Name}
    (agree : first.AgreesFrom second name) :
    numberAt first remaining name = numberAt second remaining name := by
  induction remaining generalizing name with
  | zero => rfl
  | succ remaining inductionHypothesis =>
      rw [numberAt, numberAt, ← agree name .refl]
      cases held : first.get? name with
      | none => rfl
      | some text =>
          cases reads : Value.read text with
          | literal literal => simp [reads]
          | blend front back weight => simp [reads]
          | reference target =>
              have step : first.Reads name target := ⟨text, held, by simp [reads, Value.references]⟩
              have later : numberAt first remaining target = numberAt second remaining target :=
                inductionHypothesis fun reached path => agree reached (.head step path)
              simp [reads, later]

/-- Colors agree where everything reached holds the same texts. -/
theorem colorAt_congr {remaining : Nat} {name : Name}
    (agree : first.AgreesFrom second name) :
    colorAt first remaining name = colorAt second remaining name := by
  induction remaining generalizing name with
  | zero => rfl
  | succ remaining inductionHypothesis =>
      rw [colorAt, colorAt, ← agree name .refl]
      cases held : first.get? name with
      | none => rfl
      | some text =>
          have below (target : Name) (read : target ∈ (Value.read text).references) :
              first.AgreesFrom second target :=
            fun reached path => agree reached (.head ⟨text, held, read⟩ path)
          cases reads : Value.read text with
          | literal literal => simp [reads, colorOf]
          | reference target =>
              have later := inductionHypothesis (below target (by simp [reads, Value.references]))
              simp [reads, colorOf, later]
          | blend front back weight =>
              have frontSame := inductionHypothesis
                (below front (by simp [reads, Value.references]))
              have backSame := inductionHypothesis (below back (by simp [reads, Value.references]))
              have shareSame : shareOf (numberAt first remaining) weight =
                  shareOf (numberAt second remaining) weight := by
                cases weight with
                | percent amount => rfl
                | property share =>
                    exact numberAt_congr
                      (below share (by simp [reads, Value.references, Weight.property?]))
              simp [reads, colorOf, frontSame, backSame, shareSame]

end Evaluation

/-- What a property renders as is settled by the properties that can be reached from it. -/
theorem Registry.color_congr {first second : Registry} {name : Name}
    (agree : first.AgreesFrom second name) :
    first.color name = second.color name :=
  Evaluation.colorAt_congr agree

end Legible
