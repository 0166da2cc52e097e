import Legible.Proofs.Numeric.Shortest
import Legible.Proofs.Property.Text

/-!
# Property values and their texts

A value that was read from a text is written in one layout, and that layout is read as the same
value: the names in it are plain, a percentage in it is a float that its digits give back, and a
literal has lost the blanks at its ends.
-/

namespace Legible.Property.Value

namespace Reader

open Text Numeric

/-! ## Percentages -/

section

variable {value : Scientific} {characters : List Char}

/-- A number is laid out as a percentage has to be written. -/
theorem isPercentage_of_layout (layout : value.Layout characters) :
    isPercentage characters = true ∧
      ∀ character ∈ characters, (character.isDigit || character == '.') = true := by
  have noPoint {digits : List Char} (all : ∀ digit ∈ digits, digit.isDigit = true) :
      digits.count '.' = 0 :=
    List.count_eq_zero.2 fun point => absurd (all _ point) (by decide)
  have last {digits : List Char} (present : digits ≠ [])
      (all : ∀ digit ∈ digits, digit.isDigit = true) :
      digits.getLast?.any Char.isDigit = true := by
    rw [List.getLast?_eq_some_getLast present]
    exact all _ (List.getLast_mem present)
  cases layout with
  | whole present all place spelled =>
      refine ⟨?_, fun digit member => by rw [all digit member, Bool.true_or]⟩
      rw [isPercentage, noPoint all, last present all]
      rfl
  | @point before after present present' all all' place spelled =>
      constructor
      · rw [isPercentage, List.count_append, List.count_cons_self, noPoint all, noPoint all',
          List.getLast?_append_of_ne_nil _ (List.cons_ne_nil _ _),
          List.getLast?_cons_of_ne_nil present', last present' all']
        rfl
      · intro character member
        obtain member | member := List.mem_append.1 member
        · rw [all _ member, Bool.true_or]
        · obtain rfl | member := List.mem_cons.1 member
          · rfl
          · rw [all' _ member, Bool.true_or]

end

/-- The text that an amount is written as, if it is finite and not negative. -/
theorem weighs_percent {amount : Float} {mantissa : ℕ} {exponent : ℤ}
    (finite : Binary.ofFloat amount = .finite false mantissa exponent) :
    Weighs (Weight.percent amount).render.toList (.percent amount) := by
  obtain ⟨value, layout, nearest⟩ := layout_text finite
  obtain ⟨percentage, parts⟩ := isPercentage_of_layout layout
  rw [Weight.render, String.toList_append]
  exact .percent parts percentage (by rw [layout.read?_eq, nearest])

/-- A percentage of the grammar has no sign. -/
theorem isUnsigned_of_parts {written : List Char} {amount : Float}
    (parts : ∀ character ∈ written, (character.isDigit || character == '.') = true)
    (reads : Decimal.read? written = some amount) : IsUnsigned amount := by
  refine Decimal.isUnsigned_of_read? reads fun others minus => ?_
  rw [minus] at parts
  exact absurd (parts '-' List.mem_cons_self) (by decide)

end Reader

/-! ## Whole texts -/

/-- The one text that is written for the value of a text. -/
def canonical (text : String) : String := (read text).render

/-- What a text is read as, whatever blanks it holds: a reference or a blend that it spells, a
literal if the percentage of that blend is out of range, and a literal if it spells neither. -/
inductive ReadsAs (text : String) : Value → Prop
  | spelled {value : Value} (spells : Spells (Text.trimCharacters text.toList) value)
      (inRange : Reader.isInRange value = true) : ReadsAs text value
  | outside {value : Value} (spells : Spells (Text.trimCharacters text.toList) value)
      (outOfRange : Reader.isInRange value = false) : ReadsAs text (.literal (Text.trim text))
  | other (other : ∀ value, ¬ Spells (Text.trimCharacters text.toList) value) :
      ReadsAs text (.literal (Text.trim text))

/-- The grammar says what a text is read as. -/
theorem readsAs_iff {text : String} {value : Value} : ReadsAs text value ↔ read text = value := by
  constructor
  · rintro (⟨spells, inRange⟩ | ⟨spells, outOfRange⟩ | other)
    · rw [read_of_spells spells, if_pos inRange]
    · rw [read_of_spells spells, outOfRange]
      rfl
    · exact read_of_not_spells other
  · rintro rfl
    by_cases spelled : ∃ value, Spells (Text.trimCharacters text.toList) value
    · obtain ⟨value, spells⟩ := spelled
      rw [read_of_spells spells]
      cases range : Reader.isInRange value with
      | true => exact .spelled spells range
      | false => exact .outside spells range
    · have other (value) : ¬ Spells (Text.trimCharacters text.toList) value :=
        fun spells => spelled ⟨value, spells⟩
      rw [read_of_not_spells other]
      exact .other other

/-- What stands and is spelled by a text is spelled by its own rendered text. -/
theorem Spells.render {characters : List Char} {value : Value} (spells : Spells characters value)
    (inRange : Reader.isInRange value = true) : Spells value.render.toList value := by
  cases spells with
  | reference accesses => exact .reference (accesses_render accesses.isPlain)
  | blend accesses weighs accesses' blanks apart apart' =>
      refine spells_render accesses.isPlain accesses'.isPlain ?_
      cases weighs with
      | property accesses blanks => exact weighs_render accesses.isPlain
      | @percent written amount parts percentage reads =>
          rw [Reader.isInRange, Bool.and_eq_true, decide_eq_true_eq, decide_eq_true_eq] at inRange
          obtain ⟨negative, mantissa, exponent, finite⟩ :=
            Numeric.ofFloat_of_range inRange.1 inRange.2
          rw [(Reader.isUnsigned_of_parts parts reads).eq_false finite] at finite
          exact Reader.weighs_percent finite

/-- The blanks at the ends of a text do not count. -/
theorem read_trim (text : String) : read (Text.trim text) = read text := by
  simp only [read, Text.trim, String.toList_ofList, Text.trimCharacters_trimCharacters]

/-- The text that is written for a value that was read is read as that value. -/
theorem read_canonical (text : String) : read (canonical text) = read text := by
  obtain literal | ⟨inRange, spells⟩ := read_cases text
  · rw [canonical, literal, render_literal, read_trim]
    exact literal
  · exact read_render_of_spells (spells.render inRange) inRange

/-- What was written is written in the same way again. -/
theorem canonical_canonical (text : String) : canonical (canonical text) = canonical text := by
  rw [canonical, read_canonical, ← canonical]

/-- Reading follows the grammar, whatever blanks stand in a text. The text that is written for what
was read is read as the same value, and writing changes nothing from then on. -/
theorem read_round_trips (text : String) :
    (∀ value, ReadsAs text value ↔ read text = value) ∧
      read (canonical text) = read text ∧
      ∀ count, canonical^[count] (canonical text) = canonical text :=
  ⟨fun _ => readsAs_iff, read_canonical text, Function.iterate_fixed (canonical_canonical text)⟩

example : canonical " color-mix( in  srgb,var(--a)  050.0% ,var( --b ))" =
    "color-mix(in srgb, var(--a) 50%, var(--b))" := by
  decide +kernel

end Legible.Property.Value
