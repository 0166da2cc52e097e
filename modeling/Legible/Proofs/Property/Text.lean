import Legible.Color.Basic
import Legible.Live.Evaluation
import Legible.Property.Text

/-!
# The texts that values are read from

References and blends have a grammar: names in it are plain, two dashes and at least one more name
character, and blanks are free in most places. What the grammar derives is read as the value that it
spells, and every other text is a literal. A rendered reference or blend is one of its texts.
-/

namespace Legible

namespace Text

/-- Characters that do not begin with a blank have no leading blanks to drop. -/
theorem dropBlank_cons_of_not {first : Char} (rest : List Char) (solid : isBlank first = false) :
    dropBlank (first :: rest) = first :: rest := by
  simp [dropBlank, solid]

/-- Characters without blanks at either end stay as they are. -/
theorem trimCharacters_of_solid {first last : Char} {characters middle : List Char}
    (head : ∃ rest, characters = first :: rest) (ends : characters = middle ++ [last])
    (solidFirst : isBlank first = false) (solidLast : isBlank last = false) :
    trimCharacters characters = characters := by
  obtain ⟨rest, begins⟩ := head
  have front : dropBlank characters = characters := by
    rw [begins]
    exact dropBlank_cons_of_not rest solidFirst
  have back : dropBlank characters.reverse = characters.reverse := by
    rw [ends, List.reverse_append]
    exact dropBlank_cons_of_not _ solidLast
  rw [trimCharacters, front, back, List.reverse_reverse]

/-- Characters that hold no blank stay as they are. -/
theorem trimCharacters_of_forall {characters : List Char}
    (solid : ∀ character ∈ characters, isBlank character = false) :
    trimCharacters characters = characters := by
  cases characters with
  | nil => rfl
  | cons first rest =>
      obtain ⟨middle, last, ends⟩ : ∃ middle last, first :: rest = middle ++ [last] :=
        ⟨_, _, (List.dropLast_concat_getLast (List.cons_ne_nil first rest)).symm⟩
      refine trimCharacters_of_solid ⟨rest, rfl⟩ ends (solid first List.mem_cons_self)
        (solid last ?_)
      rw [ends]
      exact List.mem_append_right _ List.mem_cons_self

/-- What is left between the blanks at the ends has none there. -/
theorem trimCharacters_trimCharacters (characters : List Char) :
    trimCharacters (trimCharacters characters) = trimCharacters characters := by
  cases left : trimCharacters characters with
  | nil => rfl
  | cons first rest =>
      obtain ⟨dropped, split⟩ : dropBlank (dropBlank characters).reverse <:+
        (dropBlank characters).reverse := List.dropWhile_suffix _
      have front : dropBlank characters = first :: (rest ++ dropped.reverse) := by
        have := congrArg List.reverse split
        rw [List.reverse_append, List.reverse_reverse] at this
        rw [← this, ← List.cons_append, ← left, trimCharacters]
      have back : dropBlank (dropBlank characters).reverse = (first :: rest).reverse := by
        rw [← left, trimCharacters, List.reverse_reverse]
      obtain ⟨last, middle, ends⟩ := List.exists_cons_of_ne_nil
        (show (first :: rest).reverse ≠ [] by simp)
      have shape : first :: rest = middle.reverse ++ [last] := by
        rw [← List.reverse_reverse (first :: rest), ends, List.reverse_cons]
      exact trimCharacters_of_solid ⟨rest, rfl⟩ shape (isBlank_head_dropBlank front)
        (isBlank_head_dropBlank (back.trans ends))

/-- A character of a name is no blank. -/
theorem isBlank_of_isNameCharacter {character : Char}
    (plain : isNameCharacter character = true) : isBlank character = false := by
  rw [isNameCharacter] at plain
  delta Char.isAlphanum Char.isAlpha Char.isUpper Char.isLower Char.isDigit at plain
  simp only [Bool.or_eq_true, Bool.and_eq_true, decide_eq_true_eq, beq_iff_eq,
    UInt32.le_iff_toNat_le, ge_iff_le] at plain
  change ((((65 ≤ character.toNat ∧ character.toNat ≤ 90) ∨
    (97 ≤ character.toNat ∧ character.toNat ≤ 122)) ∨
      (48 ≤ character.toNat ∧ character.toNat ≤ 57)) ∨ character = '_') ∨ character = '-' at plain
  rcases plain with (range | rfl) | rfl
  · simp only [isBlank, isWideBlank, Bool.or_eq_false_iff, Bool.and_eq_false_iff,
      beq_eq_false_iff_ne, decide_eq_false_iff_not]
    omega
  · decide
  · decide

/-- Digits are characters of names. -/
theorem isNameCharacter_of_isDigit {character : Char} (digit : character.isDigit = true) :
    isNameCharacter character = true := by
  simp [isNameCharacter, Char.isAlphanum, digit]

/-- Blanks, or nothing. -/
def IsBlanks (characters : List Char) : Prop :=
  ∀ character ∈ characters, isBlank character = true

/-- Leading blanks are dropped. -/
theorem dropBlank_append {blanks : List Char} (front : IsBlanks blanks) (rest : List Char) :
    dropBlank (blanks ++ rest) = dropBlank rest :=
  List.dropWhile_append_of_pos front

/-- What is dropped in front are blanks. -/
theorem exists_blanks (characters : List Char) :
    ∃ blanks, IsBlanks blanks ∧ characters = blanks ++ dropBlank characters :=
  ⟨characters.takeWhile isBlank, List.all_eq_true.1 List.all_takeWhile,
    (List.takeWhile_append_dropWhile).symm⟩

/-- A word behind blanks is dropped with them. -/
theorem expect?_blanks {blanks : List Char} (front : IsBlanks blanks) (word : String)
    (solid : word.toList.head?.any (! isBlank ·) = true) (rest : List Char) :
    expect? word (dropBlank (blanks ++ (word.toList ++ rest))) = some rest := by
  rw [dropBlank_append front]
  cases shape : word.toList with
  | nil =>
      rw [shape] at solid
      cases solid
  | cons first others =>
      rw [shape] at solid
      rw [List.cons_append, dropBlank_cons_of_not _ (by simpa using solid), ← List.cons_append,
        ← shape, expect?_append]

/-- Behind a name stand blanks or what follows them: no character of a name. -/
theorem exists_stop {blanks : List Char} (front : IsBlanks blanks) (word : String)
    (stop : word.toList.head?.any (! isNameCharacter ·) = true) (rest : List Char) :
    ∃ first others, blanks ++ (word.toList ++ rest) = first :: others ∧
      isNameCharacter first = false := by
  cases blanks with
  | nil =>
      cases shape : word.toList with
      | nil =>
          rw [shape] at stop
          cases stop
      | cons first others =>
          rw [shape] at stop
          exact ⟨first, others ++ rest, rfl, by simpa using stop⟩
  | cons first others =>
      refine ⟨first, _, rfl, Bool.eq_false_iff.2 fun plain => ?_⟩
      have blank := front first List.mem_cons_self
      rw [isBlank_of_isNameCharacter plain] at blank
      cases blank

/-- A word in front is what is dropped. -/
theorem expect?_eq_some_iff {word : String} {characters rest : List Char} :
    expect? word characters = some rest ↔ characters = word.toList ++ rest := by
  constructor
  · intro expected
    rw [expect?] at expected
    split at expected
    · next begins =>
        obtain ⟨others, rfl⟩ := List.isPrefixOf_iff_prefix.1 begins
        rw [List.drop_left, Option.some.injEq] at expected
        rw [expected]
    · cases expected
  · rintro rfl
    exact expect?_append word rest

end Text

namespace Property

/-- A name that can stand in a reference: two dashes and then name characters only,
at least one of them. -/
def Name.IsPlain (name : Name) : Prop :=
  ∃ rest, name.text.toList = '-' :: '-' :: rest ∧ rest ≠ [] ∧
    ∀ character ∈ rest, Text.isNameCharacter character = true

namespace Value

/-! ## Rendered texts -/

@[simp] theorem render_literal (text : String) : (Value.literal text).render = text := rfl

@[simp] theorem render_reference (target : Name) :
    (Value.reference target).render = "var(" ++ target.text ++ ")" := rfl

@[simp] theorem render_blend (foreground background : Name) (weight : Weight) :
    (Value.blend foreground background weight).render =
      "color-mix(in srgb, var(" ++ foreground.text ++ ") " ++ weight.render ++ ", var(" ++
        background.text ++ "))" := rfl

@[simp] theorem render_weight (name : Name) :
    (Weight.property name).render = "calc(var(" ++ name.text ++ ") * 100%)" := rfl

/-! ## The grammar -/

/-- The texts of a reference. -/
inductive Accesses : List Char → Name → Prop
  | intro {before after : List Char} {name : Name} (plain : name.IsPlain)
      (blanks : Text.IsBlanks before) (blanks' : Text.IsBlanks after) :
      Accesses ("var(".toList ++ (before ++ (name.text.toList ++ (after ++ ")".toList)))) name

/-- What is accessed has a plain name. -/
theorem Accesses.isPlain {access : List Char} {name : Name} (accesses : Accesses access name) :
    name.IsPlain := by
  obtain ⟨plain, -, -⟩ := accesses
  exact plain

/-- The texts of the weight of a blend: the product of a property and `100%`, or digits with at most
one point among them and a percent sign. -/
inductive Weighs : List Char → Weight → Prop
  | property {access first second third fourth : List Char} {name : Name}
      (accesses : Accesses access name)
      (blanks : ∀ run ∈ [first, second, third, fourth], Text.IsBlanks run) :
      Weighs ("calc(".toList ++ (first ++ (access ++ (second ++ ("*".toList ++ (third ++
        ("100%".toList ++ (fourth ++ ")".toList)))))))) (.property name)
  | percent {written : List Char} {amount : Float}
      (parts : ∀ character ∈ written, (character.isDigit || character == '.') = true)
      (percentage : Reader.isPercentage written = true)
      (reads : Numeric.Decimal.read? written = some amount) :
      Weighs (written ++ "%".toList) (.percent amount)

/-- The texts of a value that is no literal. Blanks are free where there is room for them, and have
to stand after `in` and in front of the weight. -/
inductive Spells : List Char → Value → Prop
  | reference {access : List Char} {target : Name} (accesses : Accesses access target) :
      Spells access (.reference target)
  | blend {front weighed back first second third fourth fifth sixth seventh eighth : List Char}
      {foreground background : Name} {weight : Weight} (accesses : Accesses front foreground)
      (weighs : Weighs weighed weight) (accesses' : Accesses back background)
      (blanks : ∀ run ∈ [first, second, third, fourth, fifth, sixth, seventh, eighth],
        Text.IsBlanks run) (apart : second ≠ []) (apart' : fifth ≠ []) :
      Spells ("color-mix(".toList ++ (first ++ ("in".toList ++ (second ++ ("srgb".toList ++
        (third ++ (",".toList ++ (fourth ++ (front ++ (fifth ++ (weighed ++ (sixth ++
          (",".toList ++ (seventh ++ (back ++ (eighth ++ ")".toList))))))))))))))))
        (.blend foreground background weight)

namespace Reader

open Text

section

variable {characters rest : List Char} {name : Name} {weight : Weight} {value : Value}

/-! ## Names -/

/-- A plain name does not begin with a blank. -/
theorem dropBlank_name_append (plain : name.IsPlain) (rest : List Char) :
    dropBlank (name.text.toList ++ rest) = name.text.toList ++ rest := by
  obtain ⟨tail, shape, -⟩ := plain
  rw [shape]
  exact dropBlank_cons_of_not _ (by decide)

/-- A plain name in front of something else is read off. -/
theorem name?_append (plain : name.IsPlain) {rest : List Char}
    (stops : ∃ first others, rest = first :: others ∧ isNameCharacter first = false) :
    name? (name.text.toList ++ rest) = some (name, rest) := by
  obtain ⟨first, others, rfl, stop⟩ := stops
  obtain ⟨tail, shape, present, all⟩ := plain
  have every : ∀ character ∈ name.text.toList, isNameCharacter character = true := by
    rw [shape]
    intro character member
    rcases List.mem_cons.1 member with rfl | member
    · decide
    · rcases List.mem_cons.1 member with rfl | member
      · decide
      · exact all character member
  have long : 2 < name.text.toList.length := by
    rw [shape]
    have := List.length_pos_iff.2 present
    simp only [List.length_cons]
    omega
  have begins : "--".toList.isPrefixOf name.text.toList = true := by
    rw [shape]
    rfl
  rw [name?, List.takeWhile_append_of_pos every, List.dropWhile_append_of_pos every,
    List.takeWhile_cons_of_neg (by simp [stop]), List.dropWhile_cons_of_neg (by simp [stop]),
    List.append_nil, begins, String.ofList_toList]
  simp [long]

/-- A name that is read is plain and stands in front. -/
theorem of_name? (read : name? characters = some (name, rest)) :
    name.IsPlain ∧ characters = name.text.toList ++ rest := by
  rw [name?] at read
  split at read
  · next long =>
      cases read
      rw [String.toList_ofList, List.takeWhile_append_dropWhile]
      refine ⟨?_, rfl⟩
      rw [Bool.and_eq_true, List.isPrefixOf_iff_prefix, decide_eq_true_eq] at long
      obtain ⟨⟨tail, begins⟩, long⟩ := long
      have every := List.all_eq_true.1 (List.all_takeWhile (p := isNameCharacter) (l := characters))
      rw [← begins] at every long
      refine ⟨tail, ?_, ?_, fun character member => every character ?_⟩
      · rw [String.toList_ofList, ← begins]
        rfl
      · rintro rfl
        exact absurd long (by decide)
      · exact List.mem_append_right _ member
  · cases read

/-! ## References -/

/-- An access in front of anything is read off. -/
theorem access?_append {access : List Char} (accesses : Accesses access name) (rest : List Char) :
    access? (access ++ rest) = some (name, rest) := by
  obtain ⟨plain, blanks, blanks'⟩ := accesses
  have named := name?_append plain (exists_stop blanks' ")" (by decide) rest)
  simp only [List.append_assoc]
  rw [access?, expect?_append, Option.bind_eq_bind, Option.bind_some, dropBlank_append blanks,
    dropBlank_name_append plain, named]
  simp only [Option.bind_eq_bind, Option.bind_some, expect?_blanks blanks' ")" (by decide)]
  rfl

/-- What is read as an access is one. -/
theorem exists_of_access? (read : access? characters = some (name, rest)) :
    ∃ access, Accesses access name ∧ characters = access ++ rest := by
  obtain ⟨opened, begins, read⟩ := Option.bind_eq_some_iff.1 read
  obtain ⟨⟨found, afterName⟩, named, read⟩ := Option.bind_eq_some_iff.1 read
  obtain ⟨closed, ends, given⟩ := Option.bind_eq_some_iff.1 read
  cases given
  obtain ⟨plain, shape⟩ := of_name? named
  obtain ⟨before, blanks, split⟩ := exists_blanks opened
  obtain ⟨after, blanks', split'⟩ := exists_blanks afterName
  refine ⟨_, .intro plain blanks blanks', ?_⟩
  rw [expect?_eq_some_iff.1 begins, split, shape, split', expect?_eq_some_iff.1 ends]
  simp only [List.append_assoc]

/-- An access does not begin with a blank. -/
theorem dropBlank_access_append {access : List Char} (accesses : Accesses access name)
    (rest : List Char) : dropBlank (access ++ rest) = access ++ rest := by
  obtain ⟨-, -, -⟩ := accesses
  exact dropBlank_cons_of_not _ (by decide)

/-- What is read as a reference is one, and the other way round. -/
theorem reference?_eq_some_iff : reference? characters = some value ↔
    ∃ target, value = .reference target ∧ Accesses characters target := by
  constructor
  · intro read
    obtain ⟨⟨target, rest⟩, accessed, given⟩ := Option.bind_eq_some_iff.1 read
    obtain ⟨access, accesses, rfl⟩ := exists_of_access? accessed
    cases rest with
    | nil =>
        cases given
        exact ⟨target, rfl, by rwa [List.append_nil]⟩
    | cons first others => cases given
  · rintro ⟨target, rfl, accesses⟩
    have accessed := access?_append accesses []
    rw [List.append_nil] at accessed
    rw [reference?, accessed]
    rfl

/-! ## Weights -/

/-- A product in front of anything is read off. -/
theorem scaled?_append {weighed : List Char} (weighs : Weighs weighed (.property name))
    (rest : List Char) : scaled? (weighed ++ rest) = some (name, rest) := by
  cases weighs with
  | @property access first second third fourth _ accesses blanks =>
      obtain ⟨blanks, blanks₂, blanks₃, blanks₄⟩ :
          IsBlanks first ∧ IsBlanks second ∧ IsBlanks third ∧ IsBlanks fourth := by
        simpa using blanks
      simp only [List.append_assoc]
      rw [scaled?, expect?_append, Option.bind_eq_bind, Option.bind_some, dropBlank_append blanks,
        dropBlank_access_append accesses, access?_append accesses]
      simp only [Option.bind_eq_bind, Option.bind_some, expect?_blanks blanks₂ "*" (by decide),
        expect?_blanks blanks₃ "100%" (by decide), expect?_blanks blanks₄ ")" (by decide)]
      rfl

/-- What is read as a product is one. -/
theorem exists_of_scaled? (read : scaled? characters = some (name, rest)) :
    ∃ weighed, Weighs weighed (.property name) ∧ characters = weighed ++ rest := by
  obtain ⟨opened, begins, read⟩ := Option.bind_eq_some_iff.1 read
  obtain ⟨⟨found, afterName⟩, accessed, read⟩ := Option.bind_eq_some_iff.1 read
  obtain ⟨afterSign, sign, read⟩ := Option.bind_eq_some_iff.1 read
  obtain ⟨afterFactor, factor, read⟩ := Option.bind_eq_some_iff.1 read
  obtain ⟨closed, ends, given⟩ := Option.bind_eq_some_iff.1 read
  cases given
  obtain ⟨access, accesses, shape⟩ := exists_of_access? accessed
  obtain ⟨first, blanks, split⟩ := exists_blanks opened
  obtain ⟨second, blanks₂, split₂⟩ := exists_blanks afterName
  obtain ⟨third, blanks₃, split₃⟩ := exists_blanks afterSign
  obtain ⟨fourth, blanks₄, split₄⟩ := exists_blanks afterFactor
  have runs : ∀ run ∈ [first, second, third, fourth], IsBlanks run := by
    simpa using ⟨blanks, blanks₂, blanks₃, blanks₄⟩
  refine ⟨_, .property accesses runs, ?_⟩
  rw [expect?_eq_some_iff.1 begins, split, shape, split₂, expect?_eq_some_iff.1 sign, split₃,
    expect?_eq_some_iff.1 factor, split₄, expect?_eq_some_iff.1 ends]
  simp only [List.append_assoc]

/-- A percentage begins with one of its characters. -/
theorem exists_head_of_isPercentage (percentage : isPercentage characters = true) :
    ∃ first others, characters = first :: others := by
  cases characters with
  | nil => cases percentage
  | cons first others => exact ⟨first, others, rfl⟩

/-- A weight in front of anything is read off. -/
theorem weight?_append {weighed : List Char} (weighs : Weighs weighed weight) (rest : List Char) :
    weight? (weighed ++ rest) = some (weight, rest) := by
  cases weighs with
  | property accesses blanks => rw [weight?, scaled?_append (.property accesses blanks)]
  | @percent written amount parts percentage reads =>
      have noScale : scaled? (written ++ "%".toList ++ rest) = none := by
        obtain ⟨first, others, rfl⟩ := exists_head_of_isPercentage percentage
        have other : first ≠ 'c' := by
          rintro rfl
          exact absurd (parts 'c' List.mem_cons_self) (by decide)
        rw [scaled?]
        simp [expect?, List.isPrefixOf, other.symm]
      have taken : percentage? (written ++ "%".toList ++ rest) = some (amount, rest) := by
        have closed : expect? "%" ('%' :: rest) = some rest := expect?_append "%" _
        change percentage? (written ++ ['%'] ++ rest) = _
        rw [List.append_assoc, List.singleton_append, percentage?]
        simp only [List.takeWhile_append_of_pos parts, List.dropWhile_append_of_pos parts]
        rw [List.takeWhile_cons_of_neg (by decide), List.dropWhile_cons_of_neg (by decide),
          List.append_nil, closed, reads, Option.bind_eq_bind, Option.bind_some,
          Option.bind_eq_bind, Option.bind_some, if_pos percentage]
        rfl
      rw [weight?, noScale, taken]
      rfl

/-- What is read as a weight is one. -/
theorem exists_of_weight? (read : weight? characters = some (weight, rest)) :
    ∃ weighed, Weighs weighed weight ∧ characters = weighed ++ rest := by
  rw [weight?] at read
  split at read
  · next scaled =>
      cases read
      exact exists_of_scaled? scaled
  · obtain ⟨⟨amount, rest⟩, percentage, given⟩ := Option.map_eq_some_iff.1 read
    cases given
    obtain ⟨afterUnit, unit, read⟩ := Option.bind_eq_some_iff.1 percentage
    obtain ⟨number, spelled, given⟩ := Option.bind_eq_some_iff.1 read
    split at given
    · next percentage =>
        cases given
        refine ⟨_, .percent (List.all_eq_true.1 List.all_takeWhile) percentage spelled, ?_⟩
        rw [List.append_assoc, ← expect?_eq_some_iff.1 unit, List.takeWhile_append_dropWhile]
    · cases given

/-- A weight does not begin with a blank. -/
theorem dropBlank_weight_append {weighed : List Char} (weighs : Weighs weighed weight)
    (rest : List Char) : dropBlank (weighed ++ rest) = weighed ++ rest := by
  cases weighs with
  | property => exact dropBlank_cons_of_not _ (by decide)
  | percent parts percentage =>
      obtain ⟨first, others, rfl⟩ := exists_head_of_isPercentage percentage
      refine dropBlank_cons_of_not _ ?_
      obtain digit | point := Bool.or_eq_true_iff.1 (parts first List.mem_cons_self)
      · exact isBlank_of_isNameCharacter (isNameCharacter_of_isDigit digit)
      · rw [eq_of_beq point]
        rfl

/-! ## Blends -/

/-- Blanks that have to stand are read off. -/
theorem expectBlank?_append {blanks : List Char} (front : IsBlanks blanks) (present : blanks ≠ [])
    (solid : dropBlank rest = rest) : expectBlank? (blanks ++ rest) = some rest := by
  obtain ⟨first, others, rfl⟩ := List.exists_cons_of_ne_nil present
  obtain ⟨blank, blanks⟩ := List.forall_mem_cons.1 front
  rw [List.cons_append, expectBlank?, if_pos blank, dropBlank_append blanks, solid]

/-- What is read as blanks are blanks. -/
theorem exists_of_expectBlank? (read : expectBlank? characters = some rest) :
    ∃ blanks, IsBlanks blanks ∧ blanks ≠ [] ∧ characters = blanks ++ rest := by
  cases characters with
  | nil => cases read
  | cons first others =>
      rw [expectBlank?] at read
      split at read
      · next blank =>
          cases read
          obtain ⟨blanks, front, split⟩ := exists_blanks others
          refine ⟨first :: blanks, List.forall_mem_cons.2 ⟨blank, front⟩, List.cons_ne_nil _ _, ?_⟩
          rw [List.cons_append, ← split]
      · cases read

/-- A comma with blanks around it is read off. -/
theorem comma?_append {before after : List Char} (blanks : IsBlanks before)
    (blanks' : IsBlanks after) (solid : dropBlank rest = rest) :
    comma? (before ++ (",".toList ++ (after ++ rest))) = some rest := by
  rw [comma?, expect?_blanks blanks "," (by decide), Option.map_some, dropBlank_append blanks',
    solid]

/-- What is read as a comma is one with blanks around it. -/
theorem exists_of_comma? (read : comma? characters = some rest) :
    ∃ before after, IsBlanks before ∧ IsBlanks after ∧
      characters = before ++ (",".toList ++ (after ++ rest)) := by
  obtain ⟨afterComma, comma, rfl⟩ := Option.map_eq_some_iff.1 read
  obtain ⟨before, blanks, split⟩ := exists_blanks characters
  obtain ⟨after, blanks', split'⟩ := exists_blanks afterComma
  refine ⟨before, after, blanks, blanks', ?_⟩
  rw [← split', ← expect?_eq_some_iff.1 comma, ← split]

/-- A blend is read. -/
theorem blend?_of_spells {foreground background : Name}
    (spells : Spells characters (.blend foreground background weight)) :
    blend? characters = some (.blend foreground background weight) := by
  cases spells with
  | @blend front weighed back first second third fourth fifth sixth seventh eighth _ _ _ accesses
      weighs accesses' blanks apart apart' =>
      obtain ⟨blanks, blanks₂, blanks₃, blanks₄, blanks₅, blanks₆, blanks₇, blanks₈⟩ :
          IsBlanks first ∧ IsBlanks second ∧ IsBlanks third ∧ IsBlanks fourth ∧ IsBlanks fifth ∧
            IsBlanks sixth ∧ IsBlanks seventh ∧ IsBlanks eighth := by
        simpa using blanks
      have space (rest : List Char) : dropBlank ("srgb".toList ++ rest) = "srgb".toList ++ rest :=
        dropBlank_cons_of_not _ (by decide)
      have closed : expect? ")" (dropBlank (eighth ++ ")".toList)) = some [] := by
        simpa using expect?_blanks blanks₈ ")" (by decide) []
      rw [blend?, expect?_append]
      simp only [Option.bind_eq_bind, Option.bind_some, expect?_blanks blanks "in" (by decide),
        expectBlank?_append blanks₂ apart (space _), expect?_append,
        comma?_append blanks₃ blanks₄ (dropBlank_access_append accesses _),
        access?_append accesses,
        expectBlank?_append blanks₅ apart' (dropBlank_weight_append weighs _),
        weight?_append weighs,
        comma?_append blanks₆ blanks₇ (dropBlank_access_append accesses' _),
        access?_append accesses', closed]
      rfl

/-- What is read as a blend is one. -/
theorem spells_of_blend? (read : blend? characters = some value) :
    Spells characters value := by
  simp only [blend?, Option.bind_eq_bind, Option.bind_eq_some_iff, Prod.exists] at read
  obtain ⟨opened, begins, afterIn, inside, space, apart, afterSpace, srgb, comma, separated,
    foreground, afterForeground, front, share, apart', weight, afterWeight, weighed, comma',
    separated', background, afterBackground, back, rest, ends, given⟩ := read
  split at given
  · next nothing =>
      cases given
      obtain ⟨first, blanks, split⟩ := exists_blanks opened
      obtain ⟨second, blanks₂, present, split₂⟩ := exists_of_expectBlank? apart
      obtain ⟨third, fourth, blanks₃, blanks₄, split₃⟩ := exists_of_comma? separated
      obtain ⟨access, accesses, shape⟩ := exists_of_access? front
      obtain ⟨fifth, blanks₅, present', split₅⟩ := exists_of_expectBlank? apart'
      obtain ⟨weighed, weighs, shape'⟩ := exists_of_weight? weighed
      obtain ⟨sixth, seventh, blanks₆, blanks₇, split₆⟩ := exists_of_comma? separated'
      obtain ⟨access', accesses', shape''⟩ := exists_of_access? back
      obtain ⟨eighth, blanks₈, split₈⟩ := exists_blanks afterBackground
      have runs : ∀ run ∈ [first, second, third, fourth, fifth, sixth, seventh, eighth],
          IsBlanks run := by
        simpa using ⟨blanks, blanks₂, blanks₃, blanks₄, blanks₅, blanks₆, blanks₇, blanks₈⟩
      have layout := Spells.blend accesses weighs accesses' runs present present'
      rw [expect?_eq_some_iff.1 begins, split, expect?_eq_some_iff.1 inside, split₂,
        expect?_eq_some_iff.1 srgb, split₃, shape, split₅, shape', split₆, shape'', split₈,
        expect?_eq_some_iff.1 ends, List.isEmpty_iff.1 nothing, List.append_nil]
      exact layout
  · cases given

end

end Reader

/-! ## Whole texts -/

namespace Spells

variable {characters : List Char} {value : Value}

/-- The texts of the grammar are those that are read as a reference or a blend. -/
theorem iff_read : Spells characters value ↔
    Reader.reference? characters = some value ∨
      Reader.reference? characters = none ∧ Reader.blend? characters = some value := by
  constructor
  · intro spells
    cases spells with
    | reference accesses => exact .inl (Reader.reference?_eq_some_iff.2 ⟨_, rfl, accesses⟩)
    | blend accesses weighs accesses' blanks apart apart' =>
        have spells := Spells.blend accesses weighs accesses' blanks apart apart'
        refine .inr ⟨?_, Reader.blend?_of_spells spells⟩
        simp [Reader.reference?, Reader.access?, Text.expect?, List.isPrefixOf]
  · rintro (reference | ⟨-, blend⟩)
    · obtain ⟨target, rfl, accesses⟩ := Reader.reference?_eq_some_iff.1 reference
      exact .reference accesses
    · exact Reader.spells_of_blend? blend

/-- A text of the grammar has no blanks at its ends. -/
theorem trimCharacters_eq (spells : Spells characters value) :
    Text.trimCharacters characters = characters := by
  obtain ⟨⟨first, rest, begins, solid⟩, middle, ends⟩ :
      (∃ first rest, characters = first :: rest ∧ Text.isBlank first = false) ∧
        ")".toList <:+ characters := by
    cases spells with
    | reference accesses =>
        obtain ⟨-, -, -⟩ := accesses
        refine ⟨⟨'v', _, rfl, by decide⟩, ?_⟩
        simp only [← List.append_assoc]
        exact List.suffix_append _ _
    | blend accesses weighs accesses' blanks apart apart' =>
        refine ⟨⟨'c', _, rfl, by decide⟩, ?_⟩
        simp only [← List.append_assoc]
        exact List.suffix_append _ _
  exact Text.trimCharacters_of_solid ⟨rest, begins⟩ ends.symm solid (by decide)

/-- The names in a text of the grammar are plain. -/
theorem isPlain (spells : Spells characters value) {name : Name}
    (member : name ∈ value.references) : name.IsPlain := by
  cases spells with
  | reference accesses =>
      rw [List.mem_singleton.1 member]
      exact accesses.isPlain
  | blend accesses weighs accesses' blanks apart apart' =>
      rcases List.mem_append.1 member with operand | share
      · rcases List.mem_cons.1 operand with rfl | operand
        · exact accesses.isPlain
        · rw [List.mem_singleton.1 operand]
          exact accesses'.isPlain
      · cases weighs with
        | property weighs =>
            cases Option.mem_toList.1 share
            exact weighs.isPlain
        | percent parts percentage reads => cases share

end Spells

/-- A text of the grammar is read as what it spells, or as a literal if that cannot stand. -/
theorem read_of_spells {text : String} {value : Value}
    (spells : Spells (Text.trimCharacters text.toList) value) :
    read text = if Reader.isInRange value then value else .literal (Text.trim text) := by
  have structured : (Reader.reference? (Text.trimCharacters text.toList)).orElse (fun _ =>
      Reader.blend? (Text.trimCharacters text.toList)) = some value := by
    rw [Option.orElse_eq_or, Option.or_eq_some_iff]
    exact Spells.iff_read.1 spells
  rw [read, structured, Option.filter_some]
  cases Reader.isInRange value <;> rfl

/-- A text outside the grammar is a literal. -/
theorem read_of_not_spells {text : String}
    (other : ∀ value, ¬ Spells (Text.trimCharacters text.toList) value) :
    read text = .literal (Text.trim text) := by
  have nothing : (Reader.reference? (Text.trimCharacters text.toList)).orElse (fun _ =>
      Reader.blend? (Text.trimCharacters text.toList)) = none := by
    rw [Option.eq_none_iff_forall_ne_some]
    intro value structured
    rw [Option.orElse_eq_or, Option.or_eq_some_iff] at structured
    exact other value (Spells.iff_read.2 structured)
  rw [read, nothing]
  rfl

/-- A text is a literal without the blanks at its ends, or spells what it is read as. -/
theorem read_cases (text : String) :
    read text = .literal (Text.trim text) ∨
      Reader.isInRange (read text) = true ∧
        Spells (Text.trimCharacters text.toList) (read text) := by
  by_cases spelled : ∃ value, Spells (Text.trimCharacters text.toList) value
  · obtain ⟨value, spells⟩ := spelled
    rw [read_of_spells spells]
    split
    · next inRange => exact .inr ⟨inRange, spells⟩
    · exact .inl rfl
  · exact .inl (read_of_not_spells fun value spells => spelled ⟨value, spells⟩)

/-- Every property that a text reads has a plain name. -/
theorem isPlain_of_read {text : String} {name : Name} (member : name ∈ (read text).references) :
    name.IsPlain := by
  obtain literal | ⟨-, spells⟩ := read_cases text
  · rw [literal] at member
    cases member
  · exact spells.isPlain member

/-- A text whose first character is neither `v` nor `c` is a literal. -/
theorem read_of_head {text : String} {first : Char} {rest : List Char}
    (begins : Text.trimCharacters text.toList = first :: rest) (noReference : first ≠ 'v')
    (noBlend : first ≠ 'c') : read text = .literal (Text.trim text) := by
  refine read_of_not_spells fun value spells => ?_
  rw [begins] at spells
  generalize shape : first :: rest = characters at spells
  cases spells with
  | reference accesses =>
      obtain ⟨-, -, -⟩ := accesses
      exact noReference (List.cons.inj shape).1
  | blend => exact noBlend (List.cons.inj shape).1

/-! ## Rendered values -/

/-- The text that a reference is written as. -/
theorem accesses_render {name : Name} (plain : name.IsPlain) :
    Accesses ("var(" ++ name.text ++ ")").toList name := by
  have nothing : Text.IsBlanks [] := List.forall_mem_nil _
  simpa [String.toList_append] using Accesses.intro plain nothing nothing

/-- The text that a weight by a property is written as. -/
theorem weighs_render {name : Name} (plain : name.IsPlain) :
    Weighs (Weight.property name).render.toList (.property name) := by
  have layout := @Weighs.property _ [] [' '] [' '] [] _ (accesses_render plain)
    (by simp [Text.IsBlanks, Text.isBlank])
  simpa [String.toList_append] using layout

/-- The text that a blend is written as. -/
theorem spells_render {foreground background : Name} {weight : Weight}
    (front : foreground.IsPlain) (back : background.IsPlain)
    (weighs : Weighs weight.render.toList weight) :
    Spells (Value.blend foreground background weight).render.toList
      (.blend foreground background weight) := by
  have layout := @Spells.blend _ _ _ [] [' '] [] [' '] [' '] [] [' '] [] _ _ _
    (accesses_render front) weighs (accesses_render back) (by simp [Text.IsBlanks, Text.isBlank])
    (List.cons_ne_nil _ _) (List.cons_ne_nil _ _)
  simpa [String.toList_append] using layout

/-- A value that stands and whose rendered text spells it reads back. -/
theorem read_render_of_spells {value : Value} (spells : Spells value.render.toList value)
    (inRange : Reader.isInRange value = true) : read value.render = value := by
  have trimmed := spells.trimCharacters_eq
  rw [read_of_spells (trimmed.symm ▸ spells), if_pos inRange]

/-- A reference to a plain name reads back. -/
theorem read_render_reference {target : Name} (plain : target.IsPlain) :
    read (Value.reference target).render = .reference target :=
  read_render_of_spells (.reference (accesses_render plain)) rfl

/-- A blend of plain names by a plain name reads back. -/
theorem read_render_blend {foreground background weight : Name} (front : foreground.IsPlain)
    (back : background.IsPlain) (share : weight.IsPlain) :
    read (Value.blend foreground background (.property weight)).render =
      .blend foreground background (.property weight) :=
  read_render_of_spells (spells_render front back (weighs_render share)) rfl

end Value

end Property

end Legible
