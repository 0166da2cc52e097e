import Legible.Live.Validation
import Legible.Proofs.Property.Name
import Legible.Proofs.Token.Index

/-!
# What the validator lets through

The validator answers in seven ways about a value for a property of a tier with a list. What it
lets through fits the tier: an indirection over properties that may be read, every token among
them known to the index. Such a value is let through as it is, and a value that does not fit is
mended or refused, the refusal saying what is wrong with it.
-/

namespace Legible

open Property

/-- A value that reads properties of some tiers alone; the weight of a blend is a
token. -/
inductive Property.Value.IsIndirect (allowed : List Tier) : Value → Prop where
  | reference {target : Name} (readable : target.tier ∈ allowed) :
      IsIndirect allowed (.reference target)
  | blend {foreground background weight : Name} (front : foreground.tier ∈ allowed)
      (back : background.tier ∈ allowed) (share : weight.tier = .tokens) :
      IsIndirect allowed (.blend foreground background (.property weight))

/-- The tiers with a list read tokens, and otherwise brand properties at most. -/
theorem Property.Tier.of_readable? {tier : Tier} {allowed : List Tier}
    (readable : tier.readable? = some allowed) :
    Tier.tokens ∈ allowed ∧ ∀ other ∈ allowed, other = .tokens ∨ other = .brand := by
  cases tier <;> cases readable <;> decide

/-- Apart from a weight, an indirection reads the tiers it may read. -/
theorem Property.Value.IsIndirect.tier_of_mem {allowed : List Tier} {value : Value} {target : Name}
    (indirect : value.IsIndirect allowed) (member : target ∈ value.references) :
    target.tier ∈ allowed ∨ target.tier = .tokens := by
  cases indirect with
  | reference readable => exact .inl (List.mem_singleton.1 member ▸ readable)
  | blend front back share =>
      simp only [references, Weight.property?, Option.toList_some, List.cons_append,
        List.nil_append, List.mem_cons, List.not_mem_nil, or_false] at member
      rcases member with rfl | rfl | rfl
      · exact .inl front
      · exact .inl back
      · exact .inr share

namespace Validation

variable {index : Token.Index} {allowed : List Tier} {name target : Name} {value : Value}
  {text : String} {amount : Float} {path : Token.Path}

/-! ## Literals and the tokens that they spell -/

/-- Whether a literal spells what a token holds: a color, a length in px, or a number without
unit, numbers up to a billionth. -/
inductive Spells (text : String) : Token.Value → Prop where
  | color {color : Color} (reads : Color.read? text = some color) : Spells text (.color color)
  | dimension {digits : List Char} {amount pixels : Float} (noColor : Color.read? text = none)
      (unit : Token.beforePixels? (Text.trimCharacters text.toList) = some digits)
      (reads : Numeric.Decimal.read? (Text.trimCharacters digits) = some amount)
      (close : Token.Index.isClose pixels amount = true) : Spells text (.dimension pixels)
  | number {amount held : Float} (noColor : Color.read? text = none)
      (noUnit : Token.beforePixels? (Text.trimCharacters text.toList) = none)
      (reads : Numeric.Decimal.read? (Text.trimCharacters text.toList) = some amount)
      (close : Token.Index.isClose held amount = true) : Spells text (.number held)

/-- The token that matches a literal holds what the literal spells. -/
theorem spells_of_matchingToken? (found : matchingToken? index text = some path) :
    ∃ held, index.values[path]? = some held ∧ Spells text held := by
  unfold matchingToken? at found
  dsimp only at found
  split at found
  · next color reads => exact ⟨_, Token.Index.getElem?_of_findColor? found, .color reads⟩
  · next noColor =>
      split at found
      · next digits unit =>
          obtain ⟨amount, reads, found⟩ := Option.bind_eq_some_iff.1 found
          obtain ⟨held, token, holds⟩ := Token.Index.exists_of_findNumber? found
          refine ⟨held, token, ?_⟩
          cases held with
          | dimension pixels => exact .dimension noColor unit reads holds
          | _ => cases holds
      · next noUnit =>
          obtain ⟨amount, reads, found⟩ := Option.bind_eq_some_iff.1 found
          obtain ⟨held, token, holds⟩ := Token.Index.exists_of_findNumber? found
          refine ⟨held, token, ?_⟩
          cases held with
          | number held => exact .number noColor noUnit reads holds
          | _ => cases holds

/-- A literal without a matching token spells nothing that a token holds. -/
theorem not_spells_of_matchingToken? {held : Token.Value}
    (missing : matchingToken? index text = none) (token : index.values[path]? = some held) :
    ¬ Spells text held := by
  intro spells
  cases spells with
  | color reads =>
      rw [matchingToken?, reads] at missing
      exact Token.Index.ne_color_of_findColor? missing token rfl
  | dimension noColor unit reads close =>
      rw [matchingToken?, noColor, unit] at missing
      simp only [reads, Option.bind_some] at missing
      have other := Token.Index.holdsNumber_of_findNumber? missing token
      rw [Token.Index.holdsNumber, close] at other
      cases other
  | number noColor noUnit reads close =>
      rw [matchingToken?, noColor, noUnit] at missing
      simp only [reads, Option.bind_some] at missing
      have other := Token.Index.holdsNumber_of_findNumber? missing token
      rw [Token.Index.holdsNumber, close] at other
      cases other

/-! ## Values that fit -/

/-- A value that a property may hold as it is: an indirection over properties of the tiers that it
may read, the tokens among them known to the index. -/
structure Fits (index : Token.Index) (allowed : List Tier) (value : Value) : Prop where
  indirect : value.IsIndirect allowed
  known : ∀ target ∈ value.references, target.tier = .tokens →
    (index.pathOf? target).isSome = true

/-- What is not forbidden is in a readable tier. -/
theorem tier_of_forbidden? (permitted : forbidden? allowed value = none)
    (member : target ∈ value.references) : target.tier ∈ allowed := by
  unfold forbidden? at permitted
  dsimp only at permitted
  rw [Option.orElse_eq_or, Option.or_eq_none_iff, List.find?_eq_none] at permitted
  simpa using permitted.1 target member

/-- A weight that is not forbidden is a token. -/
theorem tier_of_weight {foreground background weight : Name}
    (permitted : forbidden? allowed (.blend foreground background (.property weight)) = none) :
    weight.tier = .tokens := by
  rw [forbidden?, Option.orElse_eq_or, Option.or_eq_none_iff] at permitted
  simpa using permitted.2

/-- A property that is forbidden is read in a tier that may not be read, or is a weight outside
the tokens. -/
theorem outside_of_forbidden? (found : forbidden? allowed value = some target) :
    target ∈ value.references ∧ (target.tier ∉ allowed ∨
      ∃ foreground background, value = .blend foreground background (.property target) ∧
        target.tier ≠ .tokens) := by
  unfold forbidden? at found
  dsimp only at found
  rw [Option.orElse_eq_or, Option.or_eq_some_iff] at found
  rcases found with operand | ⟨-, weight⟩
  · exact ⟨List.mem_of_find?_eq_some operand, .inl (by simpa using List.find?_some operand)⟩
  · split at weight
    · next foreground background share =>
        split at weight
        · cases weight
        · next outside =>
            cases weight
            exact ⟨by simp [Value.references, Weight.property?],
              .inr ⟨foreground, background, rfl, outside⟩⟩
    · cases weight

/-- A token that is not unknown is published by the index. -/
theorem isSome_pathOf?_of_unknown? (known : unknown? index value = none)
    (member : target ∈ value.references) (tier : target.tier = .tokens) :
    (index.pathOf? target).isSome = true := by
  rw [unknown?, List.find?_eq_none] at known
  have published := known target member
  rw [tier, beq_self_eq_true, Bool.true_and, Option.isNone_iff_eq_none] at published
  exact Option.isSome_iff_ne_none.2 published

/-- What passes both checks and has a weight of its own, if any, fits. -/
theorem fits_of_checks (permitted : forbidden? allowed value = none)
    (known : unknown? index value = none) (indirect : value.isLiteral = false)
    (read : value.hasFixedWeight = false) : Fits index allowed value where
  indirect := by
    have tiers := fun target => @tier_of_forbidden? allowed target value permitted
    cases value with
    | literal text => cases indirect
    | reference target => exact .reference (tiers _ (List.mem_singleton_self _))
    | blend foreground background weight =>
        cases weight with
        | percent amount => cases read
        | property weight =>
            exact .blend (tiers _ (by simp [Value.references]))
              (tiers _ (by simp [Value.references])) (tier_of_weight permitted)
  known target member tier := isSome_pathOf?_of_unknown? known member tier

/-- A value that fits passes both checks and has nothing to be mended. -/
theorem checkIndirection_of_fits (fits : Fits index allowed value)
    (tokens : Tier.tokens ∈ allowed) :
    checkIndirection name value allowed index = .ok (.accepted value) := by
  have tiers : value.references.find? (fun target => !allowed.contains target.tier) = none := by
    rw [List.find?_eq_none]
    intro target member
    have readable : target.tier ∈ allowed := by
      rcases fits.indirect.tier_of_mem member with operand | token
      · exact operand
      · exact token ▸ tokens
    simp [readable]
  have known : unknown? index value = none := by
    rw [unknown?, List.find?_eq_none]
    intro target member
    by_cases tier : target.tier = .tokens
    · simp [← Option.not_isSome, fits.known target member tier]
    · simp [tier]
  have permitted : forbidden? allowed value = none := by
    unfold forbidden?
    dsimp only
    rw [tiers]
    cases fits.indirect with
    | reference readable => rfl
    | blend front back share => simp [share]
  rw [checkIndirection, permitted, known]
  cases fits.indirect <;> rfl

/-! ## The answers of the validator -/

/-- The ways in which the validator answers about a value for a property that may read some
tiers. -/
inductive Answers (index : Token.Index) (allowed : List Tier) (name : Name) :
    Value → Except WriteError Verdict → Prop where
  | matched {text : String} {path : Token.Path} (found : matchingToken? index text = some path) :
      Answers index allowed name (.literal text)
        (.ok (.repaired text (.reference (Name.ofToken path))))
  | unmatched {text : String} (missing : matchingToken? index text = none) :
      Answers index allowed name (.literal text) (.error (.unmatchedLiteral name text))
  | forbidden {value : Value} {target : Name} (found : forbidden? allowed value = some target) :
      Answers index allowed name value (.error (.forbiddenReference name target))
  | unknown {value : Value} {target : Name} (found : unknown? index value = some target) :
      Answers index allowed name value (.error (.unknownTarget name target))
  | fitting {value : Value} (fits : Fits index allowed value) :
      Answers index allowed name value (.ok (.accepted value))
  | weighed {foreground background : Name} {amount : Float} {path : Token.Path}
      (permitted : forbidden? allowed (.blend foreground background (.percent amount)) = none)
      (known : unknown? index (.blend foreground background (.percent amount)) = none)
      (found : index.findNumber? (amount / 100) false = some path) :
      Answers index allowed name (.blend foreground background (.percent amount))
        (.ok (.repaired (Value.blend foreground background (.percent amount)).render
          (.blend foreground background (.property (Name.ofToken path)))))
  | unweighed {foreground background : Name} {amount : Float}
      (missing : index.findNumber? (amount / 100) false = none) :
      Answers index allowed name (.blend foreground background (.percent amount))
        (.error (.unmatchedLiteral name
          (Value.blend foreground background (.percent amount)).render))

theorem answers_checkIndirection (indirect : value.isLiteral = false) :
    Answers index allowed name value (checkIndirection name value allowed index) := by
  rw [checkIndirection]
  split
  · next target found => exact .forbidden found
  · next permitted =>
      split
      · next target found => exact .unknown found
      · next known =>
          have fits := fits_of_checks permitted known indirect
          cases value with
          | literal text => cases indirect
          | reference target => exact .fitting (fits rfl)
          | blend foreground background weight =>
              cases weight with
              | property weight => exact .fitting (fits rfl)
              | percent amount =>
                  rw [settle]
                  split
                  · next path found => exact .weighed permitted known found
                  · next missing => exact .unweighed missing

/-- In a tier with a list, the validator answers in one of these ways. -/
theorem answers_validate (readable : name.tier.readable? = some allowed) :
    Answers index allowed name value (validate name value index) := by
  rw [validate, readable]
  dsimp only
  split
  · split
    · next path found => exact .matched found
    · next missing => exact .unmatched missing
  · next notLiteral =>
      refine answers_checkIndirection ?_
      cases value with
      | literal text => exact absurd rfl (notLiteral text)
      | _ => rfl

/-- What the validator lets through fits: a token that it puts in is in the index, so it is
published, and the operands beside it have passed the checks. -/
theorem fits_of_answers {document : Document} {verdict : Verdict} (tokens : Tier.tokens ∈ allowed)
    (answers : Answers (.ofDocument document) allowed name value (.ok verdict)) :
    Fits (.ofDocument document) allowed verdict.value := by
  have published {path : Token.Path} {held : Token.Value}
      (token : (Token.Index.ofDocument document).values[path]? = some held) :
      ((Token.Index.ofDocument document).pathOf? (Name.ofToken path)).isSome = true :=
    Option.isSome_iff_exists.2 (Token.Index.pathOf?_ofToken token)
  cases answers with
  | fitting fits => exact fits
  | matched found =>
      obtain ⟨held, token, -⟩ := spells_of_matchingToken? found
      refine ⟨.reference (by rwa [Name.tier_ofToken]), fun target member _ => ?_⟩
      rw [List.mem_singleton.1 member]
      exact published token
  | weighed permitted known found =>
      obtain ⟨held, token, -⟩ := Token.Index.exists_of_findNumber? found
      refine ⟨.blend (tier_of_forbidden? permitted (by simp [Value.references]))
        (tier_of_forbidden? permitted (by simp [Value.references])) (Name.tier_ofToken _),
        fun target member tier => ?_⟩
      rcases List.mem_append.1 member with operand | share
      · exact isSome_pathOf?_of_unknown? known (List.mem_append_left _ operand) tier
      · rw [List.mem_singleton.1 share]
        exact published token

/-! ## What it says -/

/-- A verdict keeps a value, or puts a token in the place of a literal or of a percentage that the
token holds. -/
inductive Mends (index : Token.Index) : Value → Verdict → Prop where
  | kept (value : Value) : Mends index value (.accepted value)
  | literal {text : String} {path : Token.Path} {held : Token.Value}
      (token : index.values[path]? = some held) (spells : Spells text held) :
      Mends index (.literal text) (.repaired text (.reference (Name.ofToken path)))
  | weight {foreground background : Name} {amount : Float} {path : Token.Path} {held : Token.Value}
      (token : index.values[path]? = some held)
      (holds : Token.Index.holdsNumber (amount / 100) false held = true) :
      Mends index (.blend foreground background (.percent amount))
        (.repaired (Value.blend foreground background (.percent amount)).render
          (.blend foreground background (.property (Name.ofToken path))))

/-- An error says what keeps a value from fitting, so that no token can mend it. -/
inductive Objects (index : Token.Index) (allowed : List Tier) (name : Name) :
    Value → WriteError → Prop where
  | operand {value : Value} {target : Name} (reads : target ∈ value.references)
      (outside : target.tier ∉ allowed) :
      Objects index allowed name value (.forbiddenReference name target)
  | weight {foreground background target : Name} (outside : target.tier ≠ .tokens) :
      Objects index allowed name (.blend foreground background (.property target))
        (.forbiddenReference name target)
  | unknown {value : Value} {target : Name} (reads : target ∈ value.references)
      (token : target.tier = .tokens) (missing : index.pathOf? target = none) :
      Objects index allowed name value (.unknownTarget name target)
  | literal {text : String}
      (unmatched : ∀ (path : Token.Path) (held : Token.Value),
        index.values[path]? = some held → ¬ Spells text held) :
      Objects index allowed name (.literal text) (.unmatchedLiteral name text)
  | percentage {foreground background : Name} {amount : Float}
      (unmatched : ∀ (path : Token.Path) (held : Token.Value), index.values[path]? = some held →
        Token.Index.holdsNumber (amount / 100) false held = false) :
      Objects index allowed name (.blend foreground background (.percent amount))
        (.unmatchedLiteral name (Value.blend foreground background (.percent amount)).render)

theorem Answers.mends {verdict : Verdict}
    (answers : Answers index allowed name value (.ok verdict)) : Mends index value verdict := by
  cases answers with
  | fitting fits => exact .kept value
  | matched found =>
      obtain ⟨held, token, spells⟩ := spells_of_matchingToken? found
      exact .literal token spells
  | weighed permitted known found =>
      obtain ⟨held, token, holds⟩ := Token.Index.exists_of_findNumber? found
      exact .weight token holds

theorem Answers.objects {error : WriteError}
    (answers : Answers index allowed name value (.error error)) :
    Objects index allowed name value error := by
  cases answers with
  | unmatched missing =>
      exact .literal fun path held token => not_spells_of_matchingToken? missing token
  | forbidden found =>
      obtain ⟨reads, outside | ⟨foreground, background, rfl, outside⟩⟩ :=
        outside_of_forbidden? found
      · exact .operand reads outside
      · exact .weight outside
  | unknown found =>
      have missing := List.find?_some found
      simp only [Bool.and_eq_true, beq_iff_eq, Option.isNone_iff_eq_none] at missing
      exact .unknown (List.mem_of_find?_eq_some found) missing.1 missing.2
  | unweighed missing =>
      exact .percentage fun path held token =>
        Token.Index.holdsNumber_of_findNumber? missing token

/-- A value that fits is not a literal, so its operands are checked. -/
theorem validate_of_fits (readable : name.tier.readable? = some allowed)
    (fits : Fits index allowed value) : validate name value index = .ok (.accepted value) := by
  have checked : checkIndirection name value allowed index = .ok (.accepted value) :=
    checkIndirection_of_fits fits (Tier.of_readable? readable).1
  rw [validate, readable]
  cases fits.indirect <;> exact checked

end Validation

/-- The validator is sound and complete for brand and component properties. What it lets through
fits, differs from the validated value in a mended literal or weight at most, and is let through as
it is the next time; an error says why the value does not fit; and a value that fits is let through
as it is. -/
theorem fits_or_objects_of_validate (name : Name) (value : Value) (tokens : Document)
    {allowed : List Tier}
    (narrow : name.tier = .brand ∧ allowed = [.tokens] ∨
      name.tier = .ui ∧ allowed = [.brand, .tokens]) :
    (∀ verdict, validate name value (.ofDocument tokens) = .ok verdict →
      Validation.Fits (.ofDocument tokens) allowed verdict.value ∧
        Validation.Mends (.ofDocument tokens) value verdict ∧
        validate name verdict.value (.ofDocument tokens) = .ok (.accepted verdict.value)) ∧
      (∀ error, validate name value (.ofDocument tokens) = .error error →
        Validation.Objects (.ofDocument tokens) allowed name value error) ∧
      (Validation.Fits (.ofDocument tokens) allowed value →
        validate name value (.ofDocument tokens) = .ok (.accepted value)) := by
  have readable : name.tier.readable? = some allowed := by
    rcases narrow with ⟨tier, rfl⟩ | ⟨tier, rfl⟩ <;> rw [tier] <;> rfl
  have answers : Validation.Answers (.ofDocument tokens) allowed name value
      (validate name value (.ofDocument tokens)) := Validation.answers_validate readable
  refine ⟨fun verdict ok => ?_, fun error refused => ?_, Validation.validate_of_fits readable⟩
  · rw [ok] at answers
    have fits := Validation.fits_of_answers (Tier.of_readable? readable).1 answers
    exact ⟨fits, answers.mends, Validation.validate_of_fits readable fits⟩
  · rw [refused] at answers
    exact answers.objects

namespace Sample

/-- A token document of one gray and one share. -/
def shade : Document :=
  ⟨"tokens", .object [
    ("color", .object [("gray", .object [("500", .object [("$value", .text "#767676")])])]),
    ("opacity", .object [("high", .object [("$value", .number (.real 0.87))])])]⟩

/-- The gray blended over itself. -/
def blended (weight : Weight) : Value :=
  .blend ⟨"--tokens-color-gray-500"⟩ ⟨"--tokens-color-gray-500"⟩ weight

end Sample

/-- A percentage that a token holds gives way to the token, and another one is refused. -/
theorem fits_or_objects_of_validate_blended :
    (validate ⟨"--brand-light-layer-0-text"⟩ (Sample.blended (.percent 87))
        (.ofDocument Sample.shade) =
      .ok (.repaired
        "color-mix(in srgb, var(--tokens-color-gray-500) 87%, var(--tokens-color-gray-500))"
        (Sample.blended (.property ⟨"--tokens-opacity-high"⟩)))) ∧
      Validation.Fits (.ofDocument Sample.shade) [.tokens]
        (Sample.blended (.property ⟨"--tokens-opacity-high"⟩)) ∧
      ∃ error, validate ⟨"--brand-light-layer-0-text"⟩ (Sample.blended (.percent 50))
          (.ofDocument Sample.shade) = .error error ∧
        Validation.Objects (.ofDocument Sample.shade) [.tokens] ⟨"--brand-light-layer-0-text"⟩
          (Sample.blended (.percent 50)) error := by
  have narrow : (Name.tier ⟨"--brand-light-layer-0-text"⟩ = .brand ∧
      [Tier.tokens] = [Tier.tokens]) ∨
      (Name.tier ⟨"--brand-light-layer-0-text"⟩ = .ui ∧ [Tier.tokens] = [.brand, .tokens]) :=
    .inl ⟨by decide, rfl⟩
  have mended : validate ⟨"--brand-light-layer-0-text"⟩ (Sample.blended (.percent 87))
        (.ofDocument Sample.shade) =
      .ok (.repaired
        "color-mix(in srgb, var(--tokens-color-gray-500) 87%, var(--tokens-color-gray-500))"
        (Sample.blended (.property ⟨"--tokens-opacity-high"⟩))) := by
    decide +kernel
  have refused : validate ⟨"--brand-light-layer-0-text"⟩ (Sample.blended (.percent 50))
        (.ofDocument Sample.shade) =
      .error (.unmatchedLiteral ⟨"--brand-light-layer-0-text"⟩
        "color-mix(in srgb, var(--tokens-color-gray-500) 50%, var(--tokens-color-gray-500))") := by
    decide +kernel
  exact ⟨mended, ((fits_or_objects_of_validate _ _ Sample.shade narrow).1 _ mended).1, _, refused,
    (fits_or_objects_of_validate _ _ Sample.shade narrow).2.1 _ refused⟩

end Legible
