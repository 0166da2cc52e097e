import Legible.Property.Name
import Legible.Proofs.Numeric.Digits
import Legible.Theme.LayerId
import Legible.Theme.Palette

/-!
# Property names taken apart

Between its dashes a name falls into pieces. The segments of a path may hold dashes
themselves, so pieces do not give a path back; but modes, subsystems, levels, layer
numbers and the words of elements hold none, and that is enough to tell the names
of surfaces and tones from all others. Nothing here depends on how theme keys are
written.
-/

namespace Legible

namespace Text

/-- Digits spell the short number that they are the digits of. -/
theorem shortNumber?_of_ofDigits {digits : List Char} {number : UInt16} (present : digits ≠ [])
    (plain : ∀ digit ∈ digits, digit.isDigit = true)
    (value : Numeric.Decimal.ofDigits digits = number.toNat) :
    shortNumber? digits = some number := by
  have all : digits.all Char.isDigit = true := List.all_eq_true.2 plain
  have small : number.toNat < UInt16.size := number.toNat_lt
  rw [shortNumber?, List.isEmpty_eq_false_iff.2 present, all, if_neg (by decide), value,
    if_pos small, UInt16.ofNat_toNat]

end Text

namespace Token.Level

/-- The text of a level determines the level. -/
theorem text_injective {left right : Level} (same : left.text = right.text) : left = right := by
  have digits := congrArg (fun text => Numeric.Decimal.ofDigits text.toList) same
  simp only [text, String.toList_ofList, Text.ofDigits_paddedDigits] at digits
  cases left
  cases right
  exact congrArg Level.mk (UInt16.toNat_inj.1 digits)

/-- The text of a level holds digits only. -/
theorem isDigit_of_mem_text (level : Level) {digit : Char} (member : digit ∈ level.text.toList) :
    digit.isDigit = true := by
  rw [text, String.toList_ofList] at member
  exact Text.isDigit_of_mem_paddedDigits member

theorem text_ne_nil (level : Level) : level.text.toList ≠ [] := by
  rw [text, String.toList_ofList, Text.paddedDigits]
  exact List.append_ne_nil_of_right_ne_nil _ Nat.toDigits_ne_nil

/-- Reading a written level gives it back. -/
@[simp] theorem read?_text (level : Level) : read? level.text = some level := by
  have value : Numeric.Decimal.ofDigits level.text.toList = level.value.toNat := by
    rw [text, String.toList_ofList, Text.ofDigits_paddedDigits]
    rfl
  rw [read?, Text.shortNumber?_of_ofDigits level.text_ne_nil
    (fun _ member => level.isDigit_of_mem_text member) value]
  rfl

end Token.Level

namespace Property.Name

/-! ## Pieces -/

/-- The pieces of a text between its dashes. -/
def piecesOf (text : String) : List (List Char) := text.toList.splitOn '-'

/-- The pieces of a name. -/
def pieces (name : Name) : List (List Char) := piecesOf name.text

/-- A text is given back by its pieces. -/
theorem piecesOf_injective {left right : String} (same : piecesOf left = piecesOf right) :
    left = right := by
  have joined := congrArg (fun pieces => List.intercalate ['-'] pieces) same
  simpa only [piecesOf, List.intercalate_splitOn, String.toList_inj] using joined

/-- There always is a piece. -/
theorem piecesOf_ne_nil (text : String) : piecesOf text ≠ [] := List.splitOn_ne_nil _ _

/-- A text without dashes is its only piece. -/
theorem piecesOf_of_not_mem {text : String} (plain : '-' ∉ text.toList) :
    piecesOf text = [text.toList] :=
  List.splitOn_eq_singleton plain

/-- The characters of a dashed path. -/
theorem toList_dashed (path : List String) :
    (dashed path).toList = path.flatMap fun segment => '-' :: segment.toList := by
  rw [dashed, String.toList_join, List.flatMap_map]
  exact congrArg (path.flatMap ·) (funext fun segment => by simp [String.toList_append])

/-- A dashed path adds the pieces of its segments. -/
theorem piecesOf_append_dashed (start : String) (path : List String) :
    piecesOf (start ++ dashed path) = piecesOf start ++ path.flatMap piecesOf := by
  have splitting (characters : List Char) :
      (characters ++ path.flatMap fun segment => '-' :: segment.toList).splitOn '-' =
        characters.splitOn '-' ++ path.flatMap piecesOf := by
    induction path generalizing characters with
    | nil => simp
    | cons segment rest inductionHypothesis =>
        rw [List.flatMap_cons, List.cons_append, List.splitOn_append_cons_self,
          inductionHypothesis, List.flatMap_cons]
        rfl
  rw [piecesOf, String.toList_append, toList_dashed]
  exact splitting start.toList

theorem not_mem_text_mode (mode : Mode) : '-' ∉ mode.text.toList := by
  cases mode <;> decide

theorem not_mem_text_subsystem (subsystem : Subsystem) : '-' ∉ subsystem.text.toList := by
  cases subsystem <;> decide

/-- The pieces of a brand name: its head, its mode, its subsystem and its path. -/
theorem pieces_brand (mode : Mode) (subsystem : Subsystem) (path : List String) :
    pieces (brand mode subsystem path) =
      [[], [], "brand".toList, mode.text.toList, subsystem.text.toList] ++
        path.flatMap piecesOf := by
  rw [pieces, brand, piecesOf_append_dashed, List.flatMap_cons, List.flatMap_cons,
    piecesOf_of_not_mem (not_mem_text_mode mode),
    piecesOf_of_not_mem (not_mem_text_subsystem subsystem)]
  have head : piecesOf "--brand" = [[], [], "brand".toList] := by decide
  rw [head]
  rfl

/-- A brand name determines its mode, its subsystem and the pieces of its path. -/
theorem brand_eq_brand_iff {mode mode' : Mode} {subsystem subsystem' : Subsystem}
    {path path' : List String} :
    brand mode subsystem path = brand mode' subsystem' path' ↔
      mode = mode' ∧ subsystem = subsystem' ∧
        path.flatMap piecesOf = path'.flatMap piecesOf := by
  constructor
  · intro same
    have taken := congrArg pieces same
    simp only [pieces_brand, List.cons_append, List.nil_append, List.cons.injEq, true_and] at taken
    obtain ⟨sameMode, sameSubsystem, samePath⟩ := taken
    refine ⟨?_, ?_, samePath⟩
    · simpa using congrArg (fun text => Mode.read? text) (String.toList_inj.1 sameMode)
    · simpa using congrArg (fun text => Subsystem.read? text) (String.toList_inj.1 sameSubsystem)
  · rintro ⟨rfl, rfl, samePath⟩
    have taken : pieces (brand mode subsystem path) = pieces (brand mode subsystem path') := by
      rw [pieces_brand, pieces_brand, samePath]
    exact congrArg Name.mk (piecesOf_injective taken)

/-! ## Tiers -/

/-- A name whose text goes on after a head begins with that head. -/
theorem beginsWith_append (start text : String) : beginsWith start (start ++ text) = true := by
  simp [beginsWith, String.toList_append]

/-- A dashed path that is not empty begins with a dash. -/
theorem append_dashed_cons (start segment : String) (path : List String) :
    start ++ dashed (segment :: path) = start ++ "-" ++ (segment ++ dashed path) := by
  apply String.toList_inj.1
  simp [String.toList_append, toList_dashed]

theorem tier_ofToken (path : Token.Path) : (ofToken path).tier = .tokens := by
  have begins : beginsWith "--tokens-" (ofToken path).text = true := by
    rw [ofToken, Token.Path.segments, List.cons_append, append_dashed_cons]
    exact beginsWith_append _ _
  simp [tier, begins]

theorem tier_brand (mode : Mode) (subsystem : Subsystem) (path : List String) :
    (brand mode subsystem path).tier = .brand := by
  have shape : (brand mode subsystem path).text =
      "--brand-" ++ (mode.text ++ dashed (subsystem.text :: path)) := by
    rw [brand, append_dashed_cons]
    rfl
  have begins : beginsWith "--brand-" (brand mode subsystem path).text = true := by
    rw [shape]
    exact beginsWith_append _ _
  have other : beginsWith "--tokens-" (brand mode subsystem path).text = false := by
    rw [shape]
    simp [beginsWith, String.toList_append, List.isPrefixOf]
  simp [tier, begins, other]

theorem tier_ui (path : List String) : (ui path).tier = .ui := by
  have begins : beginsWith "--ui-" (ui path).text = true := beginsWith_append _ _
  have noToken : beginsWith "--tokens-" (ui path).text = false := by
    simp [ui, beginsWith, String.toList_append, List.isPrefixOf]
  have noBrand : beginsWith "--brand-" (ui path).text = false := by
    simp [ui, beginsWith, String.toList_append, List.isPrefixOf]
  simp [tier, begins, noToken, noBrand]

/-- A token's property is no brand property. -/
theorem ofToken_ne_brand (token : Token.Path) (mode : Mode) (subsystem : Subsystem)
    (path : List String) : ofToken token ≠ brand mode subsystem path := by
  intro same
  have tiers := congrArg tier same
  rw [tier_ofToken, tier_brand] at tiers
  cases tiers

/-- A brand property is no component property. -/
theorem brand_ne_ui (mode : Mode) (subsystem : Subsystem) (path path' : List String) :
    brand mode subsystem path ≠ ui path' := by
  intro same
  have tiers := congrArg tier same
  rw [tier_brand, tier_ui] at tiers
  cases tiers

end Property.Name

/-! ## Names of tones and surfaces -/

open Property

namespace Token.Level

theorem not_mem_text (level : Level) : '-' ∉ level.text.toList := by
  intro member
  have digit := isDigit_of_mem_text level member
  revert digit
  decide

end Token.Level

namespace Palette

theorem not_mem_levelSegment (level : Option Token.Level) : '-' ∉ (levelSegment level).toList := by
  cases level with
  | none => decide
  | some level => exact level.not_mem_text

/-- A level segment is no word that begins like `on`. -/
theorem levelSegment_ne_on (level : Option Token.Level) : (levelSegment level).toList ≠ ['o', 'n'] := by
  cases level with
  | none => decide
  | some level =>
      intro same
      have digit : 'o'.isDigit = true :=
        level.isDigit_of_mem_text (by
          rw [show level.text.toList = ['o', 'n'] from same]
          decide)
      revert digit
      decide

/-- A level segment determines the level. -/
theorem levelSegment_injective {left right : Option Token.Level}
    (same : levelSegment left = levelSegment right) : left = right := by
  have primary (level : Token.Level) : level.text ≠ "primary" := by
    intro same
    have digit : 'p'.isDigit = true :=
      level.isDigit_of_mem_text (by
        rw [same]
        decide)
    revert digit
    decide
  cases left with
  | none =>
      cases right with
      | none => rfl
      | some right => exact absurd same.symm (primary right)
  | some left =>
      cases right with
      | none => exact absurd same (primary left)
      | some right => exact congrArg some (Token.Level.text_injective same)

/-- The pieces of a palette path: those of its key, its level and its role. -/
theorem pieces_path (key role : String) (level : Option Token.Level) :
    [key, levelSegment level, role].flatMap Name.piecesOf =
      Name.piecesOf key ++ (levelSegment level).toList :: Name.piecesOf role := by
  simp [Name.piecesOf_of_not_mem (not_mem_levelSegment level)]

/-- Palette properties of one role are the same only for the same key and level. -/
theorem path_inj {mode mode' : Mode} {key key' : String} {level level' : Option Token.Level}
    (role : String)
    (same : Name.brand mode .palettes [key, levelSegment level, role] =
      Name.brand mode' .palettes [key', levelSegment level', role]) :
    mode = mode' ∧ key = key' ∧ level = level' := by
  obtain ⟨sameMode, -, samePath⟩ := Name.brand_eq_brand_iff.1 same
  rw [pieces_path, pieces_path] at samePath
  obtain ⟨sameKey, sameLevel⟩ := List.append_inj' samePath rfl
  simp only [List.cons.injEq, and_true] at sameLevel
  exact ⟨sameMode, Name.piecesOf_injective sameKey,
    levelSegment_injective (String.toList_inj.1 sameLevel)⟩

/-- The name of a tone determines what it is the tone of. -/
theorem toneProperty_inj {mode mode' : Mode} {key key' : String}
    {level level' : Option Token.Level}
    (same : toneProperty mode key level = toneProperty mode' key' level') :
    mode = mode' ∧ key = key' ∧ level = level' := path_inj "tone" same

/-- So does the name of an on-tone. -/
theorem onToneProperty_inj {mode mode' : Mode} {key key' : String}
    {level level' : Option Token.Level}
    (same : onToneProperty mode key level = onToneProperty mode' key' level') :
    mode = mode' ∧ key = key' ∧ level = level' := path_inj "on-tone" same

/-- No on-tone has the name of a tone. -/
theorem toneProperty_ne_onToneProperty (mode mode' : Mode) (key key' : String)
    (level level' : Option Token.Level) :
    toneProperty mode key level ≠ onToneProperty mode' key' level' := by
  intro same
  obtain ⟨-, -, samePath⟩ := Name.brand_eq_brand_iff.1 same
  rw [pieces_path, pieces_path] at samePath
  have role : Name.piecesOf "on-tone" = ["on".toList, "tone".toList] := by decide
  have tone : Name.piecesOf "tone" = ["tone".toList] := by decide
  rw [role, tone] at samePath
  have shifted :
      Name.piecesOf key ++ [(levelSegment level).toList, "tone".toList] =
        (Name.piecesOf key' ++ [(levelSegment level').toList]) ++ ["on".toList, "tone".toList] := by
    simpa using samePath
  have last := (List.append_inj' shifted rfl).2
  exact levelSegment_ne_on level (List.cons.inj last).1

end Palette

/-- The segments of a slot determine it. -/
theorem CoreSlot.segments_inj {slot slot' : CoreSlot} (same : slot.segments = slot'.segments) :
    slot = slot' := by
  obtain ⟨color, state⟩ := slot
  obtain ⟨color', state'⟩ := slot'
  obtain ⟨colors, states⟩ := List.cons.inj same
  have sameColor : color = color' := by
    simpa using congrArg CoreColor.read? colors
  have sameState : state = state' := by
    cases state <;> cases state' <;> simp_all
    simpa using congrArg InteractiveState.read? states
  rw [sameColor, sameState]

namespace LayerId

/-- The digits of a layer number. -/
theorem toList_numberText (number : UInt16) :
    (numberText number).toList = Numeric.Decimal.toDigits number.toNat := by
  rw [numberText, String.toList_ofList]

/-- Reading the key of a numbered layer gives the layer back. -/
@[simp] theorem read?_append_numberText (number : UInt16) :
    read? ("layer-" ++ numberText number) = some (.indexed number) := by
  have digits : ("layer-" ++ numberText number).toList.drop 6 =
      Numeric.Decimal.toDigits number.toNat := by
    rw [String.toList_append, toList_numberText]
    rfl
  have short : Text.shortNumber? (Numeric.Decimal.toDigits number.toNat) = some number :=
    Text.shortNumber?_of_ofDigits Nat.toDigits_ne_nil
      (fun _ member => Numeric.Decimal.isDigit_of_mem_toDigits member)
      (Numeric.Decimal.ofDigits_toDigits _)
  rw [read?, if_pos (Name.beginsWith_append _ _), digits, short]
  rfl

/-- The pieces of a layer's segments. -/
theorem pieces_nameSegments (layer : LayerId) :
    layer.nameSegments.flatMap Name.piecesOf =
      match layer with
      | .indexed number => [Numeric.Decimal.toDigits number.toNat]
      | .alternative name => "alternative".toList :: Name.piecesOf name := by
  cases layer with
  | indexed number =>
      have plain : '-' ∉ (numberText number).toList := by
        rw [toList_numberText]
        intro member
        have digit := Numeric.Decimal.isDigit_of_mem_toDigits member
        revert digit
        decide
      simp [nameSegments, Name.piecesOf_of_not_mem plain, toList_numberText]
  | alternative name =>
      have word : Name.piecesOf "alternative" = ["alternative".toList] := by decide
      simp [nameSegments, word]

/-- The pieces of a layer's segments determine the layer. -/
theorem pieces_nameSegments_inj {left right : LayerId}
    (same : left.nameSegments.flatMap Name.piecesOf = right.nameSegments.flatMap Name.piecesOf) :
    left = right := by
  rw [pieces_nameSegments, pieces_nameSegments] at same
  cases left with
  | indexed left =>
      cases right with
      | indexed right =>
          have digits := congrArg Numeric.Decimal.ofDigits (List.cons.inj same).1
          simp only [Numeric.Decimal.ofDigits_toDigits] at digits
          exact congrArg indexed (UInt16.toNat_inj.1 digits)
      | alternative name =>
          exact absurd (List.cons.inj same).2.symm (Name.piecesOf_ne_nil name)
  | alternative left =>
      cases right with
      | indexed number => exact absurd (List.cons.inj same).2 (Name.piecesOf_ne_nil left)
      | alternative right =>
          exact congrArg alternative (Name.piecesOf_injective (List.cons.inj same).2)

/-- The pieces of an element's path: those of its layer and of its own segments. -/
theorem pieces_element (layer : LayerId) (tail : List String) :
    (layer.nameSegments ++ tail).flatMap Name.piecesOf =
      layer.nameSegments.flatMap Name.piecesOf ++ tail.flatMap Name.piecesOf :=
  List.flatMap_append

/-- Elements of one name whose own segments have equally many pieces are the same element. -/
theorem element_inj {mode mode' : Mode} {layer layer' : LayerId} {tail tail' : List String}
    (same : element mode layer tail = element mode' layer' tail')
    (length : (tail.flatMap Name.piecesOf).length = (tail'.flatMap Name.piecesOf).length) :
    mode = mode' ∧ layer = layer' ∧ tail.flatMap Name.piecesOf = tail'.flatMap Name.piecesOf := by
  obtain ⟨sameMode, -, samePath⟩ := Name.brand_eq_brand_iff.1 same
  rw [pieces_element, pieces_element] at samePath
  obtain ⟨sameLayer, sameTail⟩ := List.append_inj' samePath length
  exact ⟨sameMode, pieces_nameSegments_inj sameLayer, sameTail⟩

/-- Elements of one name end in the same piece. -/
theorem getLast?_pieces_element {mode mode' : Mode} {layer layer' : LayerId}
    {tail tail' : List String} (same : element mode layer tail = element mode' layer' tail')
    (left : tail.flatMap Name.piecesOf ≠ []) (right : tail'.flatMap Name.piecesOf ≠ []) :
    (tail.flatMap Name.piecesOf).getLast? = (tail'.flatMap Name.piecesOf).getLast? := by
  obtain ⟨-, -, samePath⟩ := Name.brand_eq_brand_iff.1 same
  rw [pieces_element, pieces_element] at samePath
  have last := congrArg List.getLast? samePath
  rwa [List.getLast?_append, List.getLast?_append,
    Option.or_of_isSome (List.getLast?_isSome.2 left),
    Option.or_of_isSome (List.getLast?_isSome.2 right)] at last

/-- The name of a surface determines its layer. -/
theorem surface_inj {mode mode' : Mode} {layer layer' : LayerId}
    (same : surface mode layer = surface mode' layer') : mode = mode' ∧ layer = layer' := by
  obtain ⟨sameMode, sameLayer, -⟩ := element_inj same rfl
  exact ⟨sameMode, sameLayer⟩

/-- An element whose segments do not end in `surface` is no surface. -/
theorem surface_ne_element {mode mode' : Mode} {layer layer' : LayerId} {tail : List String}
    (last : (tail.flatMap Name.piecesOf).getLast? ≠ some "surface".toList)
    (present : tail.flatMap Name.piecesOf ≠ []) :
    surface mode layer ≠ element mode' layer' tail := by
  intro same
  have word : (["surface"].flatMap Name.piecesOf) = ["surface".toList] := by decide
  have ends := getLast?_pieces_element same (by rw [word]; exact List.cons_ne_nil _ _) present
  rw [word] at ends
  exact last ends.symm

/-- The path of an interactive tone below its layer. -/
def tonePath (state : InteractiveState) : List String := ["interactive", state.text, "tone"]

/-- The path of an interactive on-tone below its layer. -/
def onTonePath (state : InteractiveState) : List String := ["interactive", state.text, "on-tone"]

theorem pieces_tonePath (state : InteractiveState) :
    (tonePath state).flatMap Name.piecesOf =
      ["interactive".toList, state.text.toList, "tone".toList] := by
  cases state <;> decide

theorem pieces_onTonePath (state : InteractiveState) :
    (onTonePath state).flatMap Name.piecesOf =
      ["interactive".toList, state.text.toList, "on".toList, "tone".toList] := by
  cases state <;> decide

theorem surface_ne_tonePath (mode mode' : Mode) (layer layer' : LayerId)
    (state : InteractiveState) : surface mode layer ≠ element mode' layer' (tonePath state) :=
  surface_ne_element (by cases state <;> decide) (by cases state <;> decide)

theorem surface_ne_onTonePath (mode mode' : Mode) (layer layer' : LayerId)
    (state : InteractiveState) : surface mode layer ≠ element mode' layer' (onTonePath state) :=
  surface_ne_element (by cases state <;> decide) (by cases state <;> decide)

/-- The name of an interactive tone determines its layer and state. -/
theorem element_tonePath_inj {mode mode' : Mode} {layer layer' : LayerId}
    {state state' : InteractiveState}
    (same : element mode layer (tonePath state) = element mode' layer' (tonePath state')) :
    mode = mode' ∧ layer = layer' ∧ state = state' := by
  obtain ⟨sameMode, sameLayer, sameTail⟩ :=
    element_inj same (by rw [pieces_tonePath, pieces_tonePath]; rfl)
  rw [pieces_tonePath, pieces_tonePath] at sameTail
  refine ⟨sameMode, sameLayer, ?_⟩
  revert sameTail
  cases state <;> cases state' <;> decide

/-- No interactive on-tone has the name of an interactive tone. -/
theorem element_tonePath_ne_onTonePath (mode mode' : Mode) (layer layer' : LayerId)
    (state state' : InteractiveState) :
    element mode layer (tonePath state) ≠ element mode' layer' (onTonePath state') := by
  intro same
  obtain ⟨-, -, samePath⟩ := Name.brand_eq_brand_iff.1 same
  rw [pieces_element, pieces_element, pieces_tonePath, pieces_onTonePath] at samePath
  -- The on-tone has one piece more, so what stands before `tone` differs.
  have shifted :
      layer.nameSegments.flatMap Name.piecesOf ++
          ["interactive".toList, state.text.toList, "tone".toList] =
        (layer'.nameSegments.flatMap Name.piecesOf ++ ["interactive".toList]) ++
          [state'.text.toList, "on".toList, "tone".toList] := by
    simpa only [List.append_assoc, List.cons_append, List.nil_append] using samePath
  have last := (List.append_inj' shifted rfl).2
  revert last
  cases state <;> cases state' <;> decide

/-- An element whose segments do not end in `tone` is no interactive tone. -/
theorem element_tonePath_ne_element {mode mode' : Mode} {layer layer' : LayerId}
    {state : InteractiveState} {tail : List String}
    (last : (tail.flatMap Name.piecesOf).getLast? ≠ some "tone".toList)
    (present : tail.flatMap Name.piecesOf ≠ []) :
    element mode layer (tonePath state) ≠ element mode' layer' tail := by
  intro same
  have ends := getLast?_pieces_element same
    (by rw [pieces_tonePath]; exact List.cons_ne_nil _ _) present
  rw [pieces_tonePath] at ends
  exact last ends.symm

end LayerId

end Legible
