import Legible.Proofs.Property.Name
import Legible.Theme.CoreColor

/-!
# How far names are from the tokens

What a property is derived from can be ordered by names alone: tokens come first,
then core colors and copied bindings, the tones and on-tones of palettes, surfaces,
what stands on them, and component bindings last. The tier, the subsystem and the
last two pieces of a name decide its place; the keys that a theme is free to choose
never do.
-/

namespace Legible.Property

namespace Name

/-- The rank of a brand property by its subsystem and the last two pieces of its name. -/
def brandRank (subsystem : Subsystem) (before last : List Char) : Nat :=
  match subsystem with
  | .palettes =>
      if before = "on".toList then 4 else if before = "primary".toList then 3 else 2
  | .layer =>
      if last = "surface".toList then 5
      else if last = "tone".toList ∧ before ≠ "on".toList then 6
      else 7
  | _ => 1

/-- How many derivations may stand between a property and the tokens. -/
def rank (name : Name) : Nat :=
  match name.tier with
  | .tokens | .foreign => 0
  | .ui => 8
  | .brand =>
      match Subsystem.read? (String.ofList (name.pieces[4]?.getD [])), name.pieces.reverse with
      | some subsystem, last :: before :: _ => brandRank subsystem before last
      | _, _ => 1

@[simp] theorem rank_ofToken (path : Token.Path) : (ofToken path).rank = 0 := by
  rw [rank, tier_ofToken]

@[simp] theorem rank_ui (path : List String) : (ui path).rank = 8 := by
  rw [rank, tier_ui]

/-- Every brand property comes before the component properties. -/
theorem rank_brand_lt (mode : Mode) (subsystem : Subsystem) (path : List String) :
    (brand mode subsystem path).rank < 8 := by
  have bounded (subsystem : Subsystem) (before last : List Char) :
      brandRank subsystem before last < 8 := by
    cases subsystem <;> simp only [brandRank] <;> (repeat' split) <;> decide
  simp only [rank, tier_brand]
  split
  · exact bounded _ _ _
  · decide

/-- The rank of a brand property whose path has two pieces at least. -/
theorem rank_brand {mode : Mode} {subsystem : Subsystem} {path : List String}
    {front : List (List Char)} {before last : List Char}
    (ends : path.flatMap piecesOf = front ++ [before, last]) :
    (brand mode subsystem path).rank = brandRank subsystem before last := by
  have reversed : (brand mode subsystem path).pieces.reverse = last :: before ::
      (front.reverse ++ [subsystem.text.toList, mode.text.toList, "brand".toList, [], []]) := by
    rw [pieces_brand, ends]
    simp
  have fourth : (brand mode subsystem path).pieces[4]? = some subsystem.text.toList := by
    rw [pieces_brand]
    rfl
  rw [rank, tier_brand, reversed, fourth]
  simp

/-- Outside palettes and layers every brand property has the rank of a copied one. -/
theorem rank_brand_of_copied {mode : Mode} {subsystem : Subsystem} {path : List String}
    (palettes : subsystem ≠ .palettes) (layer : subsystem ≠ .layer) :
    (brand mode subsystem path).rank = 1 := by
  have fourth : (brand mode subsystem path).pieces[4]? = some subsystem.text.toList := by
    rw [pieces_brand]
    rfl
  have fixed (before last : List Char) : brandRank subsystem before last = 1 := by
    cases subsystem <;> first | rfl | contradiction
  simp only [rank, tier_brand, fourth, Option.getD_some, String.ofList_toList,
    Subsystem.read?_text]
  split
  · next found _ =>
      cases found
      exact fixed _ _
  · rfl

end Name

end Legible.Property

namespace Legible

open Property

@[simp] theorem CoreSlot.rank_property (slot : CoreSlot) (mode : Mode) :
    (slot.property mode).rank = 1 :=
  Name.rank_brand_of_copied (by decide) (by decide)

namespace Palette

/-- A tone of a level comes before the primary one that follows it. -/
theorem rank_toneProperty (mode : Mode) (key : String) (level : Option Token.Level) :
    (toneProperty mode key level).rank = if level.isSome then 2 else 3 := by
  have ends : [key, levelSegment level, "tone"].flatMap Name.piecesOf =
      Name.piecesOf key ++ [(levelSegment level).toList, "tone".toList] := by
    rw [pieces_path]
    rfl
  have notOn : (levelSegment level).toList ≠ "on".toList := levelSegment_ne_on level
  rw [toneProperty, Name.rank_brand ends, Name.brandRank, if_neg notOn]
  cases level with
  | none => rfl
  | some level =>
      refine if_neg fun same => ?_
      have levels : some level = none := levelSegment_injective (String.toList_inj.1 same)
      cases levels

@[simp] theorem rank_onToneProperty (mode : Mode) (key : String) (level : Option Token.Level) :
    (onToneProperty mode key level).rank = 4 := by
  have ends : [key, levelSegment level, "on-tone"].flatMap Name.piecesOf =
      (Name.piecesOf key ++ [(levelSegment level).toList]) ++ ["on".toList, "tone".toList] := by
    have word : Name.piecesOf "on-tone" = ["on".toList, "tone".toList] := by decide
    rw [pieces_path, word]
    simp
  rw [onToneProperty, Name.rank_brand ends]
  rfl

end Palette

namespace LayerId

variable (mode : Mode) (layer : LayerId)

/-- The pieces of a layer's segments end in some piece. -/
theorem exists_pieces_nameSegments :
    ∃ front before, layer.nameSegments.flatMap Name.piecesOf = front ++ [before] := by
  have present : layer.nameSegments.flatMap Name.piecesOf ≠ [] := by
    rw [pieces_nameSegments]
    cases layer <;> exact List.cons_ne_nil _ _
  exact ⟨_, _, (List.dropLast_concat_getLast present).symm⟩

/-- The rank of an element whose own segments are two pieces at least. -/
theorem rank_element {tail : List String} {front : List (List Char)} {before last : List Char}
    (ends : tail.flatMap Name.piecesOf = front ++ [before, last]) :
    (element mode layer tail).rank = Name.brandRank .layer before last := by
  have path : (layer.nameSegments ++ tail).flatMap Name.piecesOf =
      (layer.nameSegments.flatMap Name.piecesOf ++ front) ++ [before, last] := by
    rw [pieces_element, ends, List.append_assoc]
  exact Name.rank_brand path

/-- The rank of an element whose own segments are one piece. -/
theorem rank_element_of_word (word : String) (plain : Name.piecesOf word = [word.toList]) :
    ∃ before, (element mode layer [word]).rank = Name.brandRank .layer before word.toList := by
  obtain ⟨front, before, pieces⟩ := layer.exists_pieces_nameSegments
  have path : (layer.nameSegments ++ [word]).flatMap Name.piecesOf =
      front ++ [before, word.toList] := by
    rw [pieces_element, pieces]
    simp [plain]
  exact ⟨before, Name.rank_brand path⟩

@[simp] theorem rank_surface : (layer.surface mode).rank = 5 := by
  obtain ⟨before, rank⟩ := rank_element_of_word mode layer "surface" (by decide)
  exact rank

theorem rank_text : (layer.element mode ["text"]).rank = 7 := by
  obtain ⟨before, rank⟩ := rank_element_of_word mode layer "text" (by decide)
  rw [rank]
  simp [Name.brandRank]

theorem rank_status {color : CoreColor} : (layer.element mode [color.text, "text"]).rank = 7 := by
  have ends : [color.text, "text"].flatMap Name.piecesOf =
      [] ++ [color.text.toList, "text".toList] := by
    cases color <;> decide
  rw [rank_element mode layer ends]
  simp [Name.brandRank]

theorem rank_tone (state : InteractiveState) :
    (layer.element mode (tonePath state)).rank = 6 := by
  have ends : (tonePath state).flatMap Name.piecesOf =
      ["interactive".toList] ++ [state.text.toList, "tone".toList] :=
    pieces_tonePath state
  rw [rank_element mode layer ends]
  cases state <;> decide

theorem rank_onTone (state : InteractiveState) :
    (layer.element mode (onTonePath state)).rank = 7 := by
  have ends : (onTonePath state).flatMap Name.piecesOf =
      ["interactive".toList, state.text.toList] ++ ["on".toList, "tone".toList] :=
    pieces_onTonePath state
  rw [rank_element mode layer ends]
  rfl

end LayerId

end Legible
