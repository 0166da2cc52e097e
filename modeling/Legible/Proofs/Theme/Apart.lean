import Legible.Proofs.Theme.Elements
import Legible.Proofs.Theme.Isolation

/-!
# Elements of different layers

The name of an element is its layer and its own path put together with dashes, and an
alternative layer may have dashes in its name. So a status text of one alternative and
the text of another are under one name if the other one is called after the first and
that status color; the map keeps what was added last and drops what was added for the
other surface. No other two elements share a name, and an element that shares its name
with none is held with what it stands on: the surface of its own layer, or for an
on-tone the tone beside it.
-/

namespace Legible

open Property

namespace LayerElement

/-- What an element stands on. -/
def stand? : LayerElement → Option LayerElement
  | surface => none
  | onTone state => some (tone state)
  | text | tone _ | status _ => some surface

/-- Whether the first of two elements is a status text and the second one is the text on
an alternative called after the layer of the first one and its color. -/
inductive Overlaps : LayerId → LayerElement → LayerId → LayerElement → Prop where
  | intro (name : String) {color : CoreColor} (listed : color ∈ CoreColor.status) :
      Overlaps (.alternative name) (.status color)
        (.alternative (name ++ "-" ++ color.text)) .text

/-- The path of one element ends in that of another only for a status text and a text. -/
theorem cases_of_suffix {element element' : LayerElement} (own : element ∈ all)
    (own' : element' ∈ all)
    (ends : element.path.flatMap Name.piecesOf <:+ element'.path.flatMap Name.piecesOf) :
    element = element' ∨
      element = text ∧ ∃ color ∈ CoreColor.status, element' = status color := by
  have checked : ∀ element ∈ all, ∀ element' ∈ all,
      element.path.flatMap Name.piecesOf <:+ element'.path.flatMap Name.piecesOf →
        element = element' ∨
          element = text ∧ ∃ color ∈ CoreColor.status, element' = status color := by
    decide +kernel
  exact checked element own element' own' ends

/-- The pieces of a text with one more word after a dash. -/
theorem piecesOf_append_word (start : String) {word : String} (plain : '-' ∉ word.toList) :
    Name.piecesOf (start ++ "-" ++ word) = Name.piecesOf start ++ [word.toList] := by
  have dashed : start ++ Name.dashed [word] = start ++ "-" ++ word := by
    rw [Name.append_dashed_cons]
    simp [Name.dashed]
  rw [← dashed, Name.piecesOf_append_dashed, List.flatMap_singleton,
    Name.piecesOf_of_not_mem plain]

theorem not_mem_text_coreColor (color : CoreColor) : '-' ∉ color.text.toList := by
  cases color <;> decide

/-- A layer with the pieces of another one and the name of a color is an alternative, and
so is the other one. -/
theorem alternative_of_pieces {layer layer' : LayerId} {color : CoreColor}
    (same : layer'.nameSegments.flatMap Name.piecesOf =
      layer.nameSegments.flatMap Name.piecesOf ++ [color.text.toList]) :
    ∃ name, layer = .alternative name ∧ layer' = .alternative (name ++ "-" ++ color.text) := by
  rw [LayerId.pieces_nameSegments, LayerId.pieces_nameSegments] at same
  cases layer with
  | indexed number =>
      -- Only the digits of a number would be left of the word `alternative`.
      cases layer' with
      | indexed number' => cases (List.cons.inj same).2
      | alternative name =>
          have digit : 'a'.isDigit = true := Numeric.Decimal.isDigit_of_mem_toDigits
            ((List.cons.inj same).1 ▸ (by decide : 'a' ∈ "alternative".toList))
          cases digit
  | alternative name =>
      cases layer' with
      | indexed number' =>
          exact absurd (List.append_eq_nil_iff.1 (List.cons.inj same).2.symm).2
            (List.cons_ne_nil _ _)
      | alternative name' =>
          refine ⟨name, rfl, congrArg LayerId.alternative (Name.piecesOf_injective ?_)⟩
          rw [piecesOf_append_word name (not_mem_text_coreColor color)]
          exact (List.cons.inj same).2

/-- Elements of one name where one path ends in the other. -/
theorem cases_of_pieces {layer layer' : LayerId} {element element' : LayerElement}
    (own : element ∈ all) (own' : element' ∈ all)
    (same : layer.nameSegments.flatMap Name.piecesOf ++ element.path.flatMap Name.piecesOf =
      layer'.nameSegments.flatMap Name.piecesOf ++ element'.path.flatMap Name.piecesOf)
    (ends : element.path.flatMap Name.piecesOf <:+ element'.path.flatMap Name.piecesOf) :
    layer = layer' ∧ element = element' ∨ Overlaps layer' element' layer element := by
  rcases cases_of_suffix own own' ends with rfl | ⟨rfl, color, status, rfl⟩
  · exact .inl ⟨LayerId.pieces_nameSegments_inj (List.append_cancel_right same), rfl⟩
  · have word : (LayerElement.status color).path.flatMap Name.piecesOf =
        [color.text.toList] ++ LayerElement.text.path.flatMap Name.piecesOf := by
      simp only [path, List.flatMap_cons,
        Name.piecesOf_of_not_mem (not_mem_text_coreColor color)]
    rw [word, ← List.append_assoc] at same
    obtain ⟨name, rfl, rfl⟩ := alternative_of_pieces (List.append_cancel_right same)
    exact .inr (.intro name status)

theorem property_eq_of_overlaps {mode : Mode} {layer layer' : LayerId}
    {element element' : LayerElement} (overlaps : Overlaps layer element layer' element') :
    element.property mode layer = element'.property mode layer' := by
  cases overlaps with
  | @intro name color listed =>
      refine Name.brand_eq_brand_iff.2 ⟨rfl, rfl, ?_⟩
      rw [LayerId.pieces_element, LayerId.pieces_element, LayerId.pieces_nameSegments,
        LayerId.pieces_nameSegments]
      simp [path, piecesOf_append_word name (not_mem_text_coreColor color),
        Name.piecesOf_of_not_mem (not_mem_text_coreColor color)]

/-- Two elements have one name only if they are the same, or if one is a status text and
the other one is the text on an alternative called after it. -/
theorem property_eq_iff {mode : Mode} {layer layer' : LayerId} {element element' : LayerElement}
    (own : element ∈ all) (own' : element' ∈ all) :
    element.property mode layer = element'.property mode layer' ↔
      layer = layer' ∧ element = element' ∨
        Overlaps layer element layer' element' ∨ Overlaps layer' element' layer element := by
  constructor
  · intro same
    obtain ⟨-, -, pieces⟩ := Name.brand_eq_brand_iff.1 same
    rw [LayerId.pieces_element, LayerId.pieces_element] at pieces
    -- Both paths end the same list of pieces, so one of them ends the other.
    rcases List.suffix_or_suffix_of_suffix (List.suffix_append _ _)
        (pieces ▸ List.suffix_append _ _) with ends | ends
    · rcases cases_of_pieces own' own pieces.symm ends with ⟨rfl, rfl⟩ | overlaps
      · exact .inl ⟨rfl, rfl⟩
      · exact .inr (.inl overlaps)
    · exact (cases_of_pieces own own' pieces ends).imp_right .inr
  · rintro (⟨rfl, rfl⟩ | overlaps | overlaps)
    · rfl
    · exact property_eq_of_overlaps overlaps
    · exact (property_eq_of_overlaps overlaps).symm

end LayerElement

namespace Configuration

open LayerElement

variable {configuration : Configuration} {mode : Mode} {layer : LayerId}
  {element : LayerElement} {name : Name} {entry : Entry}

/-- What a mode adds under the name of a layer is added by a layer. -/
theorem mem_layers_of_mem {path : List String}
    (member : (Name.brand mode .layer path, entry) ∈ (configuration.modeEmission mode).2.entries) :
    (Name.brand mode .layer path, entry) ∈
      (LayerContext.resolve (configuration.layersOf mode)).2.entries := by
  generalize same : Name.brand mode .layer path = name at member ⊢
  rcases mem_modeEmission.1 member with anchor | palette | ⟨subsystem, copied, own⟩ | layer
  · obtain ⟨_, listed, own⟩ := List.mem_flatMap.1 anchor
    obtain ⟨⟨slot, anchor⟩, -, rfl⟩ := List.mem_map.1 listed
    cases List.mem_singleton.1 own
    exact absurd same (brand_ne_of_subsystem (by decide))
  · obtain ⟨key, -, palette, -, level, shade, -, held⟩ := mem_palettes.1 palette
    rcases Palette.mem_levelEmission held with tone | ⟨chosen, -, own⟩
    · cases tone
      exact absurd same (brand_ne_of_subsystem (by decide))
    · cases own
      exact absurd same (brand_ne_of_subsystem (by decide))
  · obtain ⟨path, rfl⟩ := exists_path_of_mem_copied own
    exact absurd same (brand_ne_of_subsystem (ne_of_mem_copied copied).2.2)
  · exact layer

/-- What a layer adds is one of its elements, on what the element stands on. -/
theorem exists_element_of_mem_layers
    (member : (name, entry) ∈ (LayerContext.resolve (configuration.layersOf mode)).2.entries) :
    ∃ layer ∈ layerIds configuration.theme mode, ∃ element ∈ all,
      name = element.property mode layer ∧
        entry.origin.bind Origin.background =
          element.stand?.map (LayerElement.property mode layer) := by
  obtain ⟨layer, listed, own | ⟨surface, found, own⟩⟩ := mem_layers.1 member
  · rcases surface_cases (configuration.layersOf mode) layer with
      ⟨issues, none⟩ | ⟨anchor, palette, isFallback, input, issues, -, given⟩
    · rw [none] at own
      cases own
    · rw [given] at own
      cases List.mem_singleton.1 own
      exact ⟨layer, listed, .surface, by decide, rfl, rfl⟩
  · obtain ⟨rfl, ownName⟩ := backdrop_name_of_surfaceOf found
    cases LayerContext.finds_of_mem_elements own with
    | intro sought search =>
        have back := background_entry search
        cases sought with
        | text chosen =>
            exact ⟨_, listed, .text, by decide, rfl, (back _ _).trans (congrArg some ownName)⟩
        | @tone state _ bound =>
            refine ⟨_, listed, .tone state, ?_, rfl, (back _ _).trans (congrArg some ownName)⟩
            cases state <;> decide
        | @onTone state _ _ _ bound tone better =>
            refine ⟨_, listed, .onTone state, ?_, rfl, back _ _⟩
            cases state <;> decide
        | @status color _ status bound =>
            refine ⟨_, listed, .status color, ?_, rfl, (back _ _).trans (congrArg some ownName)⟩
            exact List.mem_append_right _ (List.mem_map_of_mem status)

/-- What is added under the name of an element is an element of that name. -/
theorem exists_element_of_mem
    (member : (element.property mode layer, entry) ∈ configuration.entries) :
    ∃ layer' ∈ layerIds configuration.theme mode, ∃ element' ∈ all,
      element.property mode layer = element'.property mode layer' ∧
        entry.origin.bind Origin.background =
          element'.stand?.map (LayerElement.property mode layer') := by
  rcases mem_entries.1 member with token | ⟨own, -, added⟩ | component
  · obtain ⟨⟨path, held⟩, -, equal⟩ := List.mem_map.1 token
    exact absurd (congrArg Prod.fst equal) (Name.ofToken_ne_brand _ _ _ _)
  · obtain ⟨subsystem, path, same⟩ := exists_brand_of_mem added
    obtain ⟨rfl, -, -⟩ := Name.brand_eq_brand_iff.1 same
    exact exists_element_of_mem_layers (mem_layers_of_mem added)
  · obtain ⟨path, same⟩ := exists_ui_of_mem component
    exact absurd same (Name.brand_ne_ui _ _ _ _)

/-- The names of elements on different layers are the same only where the layers overlap,
and an element that overlaps with none is held with what it stands on. -/
theorem apart_and_stands (configuration : Configuration) (mode : Mode) (layer : LayerId)
    (own : element ∈ all) :
    (∀ layer' ≠ layer, ∀ element' ∈ all,
      (element.property mode layer = element'.property mode layer' ↔
        Overlaps layer element layer' element' ∨ Overlaps layer' element' layer element)) ∧
      (configuration.compute.map.contains (element.property mode layer) = true →
        (∀ layer' ∈ layerIds configuration.theme mode, ∀ element' ∈ all,
          ¬ Overlaps layer element layer' element' ∧ ¬ Overlaps layer' element' layer element) →
        configuration.compute.map.background? (element.property mode layer) =
          element.stand?.map (LayerElement.property mode layer)) := by
  constructor
  · intro layer' different element' own'
    rw [property_eq_iff own own', or_iff_right fun same => different same.1.symm]
  · intro contained alone
    obtain ⟨value, held⟩ := (PropertyMap.contains_iff _ _).1 contained
    have tier : (element.property mode layer).tier ≠ .tokens := by
      rw [LayerElement.property, LayerId.element, Name.tier_brand]
      decide
    rw [compute_map] at held ⊢
    obtain ⟨entry, member, -, origin⟩ :=
      PropertyMap.mem_of_value?_of_origins (fun _ => isSome_origin_of_mem tier) held
    obtain ⟨layer', listed, element', own', same, stands⟩ := exists_element_of_mem member
    rw [PropertyMap.background?, origin, stands]
    rcases (property_eq_iff own own').1 same with ⟨rfl, rfl⟩ | overlaps
    · rfl
    · exact absurd overlaps (not_or.2 (alone layer' listed element' own'))

end Configuration

/-! ## Two alternatives, one called after the other -/

/-- A white alternative, and a black one called after it and its alert. -/
def Sample.cards : Configuration :=
  .ofDocuments
    (tokens [("000", "#ffffff"), ("900", "#000000")] [])
    ⟨"theme", .object
      [("themes", .object
        [("light", .object
          [("core-colors", .object
              (core.take 2 ++ [("alert", leaf (.text "\x7btokens.color.gray.900\x7d"))])),
            ("layers", .object [("alternative", .object
              [("card-alert", .object [("surface", leaf (.text "\x7btokens.color.gray.900\x7d"))]),
                ("card", .object
                  [("surface", leaf (.text "\x7btokens.color.gray.000\x7d"))])])])])])]⟩
    (.empty "ui-kit") {}

namespace Configuration

open LayerElement

/-- The text of the numbered layer overlaps with nothing and stands on its surface. -/
theorem apart_and_stands_text :
    ∃ configuration : Configuration, LayerElement.text ∈ all ∧
      LayerId.alternative "card" ≠ .indexed 0 ∧ LayerElement.status .alert ∈ all ∧
      (LayerElement.text.property .light (.indexed 0) =
          (LayerElement.status .alert).property .light (.alternative "card") ↔
        Overlaps (.indexed 0) .text (.alternative "card") (.status .alert) ∨
          Overlaps (.alternative "card") (.status .alert) (.indexed 0) .text) ∧
      configuration.compute.map.contains (LayerElement.text.property .light (.indexed 0)) =
        true ∧
      (∀ layer' ∈ layerIds configuration.theme .light, ∀ element' ∈ all,
        ¬ Overlaps (.indexed 0) .text layer' element' ∧
          ¬ Overlaps layer' element' (.indexed 0) .text) ∧
      configuration.compute.map.background? (LayerElement.text.property .light (.indexed 0)) =
        some (LayerId.surface .light (.indexed 0)) := by
  have own : LayerElement.text ∈ all := by decide
  have status : LayerElement.status .alert ∈ all := by decide
  have different : LayerId.alternative "card" ≠ .indexed 0 := by decide
  have contained : Sample.onWhite.compute.map.contains
      (LayerElement.text.property .light (.indexed 0)) = true := by
    decide +kernel
  have alone : ∀ layer' ∈ layerIds Sample.onWhite.theme .light, ∀ element' ∈ all,
      ¬ Overlaps (.indexed 0) .text layer' element' ∧
        ¬ Overlaps layer' element' (.indexed 0) .text := by
    intro layer' _ element' _
    exact ⟨fun overlaps => (by cases overlaps), fun overlaps => (by cases overlaps)⟩
  obtain ⟨apart, stands⟩ := apart_and_stands Sample.onWhite .light (.indexed 0) own
  exact ⟨Sample.onWhite, own, different, status, apart _ different _ status, contained, alone,
    stands contained alone⟩

/-- The status text of one alternative has the name of the text of another. What the map
holds there is black, which is for the white surface and is not legible on the black one,
and nothing is reported. -/
theorem stands_elsewhere_of_overlap :
    ∃ configuration : Configuration,
      layerIds configuration.theme .light = [.alternative "card-alert", .alternative "card"] ∧
      LayerElement.text ∈ all ∧ LayerElement.status .alert ∈ all ∧
      LayerElement.text.property .light (.alternative "card-alert") =
        (LayerElement.status .alert).property .light (.alternative "card") ∧
      configuration.compute.map.value?
          (LayerElement.text.property .light (.alternative "card-alert")) =
        some (.reference ⟨"--tokens-color-gray-900"⟩) ∧
      configuration.compute.map.value? (LayerId.surface .light (.alternative "card-alert")) =
        some (.reference ⟨"--tokens-color-gray-900"⟩) ∧
      configuration.compute.map.background?
          (LayerElement.text.property .light (.alternative "card-alert")) =
        some (LayerId.surface .light (.alternative "card")) ∧
      ∀ issue ∈ configuration.compute.issues,
        issue.locus ≠ (LayerElement.text.property .light (.alternative "card-alert")).text := by
  refine ⟨Sample.cards, ?_⟩
  decide +kernel

end Configuration

end Legible
