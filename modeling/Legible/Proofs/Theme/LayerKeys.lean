import Mathlib.Data.List.Nodup
import Mathlib.Data.List.Pairwise
import Legible.Proofs.Property.Name
import Legible.Proofs.Token.Index
import Legible.Theme.Layer

/-!
# Keys of layers

The layers of a mode are read from the keys of a node: numbered layers from keys that spell
a number, alternatives from the keys of another node. The surface of a layer is then looked
up under the key that is written for it. For an alternative that is the key it was read
from, for a numbered layer it is only where no zero stands in front of the digits. Keys
with such zeros can spell one number several times.
-/

namespace Legible

namespace Numeric.Decimal

/-- The digits of a number that one digit spells. -/
theorem toDigits_digit {digit : Char} (plain : digit.isDigit = true) :
    toDigits (digit.toNat - '0'.toNat) = [digit] := by
  obtain ⟨least, most⟩ := Char.isDigit_iff_toNat.1 plain
  have small : digit.toNat - '0'.toNat < 10 := by
    have : '9'.toNat = 57 := rfl
    have : '0'.toNat = 48 := rfl
    omega
  have same : (digit.toNat - '0'.toNat).digitChar = digit := by
    rw [← Char.toNat_inj, Nat.toNat_digitChar_of_lt_ten small]
    exact Nat.add_sub_of_le least
  rw [toDigits, Nat.toDigits_of_lt_base small, same]

/-- Digits that are read on from a number stand behind the digits of the number. -/
theorem toDigits_ofDigitChars {digits : List Char}
    (plain : ∀ digit ∈ digits, digit.isDigit = true) {start : Nat} (positive : 0 < start) :
    toDigits (Nat.ofDigitChars 10 digits start) = toDigits start ++ digits := by
  induction digits generalizing start with
  | nil => simp
  | cons digit digits inductionHypothesis =>
      obtain ⟨own, rest⟩ := List.forall_mem_cons.1 plain
      have small : digit.toNat - '0'.toNat < 10 := by
        have most := (Char.isDigit_iff_toNat.1 own).2
        have : '9'.toNat = 57 := rfl
        have : '0'.toNat = 48 := rfl
        omega
      rw [Nat.ofDigitChars_cons, inductionHypothesis rest (by omega), toDigits,
        ← Nat.toDigits_append_toDigits (by decide) positive small]
      change toDigits start ++ toDigits (digit.toNat - '0'.toNat) ++ digits = _
      rw [toDigits_digit own, List.append_assoc, List.singleton_append]

/-- Digits without a zero in front are written for the number that they spell. -/
theorem toDigits_ofDigits {first : Char} {rest : List Char}
    (plain : ∀ digit ∈ first :: rest, digit.isDigit = true) (tight : first ≠ '0') :
    toDigits (ofDigits (first :: rest)) = first :: rest := by
  obtain ⟨own, rest'⟩ := List.forall_mem_cons.1 plain
  have positive : 0 < first.toNat - '0'.toNat := by
    have least := (Char.isDigit_iff_toNat.1 own).1
    have apart : first.toNat ≠ '0'.toNat := fun same => tight (Char.toNat_inj.1 same)
    omega
  change toDigits (Nat.ofDigitChars 10 (first :: rest) 0) = _
  rw [Nat.ofDigitChars_cons, Nat.mul_zero, Nat.zero_add, toDigits_ofDigitChars rest' positive,
    toDigits_digit own, List.singleton_append]

/-- A zero in front is not read. -/
theorem ofDigits_zero_cons (digits : List Char) : ofDigits ('0' :: digits) = ofDigits digits :=
  ofDigits_replicate_zero 1 digits

/-- The digits that are written are no more than those that were read. -/
theorem length_toDigits_ofDigits_le {digits : List Char}
    (plain : ∀ digit ∈ digits, digit.isDigit = true) (present : digits ≠ []) :
    (toDigits (ofDigits digits)).length ≤ digits.length := by
  induction digits with
  | nil => exact absurd rfl present
  | cons first rest inductionHypothesis =>
      by_cases zero : first = '0'
      · subst zero
        rw [ofDigits_zero_cons]
        cases rest with
        | nil => exact Nat.le_refl 1
        | cons second rest =>
            exact Nat.le_succ_of_le (inductionHypothesis
              (fun digit member => plain digit (List.mem_cons_of_mem _ member)) (by simp))
      · exact Nat.le_of_eq (congrArg List.length (toDigits_ofDigits plain zero))

/-- Whether digits stand without a zero in front. -/
def isTight : List Char → Bool
  | '0' :: _ :: _ => false
  | _ => true

/-- Digits are written for the number that they spell where no zero stands in front. -/
theorem toDigits_ofDigits_eq_iff {digits : List Char}
    (plain : ∀ digit ∈ digits, digit.isDigit = true) (present : digits ≠ []) :
    toDigits (ofDigits digits) = digits ↔ isTight digits = true := by
  fun_cases isTight digits with
  | case1 second rest =>
      have shorter := length_toDigits_ofDigits_le
        (fun digit member => plain digit (List.mem_cons_of_mem _ member))
        (List.cons_ne_nil second rest)
      rw [ofDigits_zero_cons]
      refine iff_of_false (fun same => ?_) (by decide)
      rw [same, List.length_cons] at shorter
      omega
  | case2 _ tight =>
      refine iff_of_true ?_ rfl
      cases digits with
      | nil => exact absurd rfl present
      | cons first rest =>
          by_cases zero : first = '0'
          · subst zero
            cases rest with
            | nil => rfl
            | cons second rest => exact absurd rfl (tight second rest)
          · exact toDigits_ofDigits plain zero

end Numeric.Decimal

/-- A short number is spelled by digits alone, and by one of them at least. -/
theorem Text.of_shortNumber? {digits : List Char} {number : UInt16}
    (spelled : shortNumber? digits = some number) :
    digits ≠ [] ∧ (∀ digit ∈ digits, digit.isDigit = true) ∧
      Numeric.Decimal.ofDigits digits = number.toNat := by
  rw [shortNumber?] at spelled
  split at spelled
  · cases spelled
  · next accepted =>
      simp only [Bool.or_eq_true, List.isEmpty_iff, Bool.not_eq_true', List.all_eq_false,
        not_or, not_exists, not_and, Bool.not_eq_true, Bool.not_eq_false] at accepted
      dsimp only at spelled
      split at spelled
      · next small =>
          rw [← Option.some.inj spelled, UInt16.toNat_ofNat_of_lt' small]
          exact ⟨accepted.1, accepted.2, rfl⟩
      · cases spelled

namespace LayerId

/-- The number that a key spells. -/
def number? (key : String) : Option UInt16 :=
  if Property.Name.beginsWith "layer-" key then Text.shortNumber? (key.toList.drop 6) else none

theorem read?_eq (key : String) : read? key = (number? key).map indexed := by
  rw [read?, number?]
  split <;> rfl

/-- The key of a numbered layer is the one it was read from where no zero stands in front of
its digits. -/
theorem key_eq_iff {key : String} {number : UInt16} (spelled : number? key = some number) :
    "layer-" ++ numberText number = key ↔
      Numeric.Decimal.isTight (key.toList.drop 6) = true := by
  rw [number?] at spelled
  split at spelled
  · next begins =>
      obtain ⟨digits, same⟩ := List.isPrefixOf_iff_prefix.1 begins
      have dropped : key.toList.drop 6 = digits := by
        rw [← same]
        rfl
      rw [dropped] at spelled ⊢
      obtain ⟨present, plain, value⟩ := Text.of_shortNumber? spelled
      rw [← Numeric.Decimal.toDigits_ofDigits_eq_iff plain present, value, ← String.toList_inj,
        String.toList_append, toList_numberText, ← same, List.append_cancel_left_eq]
  · cases spelled

end LayerId

section Listing

variable {theme : Document} {mode : Mode}

/-- The node of a mode that holds its layers. -/
def layersPath (mode : Mode) : List String := ["themes", mode.text, "layers"]

/-- The keys of the alternatives of a mode. -/
def alternativeKeys (theme : Document) (mode : Mode) : List String :=
  theme.keys (layersPath mode ++ ["alternative"])

/-- The layers of a mode are the numbers that its keys spell, sorted, and then its
alternatives. -/
theorem layerIds_eq (unique : theme.root.UniqueKeys) (mode : Mode) :
    layerIds theme mode =
      (((theme.keys (layersPath mode)).filterMap LayerId.number?).mergeSort
        fun left right => decide (left ≤ right)).map .indexed ++
          (alternativeKeys theme mode).map .alternative := by
  have alternatives : ((theme.keys (layersPath mode)).flatMap fun key =>
      if key = "alternative" then alternativeKeys theme mode else []) =
        alternativeKeys theme mode := by
    rw [flatMap_eq_of_alone (theme.nodup_keys unique _) fun key other => if_neg other, if_pos rfl]
    split
    · rfl
    · next absent =>
        refine (List.eq_nil_iff_forall_not_mem.2 fun name listed => absent ?_).symm
        exact Document.mem_keys_of_get? _ [] (by decide) (Document.isSome_get?_of_mem_keys listed)
  rw [← alternatives]
  refine congrArg₂ (fun numbers alternatives => numbers.map LayerId.indexed ++ alternatives)
    (congrArg (List.mergeSort · _) (List.filterMap_congr fun key _ => ?_)) rfl
  rw [LayerId.read?_eq]
  cases LayerId.number? key <;> rfl

/-- Distinct keys spell distinct numbers where no number is spelled twice. -/
theorem nodup_numbers_iff {keys : List String} (distinct : keys.Nodup) :
    (keys.filterMap LayerId.number?).Nodup ↔
      ∀ key ∈ keys, ∀ other ∈ keys, ∀ layer, LayerId.read? key = some layer →
        LayerId.read? other = some layer → key = other := by
  rw [List.Nodup, List.pairwise_filterMap]
  constructor
  · intro apart key listed other listed' layer read read'
    rw [LayerId.read?_eq, Option.map_eq_some_iff] at read read'
    obtain ⟨number, spelled, rfl⟩ := read
    obtain ⟨_, spelled', ⟨⟩⟩ := read'
    have symmetric : Std.Symm fun first second : String =>
        ∀ number, LayerId.number? first = some number → ∀ number',
          LayerId.number? second = some number' → number ≠ number' :=
      ⟨fun _ _ apart _ spelled _ spelled' same => apart _ spelled' _ spelled same.symm⟩
    by_contra different
    exact apart.forall listed listed' different number spelled number spelled' rfl
  · intro once
    refine distinct.imp_of_mem fun {key other} listed listed' different => ?_
    rintro number spelled _ spelled' rfl
    refine different (once key listed other listed' (.indexed number) ?_ ?_)
    · rw [LayerId.read?_eq, spelled, Option.map_some]
    · rw [LayerId.read?_eq, spelled', Option.map_some]

/-- Every layer is listed once where no number is spelled twice. -/
theorem nodup_layerIds_iff (unique : theme.root.UniqueKeys) (mode : Mode) :
    (layerIds theme mode).Nodup ↔
      ∀ key ∈ theme.keys (layersPath mode), ∀ other ∈ theme.keys (layersPath mode),
        ∀ layer, LayerId.read? key = some layer → LayerId.read? other = some layer →
          key = other := by
  rw [layerIds_eq unique, List.nodup_append,
    List.nodup_map_iff fun _ _ same => LayerId.indexed.inj same,
    List.nodup_map_iff fun _ _ same => LayerId.alternative.inj same,
    (List.mergeSort_perm _ _).nodup_iff, nodup_numbers_iff (theme.nodup_keys unique _)]
  refine and_iff_left ⟨theme.nodup_keys unique _, ?_⟩
  intro first numbered second named same
  obtain ⟨_, -, rfl⟩ := List.mem_map.1 numbered
  obtain ⟨_, -, rfl⟩ := List.mem_map.1 named
  cases same

/-- The surface of a numbered layer is looked up under the key that was read where no zero
stands in front of the digits of the key. -/
theorem surfacePath_eq_iff {key : String} {layer : LayerId}
    (read : LayerId.read? key = some layer) :
    layer.surfacePath mode = layersPath mode ++ [key, "surface"] ↔
      Numeric.Decimal.isTight (key.toList.drop 6) = true := by
  rw [LayerId.read?_eq, Option.map_eq_some_iff] at read
  obtain ⟨number, spelled, rfl⟩ := read
  rw [← LayerId.key_eq_iff spelled]
  simp [LayerId.surfacePath, LayerId.documentPath, layersPath]

theorem sorted_numbers (numbers : List UInt16) :
    (numbers.mergeSort fun left right => decide (left ≤ right)).Pairwise (· ≤ ·) := by
  have sorted := @List.pairwise_mergeSort _ (fun left right : UInt16 => decide (left ≤ right))
    (fun _ _ _ first second => decide_eq_true
      (UInt16.le_trans (of_decide_eq_true first) (of_decide_eq_true second)))
    (fun left right => by simpa using UInt16.le_total left right) numbers
  exact sorted.imp of_decide_eq_true

/-- The layers of a mode are one for every key that spells a number, in the order of the
numbers, and then one for every alternative, in document order. Each is listed once unless
two keys spell one number, and each surface is looked up under the key its layer was read
from unless a zero stands in front of the number. -/
theorem lists_and_finds (unique : theme.root.UniqueKeys) (mode : Mode) :
    (∃ numbers : List UInt16,
      layerIds theme mode =
        numbers.map .indexed ++ (alternativeKeys theme mode).map .alternative ∧
      numbers.Pairwise (· ≤ ·) ∧
      (numbers.map .indexed).Perm ((theme.keys (layersPath mode)).filterMap LayerId.read?)) ∧
    ((layerIds theme mode).Nodup ↔
      ∀ key ∈ theme.keys (layersPath mode), ∀ other ∈ theme.keys (layersPath mode),
        ∀ layer, LayerId.read? key = some layer → LayerId.read? other = some layer →
          key = other) ∧
    (∀ key ∈ theme.keys (layersPath mode), ∀ layer, LayerId.read? key = some layer →
      (layer.surfacePath mode = layersPath mode ++ [key, "surface"] ↔
        Numeric.Decimal.isTight (key.toList.drop 6) = true)) ∧
    ∀ name ∈ alternativeKeys theme mode,
      (LayerId.alternative name).surfacePath mode =
        layersPath mode ++ ["alternative", name, "surface"] := by
  refine ⟨⟨_, layerIds_eq unique mode, ?_, ?_⟩, nodup_layerIds_iff unique mode,
    fun key _ layer read => surfacePath_eq_iff read, fun name _ => rfl⟩
  · exact sorted_numbers _
  · have read : LayerId.read? = fun key => (LayerId.number? key).map .indexed :=
      funext LayerId.read?_eq
    rw [read, ← List.map_filterMap]
    exact (List.mergeSort_perm _ _).map _

end Listing

namespace Sample

/-- A theme with these layers in light mode. -/
def layered (layers : List (String × Json)) : Document :=
  ⟨"theme", .object [("themes", .object [("light", .object [("layers", .object layers)])])]⟩

/-- A layer with a surface. -/
def surfaced : Json :=
  .object [("surface", .object [("$value", .text "\x7btokens.color.gray.900\x7d")])]

end Sample

/-- Layers with plain numbers are listed once, beside a key that spells none and the
alternatives, and are found. -/
theorem lists_and_finds_plain :
    ∃ theme : Document, theme.root.UniqueKeys ∧
      theme.keys (layersPath .light) = ["layer-10", "alternative", "stray", "layer-2"] ∧
      (layerIds theme .light).Nodup ∧ LayerId.read? "layer-10" = some (.indexed 10) ∧
      (LayerId.indexed 10).surfacePath .light =
        layersPath .light ++ ["layer-10", "surface"] := by
  let theme := Sample.layered [("layer-10", .empty),
    ("alternative", .object [("danger", .empty), ("calm", .empty)]), ("stray", .empty),
    ("layer-2", .empty)]
  have unique : theme.root.UniqueKeys := by
    simp [theme, Sample.layered, Json.empty, Json.UniqueKeys, Json.UniqueKeysMembers]
  have keys : theme.keys (layersPath .light) =
      ["layer-10", "alternative", "stray", "layer-2"] := by
    decide +kernel
  have apart : ∀ key ∈ ["layer-10", "alternative", "stray", "layer-2"],
      ∀ other ∈ ["layer-10", "alternative", "stray", "layer-2"],
        (LayerId.read? key).isSome → LayerId.read? key = LayerId.read? other → key = other := by
    decide +kernel
  obtain ⟨-, once, finds, -⟩ := lists_and_finds unique .light
  rw [keys] at once finds
  refine ⟨theme, unique, keys, once.2 fun key listed other listed' layer read read' => ?_,
    by decide +kernel, (finds "layer-10" (by decide) _ (by decide +kernel)).2 (by decide +kernel)⟩
  exact apart key listed other listed' (by rw [read]; rfl) (read.trans read'.symm)

/-- Two keys of one number give one layer twice, and the surface of a key with a zero in front
is not found. -/
theorem not_lists_and_finds :
    ∃ theme : Document, theme.root.UniqueKeys ∧
      theme.keys (layersPath .light) = ["layer-01", "layer-1"] ∧
      ¬(layerIds theme .light).Nodup ∧
      LayerId.read? "layer-01" = some (.indexed 1) ∧
      (theme.leafText? (layersPath .light ++ ["layer-01", "surface"])).isSome = true ∧
      theme.leafText? ((LayerId.indexed 1).surfacePath .light) = none := by
  let theme := Sample.layered [("layer-01", Sample.surfaced), ("layer-1", .empty)]
  have unique : theme.root.UniqueKeys := by
    simp [theme, Sample.layered, Sample.surfaced, Json.empty, Json.UniqueKeys,
      Json.UniqueKeysMembers]
  have keys : theme.keys (layersPath .light) = ["layer-01", "layer-1"] := by decide +kernel
  refine ⟨theme, unique, keys, fun once => ?_, by decide +kernel, by decide +kernel,
    by decide +kernel⟩
  rw [nodup_layerIds_iff unique, keys] at once
  have same := once "layer-01" (by decide) "layer-1" (by decide) (.indexed 1)
    (by decide +kernel) (by decide +kernel)
  exact absurd same (by decide)

end Legible
