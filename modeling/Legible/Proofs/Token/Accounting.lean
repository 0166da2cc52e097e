import Legible.Proofs.Token.Edit
import Legible.Proofs.Watch.Run

/-!
# Leaves and tokens

The leaves of a document are listed depth first. The index does not read that list: it goes
through the levels of each ramp by their keys, and lists the leaves of the other categories
one category at a time. Both ways come to the same for every leaf that stands where a token
can: it is held at its address or rejected, unless a later leaf has the same address.
-/

namespace Legible

open Std

/-- A key holds the value of an entry when later entries for the key have the same value. -/
theorem getElem?_filled_of_last {Key Held : Type} [Ord Key] [TransOrd Key] [LawfulEqOrd Key]
    {before after : List (Key × Held)} {table : TreeMap Key Held} {key : Key} {held : Held}
    (last : ∀ other, (key, other) ∈ after → other = held) :
    (filled (before ++ (key, held) :: after) table)[key]? = some held := by
  obtain ⟨found, holds⟩ := @getElem?_filled_of_mem Key Held _ _ _
    (before ++ (key, held) :: after) table key held (by simp)
  rw [holds]
  rw [filled_append] at holds
  have ways := @mem_of_getElem?_filled Key Held _ _ _ after
    ((filled before table).insert key held) key found holds
  rcases ways with later | own
  · rw [last found later]
  · rw [← own]
    simp

namespace Token

variable {document : Document} {leaf : Document.Leaf} {finding : Finding}

/-! ## What a leaf gives -/

/-- What a key of a ramp gives that has a text or none. -/
def shadeOf (ramp key : String) (text : Option String) : Finding :=
  match Level.read? key with
  | none =>
      .rejected ⟨String.intercalate "/" [Path.colorCategory, ramp, key], .levelNotNumeric⟩
  | some level =>
      match text.bind Color.read? with
      | some color => .token (Path.color ramp level) (.color color)
      | none => .rejected ⟨(Path.color ramp level).text, .notAColor⟩

theorem findShade_eq (document : Document) (ramp key : String) :
    findShade document ramp key =
      shadeOf ramp key (document.leafText? [Path.colorCategory, ramp, key]) := rfl

/-- What a leaf gives by itself. A leaf below the level of a color makes that level none, and
a leaf above the levels has no place among the tokens. -/
def findingOf? (leaf : Document.Leaf) : Option Finding :=
  match leaf.path with
  | [] => none
  | category :: rest =>
      if category = Path.colorCategory then
        match rest with
        | ramp :: key :: deeper =>
            some (shadeOf ramp key (if deeper.isEmpty then leaf.value.text? else none))
        | _ => none
      else some (findLeaf category leaf)

/-- The token that a leaf gives by itself. -/
def tokenOf? (leaf : Document.Leaf) : Option (Path × Value) :=
  (findingOf? leaf).bind Finding.token?

theorem findingOf?_of_plain {category : String} {rest : List String}
    (stands : leaf.path = category :: rest) (other : category ≠ Path.colorCategory) :
    findingOf? leaf = some (findLeaf category leaf) := by
  rw [findingOf?, stands]
  exact if_neg other

theorem findingOf?_of_shade {ramp key : String} {deeper : List String}
    (stands : leaf.path = Path.colorCategory :: ramp :: key :: deeper) :
    findingOf? leaf =
      some (shadeOf ramp key (if deeper.isEmpty then leaf.value.text? else none)) := by
  rw [findingOf?, stands]
  exact if_pos rfl

/-- A leaf that gives something stands in another category, or at a level of a ramp or below
it. -/
theorem place_of_findingOf? (given : findingOf? leaf = some finding) :
    (∃ category rest, leaf.path = category :: rest ∧ category ≠ Path.colorCategory) ∨
      ∃ ramp key deeper, leaf.path = Path.colorCategory :: ramp :: key :: deeper := by
  rw [findingOf?] at given
  split at given
  · cases given
  · next category rest stands =>
      split at given
      · next colors =>
          split at given
          · next ramp key deeper => exact .inr ⟨ramp, key, deeper, by rw [stands, colors]⟩
          · cases given
      · next other => exact .inl ⟨category, rest, stands, other⟩

/-- Whatever stands at a key of a ramp or below it gives what is found at the key. -/
theorem findingOf?_of_mem_leaves {ramp key : String} (unique : document.root.UniqueKeys)
    (listed : leaf ∈ document.leaves [Path.colorCategory, ramp, key]) :
    findingOf? leaf = some (findShade document ramp key) := by
  obtain ⟨deeper, stands, -⟩ := Document.exists_of_mem_leaves listed
  rw [findingOf?_of_shade stands, findShade_eq, Document.leafText?]
  cases deeper with
  | nil =>
      have held := Document.leafValue?_of_mem_leaves unique listed
      rw [stands] at held
      rw [show document.leafValue? [Path.colorCategory, ramp, key] = some leaf.value from held]
      rfl
  | cons next rest =>
      rw [(Document.mem_leaves_child unique listed stands).1]
      rfl

/-- What a leaf gives is found in the document. -/
theorem mem_findings_of_leaf (unique : document.root.UniqueKeys)
    (listed : leaf ∈ document.leaves []) (given : findingOf? leaf = some finding) :
    finding ∈ findings document := by
  rw [findings, List.mem_flatMap]
  rcases place_of_findingOf? given with
    ⟨category, rest, stands, other⟩ | ⟨ramp, key, deeper, stands⟩
  · obtain ⟨-, declared, below⟩ := Document.mem_leaves_child unique listed stands
    rw [findingOf?_of_plain stands other] at given
    refine ⟨category, declared, ?_⟩
    rw [findCategory, if_neg other, ← Option.some.inj given]
    exact List.mem_map_of_mem below
  · obtain ⟨-, declared, colors⟩ := Document.mem_leaves_child unique listed stands
    obtain ⟨-, listedRamp, shades⟩ := Document.mem_leaves_child unique colors stands
    obtain ⟨-, listedKey, below⟩ := Document.mem_leaves_child unique shades stands
    rw [findingOf?_of_mem_leaves unique below] at given
    refine ⟨Path.colorCategory, declared, ?_⟩
    rw [findCategory, if_pos rfl, List.mem_flatMap, ← Option.some.inj given]
    exact ⟨ramp, listedRamp, List.mem_map_of_mem listedKey⟩

/-! ## One address in both lists -/

/-- The entries for one address. -/
def entriesOf (path : Path) (entries : List (Path × Value)) : List (Path × Value) :=
  entries.filter fun entry => decide (entry.1 = path)

theorem entriesOf_eq_nil {path : Path} {entries : List (Path × Value)}
    (absent : ∀ entry ∈ entries, entry.1 ≠ path) : entriesOf path entries = [] :=
  List.filter_eq_nil_iff.2 fun entry listed => by simpa using absent entry listed

theorem entriesOf_flatMap_congr {path : Path} {keys : List String}
    {first second : String → List (Path × Value)}
    (same : ∀ key ∈ keys, entriesOf path (first key) = entriesOf path (second key)) :
    entriesOf path (keys.flatMap first) = entriesOf path (keys.flatMap second) := by
  rw [entriesOf, entriesOf, List.filter_flatMap, List.filter_flatMap]
  exact List.flatMap_congr same

/-- A key of a ramp gives a color of the level that it spells. -/
theorem shadeOf_token? {ramp key : String} {text : Option String} {entry : Path × Value}
    (gives : (shadeOf ramp key text).token? = some entry) :
    ∃ level color, Level.read? key = some level ∧ text.bind Color.read? = some color ∧
      entry = (Path.color ramp level, .color color) := by
  rw [shadeOf] at gives
  split at gives
  · cases gives
  · next level spelled =>
      split at gives
      · next color read =>
          cases gives
          exact ⟨level, color, spelled, read, rfl⟩
      · cases gives

/-- The address of the token that a leaf gives begins like the place of the leaf. -/
theorem address_of_tokenOf? {entry : Path × Value} (gives : tokenOf? leaf = some entry) :
    (∃ category rest, leaf.path = category :: rest ∧ category ≠ Path.colorCategory ∧
        entry.1.category = category) ∨
      ∃ ramp key deeper level, leaf.path = Path.colorCategory :: ramp :: key :: deeper ∧
        entry.1 = Path.color ramp level := by
  obtain ⟨finding, given, token⟩ := Option.bind_eq_some_iff.1 gives
  rcases place_of_findingOf? given with
    ⟨category, rest, stands, other⟩ | ⟨ramp, key, deeper, stands⟩
  · rw [findingOf?_of_plain stands other] at given
    cases given
    exact .inl ⟨category, rest, stands, other, category_of_findLeaf token⟩
  · rw [findingOf?_of_shade stands] at given
    cases given
    obtain ⟨level, color, -, -, rfl⟩ := shadeOf_token? token
    exact .inr ⟨ramp, key, deeper, level, stands, rfl⟩

theorem category_of_mem_leaves {category : String} {entry : Path × Value}
    (member : entry ∈ (document.leaves [category]).filterMap tokenOf?) :
    entry.1.category = category := by
  obtain ⟨leaf, listed, gives⟩ := List.mem_filterMap.1 member
  obtain ⟨rest, below, -⟩ := Document.exists_of_mem_leaves listed
  rcases address_of_tokenOf? gives with ⟨own, _, stands, -, named⟩ | ⟨_, _, _, _, stands, named⟩
  · rw [named]
    exact (List.cons.inj (stands.symm.trans below)).1
  · rw [named]
    exact (List.cons.inj (stands.symm.trans below)).1

theorem key_of_mem_leaves {ramp : String} {entry : Path × Value}
    (member : entry ∈ (document.leaves [Path.colorCategory, ramp]).filterMap tokenOf?) :
    entry.1.key = ramp := by
  obtain ⟨leaf, listed, gives⟩ := List.mem_filterMap.1 member
  obtain ⟨rest, below, -⟩ := Document.exists_of_mem_leaves listed
  rcases address_of_tokenOf? gives with ⟨_, _, stands, other, -⟩ | ⟨own, _, _, level, stands, named⟩
  · exact absurd (List.cons.inj (stands.symm.trans below)).1 other
  · rw [named]
    exact (List.cons.inj (List.cons.inj (stands.symm.trans below)).2).1

/-- What stands at a key of a ramp and below it gives the token that is found at the key. -/
theorem tokens_of_key (unique : document.root.UniqueKeys) (ramp key : String) :
    (findShade document ramp key).token?.toList =
      (document.leaves [Path.colorCategory, ramp, key]).filterMap tokenOf? := by
  have own {leaf : Document.Leaf}
      (listed : leaf ∈ document.leaves [Path.colorCategory, ramp, key]) :
      tokenOf? leaf = (findShade document ramp key).token? := by
    rw [tokenOf?, findingOf?_of_mem_leaves unique listed, Option.bind_some]
  cases gives : (findShade document ramp key).token? with
  | none =>
      refine (List.filterMap_eq_nil_iff.2 fun leaf listed => ?_).symm
      rw [own listed, gives]
  | some entry =>
      -- The key is a leaf, so nothing else is listed with it.
      obtain ⟨level, color, -, read, -⟩ := shadeOf_token? gives
      obtain ⟨text, held, -⟩ := Option.bind_eq_some_iff.1 read
      obtain ⟨value, stands, -⟩ := Option.bind_eq_some_iff.1 held
      have alone := Document.leaves_of_leafValue? stands
      rw [alone] at own ⊢
      rw [List.filterMap_cons, own List.mem_cons_self, gives]
      rfl

/-- Where the ramp is no leaf itself, its leaves give its tokens. -/
theorem tokensOf_findRamp_eq (unique : document.root.UniqueKeys) {ramp : String}
    (bare : document.leafValue? [Path.colorCategory, ramp] = none) :
    tokensOf (findRamp document ramp) =
      (document.leaves [Path.colorCategory, ramp]).filterMap tokenOf? := by
  rw [tokensOf_findRamp, Document.leaves_eq_flatMap unique bare, List.filterMap_flatMap,
    List.filterMap_eq_flatMap_toList]
  exact List.flatMap_congr fun key _ => tokens_of_key unique ramp key

/-- Where the color category and a ramp are no leaves, the leaves of the category give the
colors of the ramp. -/
theorem entriesOf_findCategory_color (unique : document.root.UniqueKeys) {ramp : String}
    {level : Level} (bare : document.leafValue? [Path.colorCategory] = none)
    (bareRamp : document.leafValue? [Path.colorCategory, ramp] = none) :
    entriesOf (Path.color ramp level) (tokensOf (findCategory document Path.colorCategory)) =
      entriesOf (Path.color ramp level)
        ((document.leaves [Path.colorCategory]).filterMap tokenOf?) := by
  rw [tokensOf_findCategory_color, Document.leaves_eq_flatMap unique bare,
    List.filterMap_flatMap]
  refine entriesOf_flatMap_congr fun other _ => ?_
  by_cases same : other = ramp
  · rw [same, tokensOf_findRamp_eq unique bareRamp]
    rfl
  · rw [entriesOf_eq_nil fun entry member equal => same ?_,
      entriesOf_eq_nil fun entry member equal => same ?_]
    · rw [← key_of_mem_leaves member, equal]
      rfl
    · rw [← key_of_mem_findRamp member, equal]
      rfl

/-- For the address that a leaf gives, the index finds the tokens that the leaves give. -/
theorem entriesOf_findings (unique : document.root.UniqueKeys)
    (listed : leaf ∈ document.leaves []) {path : Path} {value : Value}
    (gives : tokenOf? leaf = some (path, value)) :
    entriesOf path (tokensOf (findings document)) =
      entriesOf path ((document.leaves []).filterMap tokenOf?) := by
  have bare : document.leafValue? [] = none := by
    rcases address_of_tokenOf? gives with ⟨_, _, stands, -, -⟩ | ⟨_, _, _, _, stands, -⟩
    · exact (Document.mem_leaves_child unique listed stands).1
    · exact (Document.mem_leaves_child unique listed stands).1
  rw [tokensOf_findings, Document.leaves_eq_flatMap unique bare, List.filterMap_flatMap]
  refine entriesOf_flatMap_congr fun category _ => ?_
  by_cases own : category = path.category
  · rcases address_of_tokenOf? gives with
      ⟨_, rest, stands, other, named⟩ | ⟨ramp, key, deeper, level, stands, named⟩
    · rw [← named, ← own] at other
      rw [tokensOf_findCategory other]
      refine congrArg _ (List.filterMap_congr fun leaf listed => ?_)
      obtain ⟨rest, below, -⟩ := Document.exists_of_mem_leaves listed
      rw [tokenOf?, findingOf?_of_plain below other, Option.bind_some]
    · dsimp only at named
      obtain ⟨-, -, colors⟩ := Document.mem_leaves_child unique listed stands
      obtain ⟨bareColors, -, shades⟩ := Document.mem_leaves_child unique colors stands
      have bareRamp := (Document.mem_leaves_child unique shades stands).1
      rw [own, named]
      exact entriesOf_findCategory_color unique bareColors bareRamp
  · rw [entriesOf_eq_nil fun entry member equal => own ?_,
      entriesOf_eq_nil fun entry member equal => own ?_]
    · rw [← category_of_mem_leaves member, equal]
    · rw [← category_of_mem_findCategory member, equal]

/-! ## Leaves that are accounted for -/

/-- Whether an index holds the token that was found, or lists the rejection. -/
def Index.Accounts (index : Index) : Finding → Prop
  | .token path value => index.values[path]? = some value
  | .rejected rejection => rejection ∈ index.rejected

/-- A leaf that stands where a token can is accounted for, if no later leaf gives its address
another value: the index holds the value that it spells at its address, or lists its
rejection. -/
theorem accounted_of_leaf (unique : document.root.UniqueKeys)
    {before after : List Document.Leaf} (listed : document.leaves [] = before ++ leaf :: after)
    (given : findingOf? leaf = some finding)
    (last : ∀ path value, finding = .token path value → ∀ later ∈ after, ∀ value',
      findingOf? later = some (.token path value') → value' = value) :
    (Index.ofDocument document).Accounts finding := by
  have member : leaf ∈ document.leaves [] := by
    rw [listed]
    exact List.mem_append_right _ List.mem_cons_self
  cases finding with
  | rejected rejection =>
      exact List.mem_filterMap.2 ⟨_, mem_findings_of_leaf unique member given, rfl⟩
  | token path value =>
      have gives : tokenOf? leaf = some (path, value) := by
        rw [tokenOf?, given]
        rfl
      have same := getElem?_filled_congr (entriesOf_findings unique member gives)
      rw [Index.Accounts, Index.values_ofDocument, same, listed, List.filterMap_append,
        List.filterMap_cons, gives]
      refine getElem?_filled_of_last fun other later => ?_
      obtain ⟨leaf', listed', gives'⟩ := List.mem_filterMap.1 later
      obtain ⟨finding', given', token⟩ := Option.bind_eq_some_iff.1 gives'
      cases finding' with
      | rejected rejection => cases token
      | token path' value' =>
          cases token
          exact last path value rfl leaf' listed' _ given'

/-- Of two leaves of a ramp, the one at a level is held and the other one is rejected. -/
theorem accounted_of_leaf_gray :
    ∃ (document : Document) (color : Color) (rejection : Rejection),
      document.root.UniqueKeys ∧ (document.leaves []).length = 2 ∧
      (Index.ofDocument document).values[Path.color "gray" ⟨500⟩]? = some (.color color) ∧
      rejection ∈ (Index.ofDocument document).rejected ∧ rejection.path = "color/gray/dark" := by
  let document := Sample.tokens [("500", "#767676"), ("dark", "#000000")] []
  have unique : document.root.UniqueKeys := by
    simp [document, Sample.tokens, Sample.leaf, Json.UniqueKeys, Json.UniqueKeysMembers]
  have leaves : document.leaves [] =
      [⟨["color", "gray", "500"], .text "#767676", none⟩,
        ⟨["color", "gray", "dark"], .text "#000000", none⟩] := rfl
  have shade : findingOf? ⟨["color", "gray", "500"], .text "#767676", none⟩ =
      some (.token (.color "gray" ⟨500⟩) (.color ⟨0x76, 0x76, 0x76⟩)) := rfl
  have refused : findingOf? ⟨["color", "gray", "dark"], .text "#000000", none⟩ =
      some (.rejected ⟨"color/gray/dark", .levelNotNumeric⟩) := rfl
  have held := @accounted_of_leaf document _ _ unique [] _ leaves shade
    fun path value _ later listed value' given => by
      rw [List.mem_singleton.1 listed, refused] at given
      cases given
  have rejected := @accounted_of_leaf document _ _ unique [_] [] leaves refused
    fun path value same => by cases same
  exact ⟨document, _, _, unique, rfl, held, rejected, rfl⟩

/-- A color in the place of a ramp is neither held nor rejected. Of two lengths with one
address the first is neither. -/
theorem dropped_of_leaf :
    (∃ (document : Document) (leaf : Document.Leaf), document.root.UniqueKeys ∧
        document.leaves [] = [leaf] ∧ (Index.ofDocument document).size = 0 ∧
        (Index.ofDocument document).rejected.length = 0) ∧
      ∃ (document : Document) (first second : Document.Leaf), document.root.UniqueKeys ∧
        document.leaves [] = [first, second] ∧
        leafPath "size" first = leafPath "size" second ∧
        (Index.ofDocument document).size = 1 ∧
        ((Index.ofDocument document).get? (leafPath "size" first)).map Value.literal =
          some "2px" ∧ first.value.text? = some "1px" ∧
        (Index.ofDocument document).rejected.length = 0 := by
  refine ⟨⟨⟨"tokens", .object [("color", .object [("gray", Sample.leaf (.text "#767676"))])]⟩, _,
    ?_, rfl, rfl, rfl⟩, ⟨⟨"tokens", .object [("size", .object
      [("a", .object [("b", Sample.leaf (.text "1px"))]),
        ("a-b", Sample.leaf (.text "2px"))])]⟩, _, _, ?_, rfl, ?_, ?_, ?_, rfl, ?_⟩⟩
  · simp [Sample.leaf, Json.UniqueKeys, Json.UniqueKeysMembers]
  · simp [Sample.leaf, Json.UniqueKeys, Json.UniqueKeysMembers]
  all_goals decide +kernel

end Token

end Legible
