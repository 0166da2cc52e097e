import Legible.Proofs.Token.Alias
import Legible.Proofs.Token.Overruled

/-!
# The tables of an index agree

An index keeps its tokens, its ramps and the names of its tokens in tables of their own, and
each is filled by a rule of its own: a token and a level keep the last value that is given,
a color leads to the first of its tokens and a name to the last. The tables agree all the
same, whatever the document repeats, misspells or nests.
-/

namespace Legible

open Std

/-! ## Searches of ordered lists -/

section Ordered

variable {Element : Type} {before : Element → Element → Prop} {elements : List Element}
  {wanted : Element → Bool} {element : Element}

/-- What is found in an ordered list is the first one that is wanted. -/
theorem find?_eq_some_iff_first (asymm : ∀ first second, before first second → ¬ before second first)
    (ordered : elements.Pairwise before) :
    elements.find? wanted = some element ↔
      (element ∈ elements ∧ wanted element = true) ∧
        ∀ other ∈ elements, wanted other = true → other = element ∨ before element other := by
  rw [List.find?_eq_some_iff_append]
  constructor
  · rintro ⟨hit, earlier, later, rfl, missed⟩
    obtain ⟨-, ordered, -⟩ := List.pairwise_append.1 ordered
    refine ⟨⟨by simp, hit⟩, fun other listed holds => ?_⟩
    rcases List.mem_append.1 listed with front | back
    · have refused := missed other front
      rw [holds] at refused
      cases refused
    · exact (List.mem_cons.1 back).imp_right ((List.pairwise_cons.1 ordered).1 other)
  · rintro ⟨⟨listed, hit⟩, first⟩
    obtain ⟨earlier, later, rfl⟩ := List.append_of_mem listed
    refine ⟨hit, earlier, later, rfl, fun other front => ?_⟩
    have ahead : before other element :=
      (List.pairwise_append.1 ordered).2.2 other front element List.mem_cons_self
    rw [Bool.not_eq_true']
    refine eq_false_of_ne_true fun holds => ?_
    rcases first other (List.mem_append_left _ front) holds with rfl | behind
    · exact asymm _ _ ahead ahead
    · exact asymm _ _ ahead behind

/-- The last one that is wanted in an ordered list. -/
theorem getLast?_filter_eq_some_iff
    (asymm : ∀ first second, before first second → ¬ before second first)
    (ordered : elements.Pairwise before) :
    (elements.filter wanted).getLast? = some element ↔
      (element ∈ elements ∧ wanted element = true) ∧
        ∀ other ∈ elements, wanted other = true → other = element ∨ before other element := by
  rw [List.getLast?_filter, find?_eq_some_iff_first (fun first second => asymm second first)
    (List.pairwise_reverse.2 ordered)]
  simp only [List.mem_reverse]

end Ordered

namespace Token

variable {document : Document} {path : Path} {name : String} {ramp : Ramp} {level : Level}
  {color : Color}

namespace Path

/-- A path is at most another one if it is the same or comes before it. -/
theorem isLE_iff {other : Path} :
    (compare path other).isLE = true ↔ other = path ∨ compare path other = .lt := by
  rw [Ordering.isLE_iff_eq_lt_or_eq_eq, Std.LawfulEqCmp.compare_eq_iff_eq, eq_comm (a := path),
    or_comm]

end Path

namespace Index

/-- An index whose tables agree. -/
structure IsConsistent (index : Index) : Prop where
  /-- The tokens are listed in the order of their paths, each path once. -/
  sorted : (index.tokens.map Prod.fst).Pairwise fun first second => compare first second = .lt
  listed : ∀ (path : Path) (value : Value),
    (path, value) ∈ index.tokens ↔ index.values[path]? = some value
  /-- A ramp has at a level exactly the color that is indexed under its name. -/
  shades : ∀ (name : String) (ramp : Ramp), index.ramps[name]? = some ramp → ramp.name = name ∧
    ∀ level color, ramp.color? level = some color ↔
      index.values[Path.color name level]? = some (.color color)
  /-- A ramp that is found, under its name or an alias, is held under its name. -/
  found : ∀ (name : String) (ramp : Ramp), index.ramp? name = some ramp →
    index.ramps[ramp.name]? = some ramp
  /-- A token of the color category is a level of a ramp. -/
  colors : ∀ (path : Path) (value : Value), index.values[path]? = some value →
    path.isColor = true → ∃ ramp level color, index.ramps[path.key]? = some ramp ∧
      ramp.color? level = some color ∧ path = ramp.path level ∧ value = .color color
  /-- A color leads to the least path that holds it. -/
  least : ∀ color path, index.findColor? color = some path ↔
    index.values[path]? = some (.color color) ∧
      ∀ other : Path, index.values[other]? = some (.color color) →
        (compare path other).isLE = true
  absent : ∀ color, index.findColor? color = none →
    ∀ path : Path, index.values[path]? ≠ some (.color color)
  /-- A name leads to the greatest path that is published under it. -/
  greatest : ∀ name path, index.pathOf? name = some path ↔
    (path ∈ index.values ∧ Property.Name.ofToken path = name) ∧
      ∀ other ∈ index.values, Property.Name.ofToken other = name →
        (compare other path).isLE = true
  unpublished : ∀ name, index.pathOf? name = none →
    ∀ path ∈ index.values, Property.Name.ofToken path ≠ name
  /-- An opacity is a share of one. -/
  shares : ∀ (path : Path) (amount : Float), index.values[path]? = some (.number amount) →
    path.category = "opacity" → 0 ≤ amount ∧ amount ≤ 1

/-! ## Ramps and shares -/

/-- The colors of a ramp are those that are indexed under its name. -/
theorem color?_eq_some_iff (named : (ofDocument document).ramps[name]? = some ramp) :
    ramp.color? level = some color ↔
      (ofDocument document).values[Path.color name level]? = some (.color color) := by
  obtain ⟨declared, rfl⟩ := getElem?_ramps_eq_some_iff.1 named
  refine ⟨getElem?_values_of_rampOf declared, fun held => ?_⟩
  obtain ⟨other, shade, found, own⟩ := exists_color?_of_held held rfl
  have same : some other = some (rampOf document name) := by
    rw [← found, ramp?_eq_or]
    exact congrArg (Option.or · _) named
  cases same
  cases (getElem?_values_of_rampOf declared own).symm.trans held
  exact own

/-- A token of the color category is a level of the ramp that its key names. -/
theorem exists_shade_of_isColor {value : Value}
    (held : (ofDocument document).values[path]? = some value) (colored : path.isColor = true) :
    ∃ ramp level color, (ofDocument document).ramps[path.key]? = some ramp ∧
      ramp.color? level = some color ∧ path = ramp.path level ∧ value = .color color := by
  cases gives_of_held held with
  | @shade ramp key level color declared listed spelled =>
      have named := getElem?_ramps_eq_some_iff.2 ⟨declared, rfl⟩
      exact ⟨_, level, color, named, (color?_eq_some_iff named).2 held, rfl, rfl⟩
  | leaf other => exact absurd (eq_of_beq colored) other

/-- A number that is taken for an opacity is a share of one. -/
theorem isShare_of_valueOfLeaf {kind : Option String} {json : Json} {amount : Float}
    (taken : valueOfLeaf "opacity" kind json = .ok (.number amount)) : isShare amount = true := by
  cases json with
  | number number =>
      rw [valueOfLeaf] at taken
      split at taken
      · cases taken
      · next within =>
          split at taken
          · cases taken
          · cases taken
            simpa using within
  | text text =>
      rw [valueOfLeaf] at taken
      split at taken
      · split at taken <;> cases taken
      · split at taken
        · split at taken <;> cases taken
        · cases taken
  | _ => cases taken

/-- An indexed number of the opacity category is a share of one. -/
theorem share_of_held {amount : Float}
    (held : (ofDocument document).values[path]? = some (.number amount))
    (opacity : path.category = "opacity") : 0 ≤ amount ∧ amount ≤ 1 := by
  have share : isShare amount = true := by
    generalize own : Value.number amount = value at held
    cases gives_of_held held with
    | shade => cases own
    | @leaf category leaf value other declared listed taken =>
        have same : category = "opacity" := opacity
        rw [same, ← own] at taken
        exact isShare_of_valueOfLeaf taken
  rwa [isShare, Bool.and_eq_true, decide_eq_true_eq, decide_eq_true_eq] at share

/-! ## From a color or a name to a token -/

/-- The token that is found for a color has the least path of those that hold it. -/
theorem findColor?_eq_some_iff (index : Index) (color : Color) (path : Path) :
    index.findColor? color = some path ↔
      index.values[path]? = some (.color color) ∧
        ∀ other : Path, index.values[other]? = some (.color color) →
          (compare path other).isLE = true := by
  have ordered : index.tokens.Pairwise fun first second => compare first.1 second.1 = .lt :=
    TreeMap.ordered_keys_toList
  have first := @find?_eq_some_iff_first _ _ _ (fun entry => entry.2 == Value.color color)
    (path, .color color) (fun _ _ => OrientedCmp.not_lt_of_lt) ordered
  have found : index.findColor? color = some path ↔
      index.tokens.find? (fun entry => entry.2 == .color color) = some (path, .color color) := by
    rw [findColor?, Option.map_eq_some_iff]
    constructor
    · rintro ⟨⟨own, value⟩, hit, rfl⟩
      have same : value = .color color := by simpa using List.find?_some hit
      exact same ▸ hit
    · intro hit
      exact ⟨_, hit, rfl⟩
  rw [found, first, mem_tokens]
  refine and_congr (and_iff_left (beq_self_eq_true _)) ⟨fun least other held => ?_, ?_⟩
  · have own := least (other, .color color) ((mem_tokens _ _ _).2 held) (beq_self_eq_true _)
    exact Path.isLE_iff.2 (own.imp_left (congrArg Prod.fst))
  · rintro least ⟨other, value⟩ listed hit
    have same : value = .color color := by simpa using hit
    subst same
    exact (Path.isLE_iff.1 (least other ((mem_tokens _ _ _).1 listed))).imp_left
      fun same => by rw [same]

/-- The token that is found for a name has the greatest path of those that are published
under it. -/
theorem pathOf?_eq_some_iff (document : Document) (name : Property.Name) (path : Path) :
    (ofDocument document).pathOf? name = some path ↔
      (path ∈ (ofDocument document).values ∧ Property.Name.ofToken path = name) ∧
        ∀ other ∈ (ofDocument document).values, Property.Name.ofToken other = name →
          (compare other path).isLE = true := by
  have names (paths : List Path) : ((paths.map fun path => (Property.Name.ofToken path, path)).filterMap
      fun entry => if entry.1 = name then some entry.2 else none) =
        paths.filter fun path => decide (Property.Name.ofToken path = name) := by
    rw [List.filterMap_map, ← List.filterMap_eq_filter]
    refine List.filterMap_congr fun path _ => ?_
    simp [Option.guard]
  rw [pathOf?, published_ofDocument, getElem?_filled_eq_getLast?, names,
    getLast?_filter_eq_some_iff (fun _ _ => OrientedCmp.not_lt_of_lt) TreeMap.ordered_keys]
  simp only [TreeMap.mem_keys, decide_eq_true_eq, Path.isLE_iff, eq_comm (a := path)]

/-- Where no token is found for a name, none is published under it. -/
theorem ofToken_ne_of_pathOf? {name : Property.Name}
    (missing : (ofDocument document).pathOf? name = none)
    (indexed : path ∈ (ofDocument document).values) : Property.Name.ofToken path ≠ name := by
  rintro rfl
  obtain ⟨value, held⟩ := Option.isSome_iff_exists.1 (TreeMap.mem_iff_isSome_getElem?.1 indexed)
  obtain ⟨published, found⟩ := pathOf?_ofToken held
  cases missing.symm.trans found

theorem isConsistent_ofDocument (document : Document) : (ofDocument document).IsConsistent where
  sorted := by
    rw [tokens, TreeMap.map_fst_toList_eq_keys]
    exact TreeMap.ordered_keys
  listed := mem_tokens _
  shades name ramp named := by
    refine ⟨?_, fun level color => color?_eq_some_iff named⟩
    obtain ⟨-, rfl⟩ := getElem?_ramps_eq_some_iff.1 named
    rfl
  found name ramp found := getElem?_ramps_of_ramp? found
  colors path value held colored := exists_shade_of_isColor held colored
  least := findColor?_eq_some_iff _
  absent color missing path held := ne_color_of_findColor? missing held rfl
  greatest := pathOf?_eq_some_iff document
  unpublished name missing path indexed := ofToken_ne_of_pathOf? missing indexed
  shares path amount held opacity := share_of_held held opacity

/-- The tables of an index agree with each other, and every path holds the last value that
the document gives for it. -/
theorem tables_agree (document : Document) :
    (ofDocument document).IsConsistent ∧
      ∀ path : Path, (ofDocument document).values[path]? =
        ((findings document).filterMap (Finding.valueFor? path)).getLast? :=
  ⟨isConsistent_ofDocument document, getElem?_values_ofDocument document⟩

/-- Of two keys that spell one level, the later one counts for the index and for the ramp. -/
example : (fun index : Index =>
    index.values[Path.color "gray" ⟨50⟩]? = some (.color ⟨0x76, 0x76, 0x76⟩) ∧
      (index.ramp? "gray").bind (·.color? ⟨50⟩) = some ⟨0x76, 0x76, 0x76⟩)
    (ofDocument (Sample.tokens [("50", "#ffffff"), ("050", "#767676")] [])) := by
  decide +kernel

end Index

end Token

end Legible
