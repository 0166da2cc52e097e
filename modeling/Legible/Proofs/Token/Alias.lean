import Legible.Proofs.Token.Index
import Legible.Proofs.Watch.Run

/-!
# Ramps by name and by alias

A ramp is found by its name, or else by the alias that it declares. Of several ramps with
one alias the last one is found. A color is looked up in the same order, but token by
token: a name that has a ramp of its own still leads on to the ramp with this alias, for
the levels that the own ramp does not have. Where no ramp has the name of another one as
its alias, both lookups lead to the same ramp.
-/

namespace Legible

open Std

namespace Token

variable {document : Document} {name : String} {ramp : Ramp} {level : Level} {color : Color}
  {path : Path}

/-- The ramps that a document declares with an alias, in document order. -/
def aliased (document : Document) (aliasName : String) : List Ramp :=
  ((document.keys [Path.colorCategory]).map (rampOf document)).filter fun ramp =>
    decide (ramp.aliasName = some aliasName)

theorem mem_aliased {aliasName : String} :
    ramp ∈ aliased document aliasName ↔
      (∃ key ∈ document.keys [Path.colorCategory], rampOf document key = ramp) ∧
        ramp.aliasName = some aliasName := by
  rw [aliased, List.mem_filter, List.mem_map, decide_eq_true_eq]

namespace Index

/-- The ramps of an index are the declared ones, each under its name. -/
theorem getElem?_ramps_eq_some_iff :
    (ofDocument document).ramps[name]? = some ramp ↔
      name ∈ document.keys [Path.colorCategory] ∧ rampOf document name = ramp := by
  rw [getElem?_ramps_ofDocument]
  split <;> simp [*]

/-- An alias leads to the name of the last ramp that declares it. -/
theorem getElem?_aliases_ofDocument (document : Document) (aliasName : String) :
    (ofDocument document).aliases[aliasName]? =
      (aliased document aliasName).getLast?.map Ramp.name := by
  have table : (ofDocument document).aliases =
      filled (((document.keys [Path.colorCategory]).map (rampOf document)).filterMap fun ramp =>
        ramp.aliasName.map fun aliasName => (aliasName, ramp.name)) ∅ := by
    rw [filled, List.foldl_filterMap]
    change List.foldl _ _ _ = _
    congr 1
    funext kept ramp
    cases ramp.aliasName <;> rfl
  rw [table, getElem?_filled_eq_getLast?, List.filterMap_filterMap, ← List.getLast?_map, aliased,
    ← List.filterMap_eq_map (f := Ramp.name), List.filterMap_filter]
  congr 2
  funext ramp
  cases ramp.aliasName <;> simp

/-- A ramp that is declared with an alias is held under its name. -/
theorem getElem?_ramps_of_mem_aliased {aliasName : String}
    (member : ramp ∈ aliased document aliasName) :
    (ofDocument document).ramps[ramp.name]? = some ramp := by
  obtain ⟨⟨key, declared, rfl⟩, -⟩ := mem_aliased.1 member
  exact getElem?_ramps_eq_some_iff.2 ⟨declared, rfl⟩

/-- A name leads to the ramp that has it, or else to the last ramp with this alias. -/
theorem ramp?_eq_or (document : Document) (name : String) :
    (ofDocument document).ramp? name =
      (ofDocument document).ramps[name]?.or (aliased document name).getLast? := by
  rw [ramp?, Option.orElse_eq_or, getElem?_aliases_ofDocument]
  congr 1
  cases last : (aliased document name).getLast? with
  | none => rfl
  | some ramp => exact getElem?_ramps_of_mem_aliased (List.mem_of_getLast? last)

/-- The tokens of a name are the levels of the ramp that has it. -/
theorem mem_values_color_iff :
    Path.color name level ∈ (ofDocument document).values ↔
      ∃ ramp color, (ofDocument document).ramps[name]? = some ramp ∧
        ramp.color? level = some color := by
  rw [TreeMap.mem_iff_isSome_getElem?, Option.isSome_iff_exists]
  constructor
  · rintro ⟨value, held⟩
    have named := getElem?_ramps_eq_some_iff.2 ⟨mem_keys_of_held held rfl, rfl⟩
    obtain ⟨ramp, color, found, shade⟩ := exists_color?_of_held held rfl
    rw [ramp?_eq_or, named, Option.some_or] at found
    exact ⟨ramp, color, found ▸ named, shade⟩
  · rintro ⟨ramp, color, named, shade⟩
    obtain ⟨declared, rfl⟩ := getElem?_ramps_eq_some_iff.1 named
    exact ⟨_, getElem?_values_of_rampOf declared shade⟩

/-! ## Both lookups -/

/-- Without a token of its own, a name leads to the level of the last ramp with this
alias. -/
theorem canonicalize?_color_of_not_mem
    (lacks : Path.color name level ∉ (ofDocument document).values) :
    (ofDocument document).canonicalize? (Path.color name level) = some path ↔
      ∃ ramp color, (aliased document name).getLast? = some ramp ∧
        ramp.color? level = some color ∧ path = ramp.path level := by
  have colored : (Path.color name level).isColor = true := beq_self_eq_true _
  rw [canonicalize?, if_neg lacks, if_pos colored]
  change (Option.bind (ofDocument document).aliases[name]? fun ramp =>
    if Path.color ramp level ∈ (ofDocument document).values then
      some (Path.color ramp level) else none) = some path ↔ _
  rw [getElem?_aliases_ofDocument]
  cases last : (aliased document name).getLast? with
  | none => simp
  | some ramp =>
      have named := getElem?_ramps_of_mem_aliased (List.mem_of_getLast? last)
      simp [mem_values_color_iff, named, Ramp.path, eq_comm]

/-- A token leads to the color that its ramp has at its level. -/
theorem color?_path (found : (ofDocument document).ramps[ramp.name]? = some ramp)
    (shade : ramp.color? level = some color) :
    (ofDocument document).color? (ramp.path level) = some color := by
  obtain ⟨declared, same⟩ := getElem?_ramps_eq_some_iff.1 found
  have held := getElem?_values_of_rampOf declared (same ▸ shade)
  rw [color?, Ramp.path, get?_of_held held]
  rfl

/-- A ramp that is found is held under its own name. -/
theorem getElem?_ramps_of_ramp? (found : (ofDocument document).ramp? name = some ramp) :
    (ofDocument document).ramps[ramp.name]? = some ramp := by
  obtain ⟨declared, same⟩ := ramp?_ofDocument found
  exact getElem?_ramps_eq_some_iff.2 ⟨declared, same.symm⟩

end Index

/-- A name whose own ramp does not have a level, while a ramp is declared with this name as
its alias. -/
structure Diverts (document : Document) (name : String) (level : Level) (ramp : Ramp) :
    Prop where
  lacks : ∃ own, (Index.ofDocument document).ramps[name]? = some own ∧ own.color? level = none
  last : (aliased document name).getLast? = some ramp

/-- Where the ramp of a name has the level, the token is its own. -/
theorem canonicalize?_color_of_mem {own : Ramp}
    (named : (Index.ofDocument document).ramps[name]? = some own)
    (shade : own.color? level = some color) :
    (Index.ofDocument document).canonicalize? (Path.color name level) = some (own.path level) := by
  have direct : Path.color name level ∈ (Index.ofDocument document).values :=
    Index.mem_values_color_iff.2 ⟨own, color, named, shade⟩
  obtain ⟨-, rfl⟩ := Index.getElem?_ramps_eq_some_iff.1 named
  rw [Index.canonicalize?, if_pos direct]
  rfl

/-- A name leads to a level of the ramp that is found under it, or to which it diverts. -/
theorem canonicalize?_color_eq_some_iff :
    (Index.ofDocument document).canonicalize? (Path.color name level) = some path ↔
      ∃ ramp color, ((Index.ofDocument document).ramp? name = some ramp ∨
          Diverts document name level ramp) ∧
        ramp.color? level = some color ∧ path = ramp.path level := by
  cases named : (Index.ofDocument document).ramps[name]? with
  | none =>
      have lacks : Path.color name level ∉ (Index.ofDocument document).values := by
        simp [Index.mem_values_color_iff, named]
      have stays (ramp : Ramp) : ¬Diverts document name level ramp := by
        rintro ⟨⟨own, present, -⟩, -⟩
        cases named.symm.trans present
      rw [Index.canonicalize?_color_of_not_mem lacks, Index.ramp?_eq_or, named, Option.none_or]
      simp only [stays, or_false]
  | some own =>
      rw [Index.ramp?_eq_or, named, Option.some_or]
      cases shade : own.color? level with
      | some color =>
          rw [canonicalize?_color_of_mem named shade]
          constructor
          · rintro ⟨⟩
            exact ⟨own, color, .inl rfl, shade, rfl⟩
          · rintro ⟨ramp, _, ⟨⟨⟩⟩ | ⟨⟨own', present, lacks⟩, -⟩, -, rfl⟩
            · rfl
            · cases named.symm.trans present
              cases shade.symm.trans lacks
      | none =>
          have lacks : Path.color name level ∉ (Index.ofDocument document).values := by
            simp [Index.mem_values_color_iff, named, shade]
          rw [Index.canonicalize?_color_of_not_mem lacks]
          constructor
          · rintro ⟨ramp, color, last, held, same⟩
            exact ⟨ramp, color, .inr ⟨⟨own, named, shade⟩, last⟩, held, same⟩
          · rintro ⟨ramp, color, ⟨⟨⟩⟩ | ⟨-, last⟩, held, same⟩
            · cases shade.symm.trans held
            · exact ⟨ramp, color, last, held, same⟩

/-- The ramp that is found under an alias, if it is not the one that declares it. -/
theorem ramp?_of_aliasName {aliasName : String}
    (held : (Index.ofDocument document).ramps[name]? = some ramp)
    (declares : ramp.aliasName = some aliasName) :
    (Index.ofDocument document).ramp? aliasName = some ramp ∨
      ∃ other, (Index.ofDocument document).ramp? aliasName = some other ∧
        other.name ≠ ramp.name ∧
        (other.name = aliasName ∨ (aliased document aliasName).getLast? = some other) := by
  obtain ⟨declared, own⟩ := Index.getElem?_ramps_eq_some_iff.1 held
  have member : ramp ∈ aliased document aliasName :=
    mem_aliased.2 ⟨⟨name, declared, own⟩, declares⟩
  obtain ⟨other, found, ways⟩ : ∃ other, (Index.ofDocument document).ramp? aliasName = some other ∧
      (other.name = aliasName ∨ (aliased document aliasName).getLast? = some other) := by
    rw [Index.ramp?_eq_or]
    cases named : (Index.ofDocument document).ramps[aliasName]? with
    | some other =>
        obtain ⟨-, rfl⟩ := Index.getElem?_ramps_eq_some_iff.1 named
        exact ⟨_, rfl, .inl rfl⟩
    | none =>
        have last := List.getLast?_eq_some_getLast (List.ne_nil_of_mem member)
        exact ⟨_, last, .inr last⟩
  by_cases same : other.name = ramp.name
  · have both := Index.getElem?_ramps_of_ramp? found
    rw [same, ← own] at both
    cases both.symm.trans (Index.getElem?_ramps_eq_some_iff.2 ⟨declared, rfl⟩)
    exact .inl (own ▸ found)
  · exact .inr ⟨other, found, same, ways⟩

/-- A color is found under a name at exactly the levels of the ramp that is found under the
name, or of the ramp to which a name with a ramp of its own diverts; it is that ramp's own
token and color. A ramp that declares an alias is found under it, unless the alias is the
name of another ramp or a later ramp declares it as well. -/
theorem looksUp_or_diverts (document : Document) :
    let index := Index.ofDocument document
    (∀ name level path, index.canonicalize? (.color name level) = some path ↔
      ∃ ramp color, (index.ramp? name = some ramp ∨ Diverts document name level ramp) ∧
        ramp.color? level = some color ∧ path = ramp.path level ∧
          index.color? path = some color) ∧
    ∀ (name : String) ramp aliasName, index.ramps[name]? = some ramp →
      ramp.aliasName = some aliasName →
      index.ramp? aliasName = some ramp ∨
        ∃ other, index.ramp? aliasName = some other ∧ other.name ≠ ramp.name ∧
          (other.name = aliasName ∨ (aliased document aliasName).getLast? = some other) := by
  refine ⟨fun name level path => ?_, fun name ramp aliasName held declares =>
    ramp?_of_aliasName held declares⟩
  rw [canonicalize?_color_eq_some_iff]
  constructor
  · rintro ⟨ramp, color, ways, shade, rfl⟩
    have held : (Index.ofDocument document).ramps[ramp.name]? = some ramp :=
      ways.elim Index.getElem?_ramps_of_ramp? fun diverts =>
        Index.getElem?_ramps_of_mem_aliased (List.mem_of_getLast? diverts.last)
    exact ⟨ramp, color, ways, shade, rfl, Index.color?_path held shade⟩
  · rintro ⟨ramp, color, ways, shade, same, -⟩
    exact ⟨ramp, color, ways, shade, same⟩

end Token

namespace Sample

/-- Three ramps of one color each. The name of the first is the alias of the second, and the
third has the alias of the first. -/
def namesakes : Document :=
  ⟨"tokens", .object [("color", .object
    [("gray", .object [("$alias", .text "neutral"), ("500", leaf (.text "#767676"))]),
      ("stone", .object [("$alias", .text "gray"), ("900", leaf (.text "#000000"))]),
      ("slate", .object [("$alias", .text "neutral"), ("700", leaf (.text "#333333"))])])]⟩

end Sample

namespace Token

/-- The last ramp with an alias is found under it, with its level. -/
theorem looksUp_or_diverts_slate :
    ∃ (document : Document) (ramp : Ramp),
      (Index.ofDocument document).ramps["slate"]? = some ramp ∧
      ramp.aliasName = some "neutral" ∧
      (Index.ofDocument document).ramp? "neutral" = some ramp ∧
      (Index.ofDocument document).canonicalize? (.color "neutral" ⟨700⟩) =
        some (ramp.path ⟨700⟩) := by
  have held : (Index.ofDocument Sample.namesakes).ramps["slate"]? =
      some (rampOf Sample.namesakes "slate") :=
    Index.getElem?_ramps_eq_some_iff.2 ⟨by decide +kernel, rfl⟩
  have declares : (rampOf Sample.namesakes "slate").aliasName = some "neutral" := by
    decide +kernel
  have shade : (rampOf Sample.namesakes "slate").color? ⟨700⟩ = some ⟨0x33, 0x33, 0x33⟩ := by
    decide +kernel
  have named : ((Index.ofDocument Sample.namesakes).ramp? "neutral").map Ramp.name =
      some "slate" := by
    decide +kernel
  obtain ⟨looksUp, found⟩ := looksUp_or_diverts Sample.namesakes
  have found : (Index.ofDocument Sample.namesakes).ramp? "neutral" =
      some (rampOf Sample.namesakes "slate") := by
    rcases found "slate" _ "neutral" held declares with own | ⟨other, found, apart, -⟩
    · exact own
    · rw [found] at named
      exact absurd (Option.some.inj named) apart
  exact ⟨_, _, held, declares, found,
    (looksUp "neutral" ⟨700⟩ _).2 ⟨_, _, .inl found, shade, rfl,
      Index.color?_path (Index.getElem?_ramps_of_ramp? found) shade⟩⟩

/-- A color is found under the name of a ramp that does not have its level, and a ramp is not
found under the alias that it declares. -/
theorem not_looksUp :
    ∃ document : Document, document.root.UniqueKeys ∧
      ((Index.ofDocument document).canonicalize? (.color "gray" ⟨900⟩) =
          some (.color "stone" ⟨900⟩) ∧
        ∃ ramp, (Index.ofDocument document).ramp? "gray" = some ramp ∧
          ramp.color? ⟨900⟩ = none) ∧
      ∃ ramp other, (Index.ofDocument document).ramps["gray"]? = some ramp ∧
        ramp.aliasName = some "neutral" ∧
        (Index.ofDocument document).ramp? "neutral" = some other ∧ other.name ≠ ramp.name := by
  have unique : Sample.namesakes.root.UniqueKeys := by
    simp [Sample.namesakes, Sample.leaf, Json.UniqueKeys, Json.UniqueKeysMembers]
  have gray : (Index.ofDocument Sample.namesakes).ramps["gray"]? =
      some (rampOf Sample.namesakes "gray") :=
    Index.getElem?_ramps_eq_some_iff.2 ⟨by decide +kernel, rfl⟩
  have named : (Index.ofDocument Sample.namesakes).ramp? "gray" =
      some (rampOf Sample.namesakes "gray") := by
    rw [Index.ramp?_eq_or, gray, Option.some_or]
  obtain ⟨other, found, slate⟩ := Option.map_eq_some_iff.1
    (show ((Index.ofDocument Sample.namesakes).ramp? "neutral").map Ramp.name = some "slate" by
      decide +kernel)
  exact ⟨Sample.namesakes, unique, ⟨by decide +kernel, _, named, by decide +kernel⟩,
    _, other, gray, by decide +kernel, found, by rw [slate]; decide⟩

end Token

end Legible
