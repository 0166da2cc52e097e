import Mathlib.Data.List.Induction
import Legible.Proofs.Document.Leaves
import Legible.Reference.Resolver

/-!
# What a token index holds

The tables of an index are filled from the findings of one document, a later entry
replacing an earlier one. The table of tokens and the ramps are filled separately;
both keep the last color of a level, so every level of a ramp is a token with the
color that the ramp gives. Whatever the resolver returns is held by the index.
-/

namespace Legible

open Std

/-! ## Filled tables -/

section Table

variable {Key Held : Type} [Ord Key] [TransOrd Key] [LawfulEqOrd Key]

/-- A table with entries written into it in order. -/
def filled (entries : List (Key × Held)) (table : TreeMap Key Held) : TreeMap Key Held :=
  entries.foldl (fun kept entry => kept.insert entry.1 entry.2) table

omit [TransOrd Key] [LawfulEqOrd Key] in
theorem filled_append (first second : List (Key × Held)) (table : TreeMap Key Held) :
    filled (first ++ second) table = filled second (filled first table) :=
  List.foldl_append

omit [TransOrd Key] [LawfulEqOrd Key] in
theorem filled_append_singleton (entries : List (Key × Held)) (entry : Key × Held)
    (table : TreeMap Key Held) :
    filled (entries ++ [entry]) table = (filled entries table).insert entry.1 entry.2 :=
  filled_append entries [entry] table

/-- A key that no entry has keeps what the table held. -/
theorem getElem?_filled_of_absent {entries : List (Key × Held)} {table : TreeMap Key Held}
    {key : Key} (absent : ∀ entry ∈ entries, entry.1 ≠ key) :
    (filled entries table)[key]? = table[key]? := by
  induction entries generalizing table with
  | nil => rfl
  | cons entry rest inductionHypothesis =>
      have later := @inductionHypothesis (table.insert entry.1 entry.2)
        fun other member => absent other (List.mem_cons_of_mem _ member)
      have different : entry.1 ≠ key := absent entry List.mem_cons_self
      rw [TreeMap.getElem?_insert, if_neg (by simpa using different)] at later
      exact later

/-- What a filled table holds was written, or was there before. -/
theorem mem_of_getElem?_filled {entries : List (Key × Held)} {table : TreeMap Key Held}
    {key : Key} {held : Held} (found : (filled entries table)[key]? = some held) :
    (key, held) ∈ entries ∨ table[key]? = some held := by
  induction entries using List.reverseRecOn with
  | nil => exact .inr found
  | append_singleton entries entry inductionHypothesis =>
      rw [filled_append_singleton, TreeMap.getElem?_insert] at found
      by_cases same : entry.1 = key
      · rw [if_pos (by simpa using same)] at found
        have whole : entry = (key, held) := Prod.ext same (Option.some.inj found)
        exact .inl (by simp [whole])
      · rw [if_neg (by simpa using same)] at found
        exact (inductionHypothesis found).imp_left (List.mem_append_left _)

/-- A key that was written is there. -/
theorem getElem?_filled_of_mem {entries : List (Key × Held)} {table : TreeMap Key Held}
    {key : Key} {held : Held} (member : (key, held) ∈ entries) :
    ∃ last, (filled entries table)[key]? = some last := by
  induction entries using List.reverseRecOn with
  | nil => cases member
  | append_singleton entries entry inductionHypothesis =>
      rw [filled_append_singleton, TreeMap.getElem?_insert]
      by_cases same : entry.1 = key
      · exact ⟨entry.2, if_pos (by simpa using same)⟩
      · rw [if_neg (by simpa using same)]
        rcases List.mem_append.1 member with earlier | final
        · exact inductionHypothesis earlier
        · exact absurd (congrArg Prod.fst (List.mem_singleton.1 final)).symm same

/-- A key holds the value of its last entry. -/
theorem getElem?_filled_eq_getLast? [DecidableEq Key] (entries : List (Key × Held)) (key : Key) :
    (filled entries ∅)[key]? = (entries.filterMap fun entry =>
      if entry.1 = key then some entry.2 else none).getLast? := by
  induction entries using List.reverseRecOn with
  | nil => rfl
  | append_singleton entries entry inductionHypothesis =>
      rw [filled_append_singleton, TreeMap.getElem?_insert, List.filterMap_append]
      by_cases same : entry.1 = key
      · simp [same]
      · simp [same, inductionHypothesis]

/-- Blocks of entries that either leave a key alone or end in the same value for it
end in that value together, if one of them writes it or the table held it before. -/
theorem getElem?_filled_of_blocks {blocks : List (List (Key × Held))}
    {table : TreeMap Key Held} {key : Key} {held : Held}
    (kinds : ∀ block ∈ blocks, (∀ entry ∈ block, entry.1 ≠ key) ∨
      ∀ table : TreeMap Key Held, (filled block table)[key]? = some held)
    (settled : table[key]? = some held ∨
      ∃ block ∈ blocks, ∀ table : TreeMap Key Held, (filled block table)[key]? = some held) :
    (filled blocks.flatten table)[key]? = some held := by
  induction blocks generalizing table with
  | nil => simpa [filled] using settled
  | cons block rest inductionHypothesis =>
      rw [List.flatten_cons, filled_append]
      refine inductionHypothesis (fun other member => kinds other (List.mem_cons_of_mem _ member)) ?_
      rcases kinds block List.mem_cons_self with absent | settles
      · rw [getElem?_filled_of_absent absent]
        rcases settled with before | ⟨other, member, writes⟩
        · exact .inl before
        · rcases List.mem_cons.1 member with rfl | later
          · exact .inl (by rw [← getElem?_filled_of_absent absent, writes])
          · exact .inr ⟨other, later, writes⟩
      · exact .inl (settles table)

end Table

/-- Where only one element of a list gives anything, the list gives what that element does. -/
theorem flatMap_eq_of_alone {Element Given : Type} [DecidableEq Element] {elements : List Element}
    {own : Element} {gives : Element → List Given} (distinct : elements.Nodup)
    (alone : ∀ element, element ≠ own → gives element = []) :
    elements.flatMap gives = if own ∈ elements then gives own else [] := by
  induction elements with
  | nil => rfl
  | cons first rest inductionHypothesis =>
      obtain ⟨fresh, distinct⟩ := List.nodup_cons.1 distinct
      rw [List.flatMap_cons, inductionHypothesis distinct]
      by_cases same : first = own
      · subst same
        simp [fresh]
      · simp [alone first same, Ne.symm same]

namespace Token

/-! ## Findings -/

/-- A key of a ramp gives a color of that ramp, or is refused. -/
theorem findShade_cases (document : Document) (ramp key : String) :
    (∃ rejection, findShade document ramp key = .rejected rejection) ∨
      ∃ level color, findShade document ramp key = .token (Path.color ramp level) (.color color) := by
  rw [findShade]
  cases Level.read? key with
  | none => exact .inl ⟨_, rfl⟩
  | some level =>
      cases (document.leafText? [Path.colorCategory, ramp, key]).bind Color.read? with
      | none => exact .inl ⟨_, rfl⟩
      | some color => exact .inr ⟨level, color, rfl⟩

/-- The tokens that a list of findings gives. -/
def tokensOf (findings : List Finding) : List (Path × Value) := findings.filterMap Finding.token?

/-- The tokens of a ramp and the colors of its levels end in the same color. -/
theorem getElem?_filled_findShade (document : Document) (ramp : String) (level : Level)
    (keys : List String) (table : TreeMap Path Value) :
    (filled (tokensOf (keys.map (findShade document ramp))) table)[Path.color ramp level]? =
      ((filled ((keys.map (findShade document ramp)).filterMap Finding.shade?)
          (∅ : TreeMap Level Color))[level]?.map Value.color).or
        table[Path.color ramp level]? := by
  induction keys using List.reverseRecOn with
  | nil => simp [filled, tokensOf]
  | append_singleton keys key inductionHypothesis =>
      have tokens : tokensOf ((keys ++ [key]).map (findShade document ramp)) =
          tokensOf (keys.map (findShade document ramp)) ++
            (findShade document ramp key).token?.toList := by
        rw [tokensOf, List.map_append, List.filterMap_append]
        cases gives : (findShade document ramp key).token? <;> simp [tokensOf, gives]
      have shades : ((keys ++ [key]).map (findShade document ramp)).filterMap Finding.shade? =
          (keys.map (findShade document ramp)).filterMap Finding.shade? ++
            (findShade document ramp key).shade?.toList := by
        rw [List.map_append, List.filterMap_append]
        cases gives : (findShade document ramp key).shade? <;> simp [gives]
      rw [tokens, shades, filled_append, filled_append]
      rcases findShade_cases document ramp key with ⟨rejection, refused⟩ | ⟨found, color, given⟩
      · rw [refused]
        exact inductionHypothesis
      · rw [given]
        change ((filled _ table).insert (Path.color ramp found) (.color color))[_]? =
          (((filled _ (∅ : TreeMap Level Color)).insert found color)[level]?.map Value.color).or _
        rw [TreeMap.getElem?_insert, TreeMap.getElem?_insert]
        by_cases same : found = level
        · simp [same]
        · have different : Path.color ramp found ≠ Path.color ramp level := by
            simpa [Path.color] using same
          rw [if_neg (by simpa using different), if_neg (by simpa using same)]
          exact inductionHypothesis

/-- A token that a ramp gives is a color of that ramp. -/
theorem key_of_mem_findRamp {document : Document} {ramp : String} {entry : Path × Value}
    (member : entry ∈ tokensOf (findRamp document ramp)) : entry.1.key = ramp := by
  obtain ⟨finding, found, gives⟩ := List.mem_filterMap.1 member
  obtain ⟨key, -, rfl⟩ := List.mem_map.1 found
  rcases findShade_cases document ramp key with ⟨rejection, refused⟩ | ⟨level, color, given⟩
  · rw [refused] at gives
    cases gives
  · rw [given] at gives
    cases gives
    rfl

/-- A token that a leaf gives has the category of the leaf. -/
theorem category_of_findLeaf {category : String} {leaf : Document.Leaf} {entry : Path × Value}
    (gives : (findLeaf category leaf).token? = some entry) : entry.1.category = category := by
  rw [findLeaf] at gives
  cases value : valueOfLeaf category leaf.kind leaf.value with
  | ok value' =>
      simp only [value, Finding.token?, Option.some.injEq] at gives
      rw [← gives]
      rfl
  | error refusal => simp [value, Finding.token?] at gives

/-- What one category gives for a level of a ramp: the color category ends in the
color of the ramp, any other leaves it alone. -/
theorem findCategory_settles {document : Document} {name : String} {level : Level} {color : Color}
    (declared : name ∈ document.keys [Path.colorCategory])
    (held : (rampOf document name).color? level = some color) (category : String) :
    (category ≠ Path.colorCategory ∧
        ∀ entry ∈ tokensOf (findCategory document category), entry.1 ≠ Path.color name level) ∨
      (category = Path.colorCategory ∧ ∀ table : TreeMap Path Value,
        (filled (tokensOf (findCategory document category)) table)[Path.color name level]? =
          some (.color color)) := by
  by_cases colors : category = Path.colorCategory
  · refine .inr ⟨colors, fun table => ?_⟩
    have own (table : TreeMap Path Value) :
        (filled (tokensOf (findRamp document name)) table)[Path.color name level]? =
          some (.color color) := by
      have shades : (filled ((findRamp document name).filterMap Finding.shade?)
          (∅ : TreeMap Level Color))[level]? = some color := held
      rw [findRamp] at shades ⊢
      rw [getElem?_filled_findShade, shades]
      rfl
    have blocks : tokensOf (findCategory document category) =
        ((document.keys [Path.colorCategory]).map fun ramp =>
          tokensOf (findRamp document ramp)).flatten := by
      rw [findCategory, if_pos colors, tokensOf, List.filterMap_flatMap]
      rfl
    rw [blocks]
    refine getElem?_filled_of_blocks ?_ (.inr ⟨_, List.mem_map_of_mem declared, own⟩)
    intro block member
    obtain ⟨ramp, -, rfl⟩ := List.mem_map.1 member
    by_cases same : ramp = name
    · exact .inr (same ▸ own)
    · refine .inl fun entry member equal => same ?_
      rw [← key_of_mem_findRamp member, equal]
      rfl
  · refine .inl ⟨colors, fun entry member equal => colors ?_⟩
    rw [findCategory, if_neg colors] at member
    obtain ⟨finding, found, gives⟩ := List.mem_filterMap.1 member
    obtain ⟨leaf, -, rfl⟩ := List.mem_map.1 found
    rw [← category_of_findLeaf gives, equal]
    rfl

namespace Index

/-! ## The tables of a document -/

theorem values_ofDocument (document : Document) :
    (ofDocument document).values = filled (tokensOf (findings document)) ∅ := rfl

/-- The color of a declared ramp at a level is that of the token. -/
theorem getElem?_values_of_rampOf {document : Document} {name : String} {level : Level}
    {color : Color} (declared : name ∈ document.keys [Path.colorCategory])
    (held : (rampOf document name).color? level = some color) :
    (ofDocument document).values[Path.color name level]? = some (.color color) := by
  have blocks : tokensOf (findings document) =
      ((document.keys []).map fun category => tokensOf (findCategory document category)).flatten := by
    rw [findings, tokensOf, List.filterMap_flatMap]
    rfl
  rw [values_ofDocument, blocks]
  refine getElem?_filled_of_blocks (fun block member => ?_) (.inr ?_)
  · obtain ⟨category, -, rfl⟩ := List.mem_map.1 member
    exact (findCategory_settles declared held category).imp And.right And.right
  · have present : Path.colorCategory ∈ document.keys [] :=
      Document.mem_keys_nil (by decide) declared
    refine ⟨_, List.mem_map_of_mem present, ?_⟩
    rcases findCategory_settles declared held Path.colorCategory with ⟨different, -⟩ | ⟨-, writes⟩
    · exact absurd rfl different
    · exact writes

/-- The ramps of an index are those that the document declares. -/
theorem getElem?_ramps_ofDocument (document : Document) (name : String) :
    (ofDocument document).ramps[name]? =
      if name ∈ document.keys [Path.colorCategory] then some (rampOf document name) else none := by
  have filledRamps : (ofDocument document).ramps =
      filled ((document.keys [Path.colorCategory]).map fun key =>
        (key, rampOf document key)) ∅ := by
    rw [filled, List.foldl_map]
    exact List.foldl_map
  rw [filledRamps]
  split
  · next declared =>
      obtain ⟨ramp, held⟩ := @getElem?_filled_of_mem String Ramp _ _ _ _ ∅ _ _
        (List.mem_map_of_mem (f := fun key => (key, rampOf document key)) declared)
      rcases mem_of_getElem?_filled held with member | before
      · obtain ⟨key, -, equal⟩ := List.mem_map.1 member
        cases equal
        exact held
      · simp at before
  · next undeclared =>
      rw [getElem?_filled_of_absent]
      · simp
      · intro entry member same
        obtain ⟨key, declared, rfl⟩ := List.mem_map.1 member
        exact undeclared (same ▸ declared)

/-- A ramp of the index is one that the document declares. -/
theorem ramp?_ofDocument {document : Document} {name : String} {ramp : Ramp}
    (found : (ofDocument document).ramp? name = some ramp) :
    ramp.name ∈ document.keys [Path.colorCategory] ∧ ramp = rampOf document ramp.name := by
  have table (key : String) (held : (ofDocument document).ramps[key]? = some ramp) :
      ramp.name ∈ document.keys [Path.colorCategory] ∧ ramp = rampOf document ramp.name := by
    rw [getElem?_ramps_ofDocument] at held
    split at held
    · next declared =>
        cases held
        exact ⟨declared, rfl⟩
    · cases held
  rw [ramp?, Option.orElse_eq_or, Option.or_eq_some_iff] at found
  rcases found with direct | ⟨-, aliased⟩
  · exact table name direct
  · obtain ⟨key, -, held⟩ := Option.bind_eq_some_iff.1 aliased
    exact table key held

/-- A ramp is found under its own name as well. -/
theorem ramp?_name {document : Document} {name : String} {ramp : Ramp}
    (found : (ofDocument document).ramp? name = some ramp) :
    (ofDocument document).ramp? ramp.name = some ramp := by
  obtain ⟨declared, same⟩ := ramp?_ofDocument found
  rw [ramp?, getElem?_ramps_ofDocument, if_pos declared, ← same]
  rfl

/-- Every level of a ramp is a token of the ramp's color. -/
theorem getElem?_values_of_ramp {document : Document} {name : String} {ramp : Ramp} {level : Level}
    {color : Color} (found : (ofDocument document).ramp? name = some ramp)
    (held : ramp.color? level = some color) :
    (ofDocument document).values[ramp.path level]? = some (.color color) := by
  obtain ⟨declared, same⟩ := ramp?_ofDocument found
  rw [same] at held
  exact getElem?_values_of_rampOf declared held

/-- A held token with a level is found among the colors of a declared ramp. -/
theorem mem_findRamp_of_held {document : Document} {path : Path} {value : Value} {level : Level}
    (held : (ofDocument document).values[path]? = some value) (leveled : path.level = some level) :
    path.key ∈ document.keys [Path.colorCategory] ∧
      (path, value) ∈ tokensOf (findRamp document path.key) := by
  rw [values_ofDocument] at held
  have member : (path, value) ∈ tokensOf (findings document) :=
    (mem_of_getElem?_filled held).resolve_right (by simp)
  obtain ⟨finding, found, gives⟩ := List.mem_filterMap.1 member
  obtain ⟨category, -, found⟩ := List.mem_flatMap.1 found
  rw [findCategory] at found
  split at found
  · obtain ⟨ramp, declared, own⟩ := List.mem_flatMap.1 found
    have listed : (path, value) ∈ tokensOf (findRamp document ramp) :=
      List.mem_filterMap.2 ⟨finding, own, gives⟩
    have same : path.key = ramp := key_of_mem_findRamp listed
    exact same ▸ ⟨declared, listed⟩
  · obtain ⟨leaf, -, rfl⟩ := List.mem_map.1 found
    rw [findLeaf] at gives
    cases value' : valueOfLeaf category leaf.kind leaf.value with
    | ok value' =>
        simp only [value', Finding.token?, Option.some.injEq, Prod.mk.injEq] at gives
        rw [← gives.1] at leveled
        cases leveled
    | error refusal => simp [value', Finding.token?] at gives

/-- A held token with a level is a color of a declared ramp. -/
theorem mem_keys_of_held {document : Document} {path : Path} {value : Value} {level : Level}
    (held : (ofDocument document).values[path]? = some value) (leveled : path.level = some level) :
    path.key ∈ document.keys [Path.colorCategory] :=
  (mem_findRamp_of_held held leveled).1

/-- A held token with a level is one of the levels of the ramp it names. -/
theorem exists_color?_of_held {document : Document} {path : Path} {value : Value} {level : Level}
    (held : (ofDocument document).values[path]? = some value) (leveled : path.level = some level) :
    ∃ ramp color, (ofDocument document).ramp? path.key = some ramp ∧
      ramp.color? level = some color := by
  obtain ⟨declared, listed⟩ := mem_findRamp_of_held held leveled
  obtain ⟨finding, found, gives⟩ := List.mem_filterMap.1 listed
  have shaded : ∃ color, finding.shade? = some (level, color) := by
    obtain ⟨key, -, rfl⟩ := List.mem_map.1 found
    rcases findShade_cases document path.key key with ⟨rejection, refused⟩ | ⟨own, color, given⟩
    · rw [refused] at gives
      cases gives
    · rw [given] at gives ⊢
      have same : Path.color path.key own = path := congrArg Prod.fst (Option.some.inj gives)
      have own : own = level := Option.some.inj ((congrArg Path.level same).trans leveled)
      exact ⟨color, by rw [own]; rfl⟩
  obtain ⟨color, shade⟩ := shaded
  obtain ⟨last, kept⟩ := @getElem?_filled_of_mem Level Color _ _ _ _ ∅ _ _
    (List.mem_filterMap.2 ⟨finding, found, shade⟩)
  refine ⟨rampOf document path.key, last, ?_, kept⟩
  rw [ramp?, getElem?_ramps_ofDocument, if_pos declared]
  rfl

theorem published_ofDocument (document : Document) :
    (ofDocument document).published =
      filled ((ofDocument document).values.keys.map fun path =>
        (Property.Name.ofToken path, path)) ∅ := by
  rw [filled, List.foldl_map]
  rfl

/-- Every token is published under the name of its property. -/
theorem pathOf?_ofToken {document : Document} {path : Path} {value : Value}
    (held : (ofDocument document).values[path]? = some value) :
    ∃ published, (ofDocument document).pathOf? (Property.Name.ofToken path) = some published := by
  have listed : path ∈ (ofDocument document).values.keys := by
    rw [TreeMap.mem_keys, TreeMap.mem_iff_isSome_getElem?, held]
    rfl
  have member : (Property.Name.ofToken path, path) ∈
      (ofDocument document).values.keys.map fun path => (Property.Name.ofToken path, path) :=
    List.mem_map_of_mem listed
  rw [pathOf?, published_ofDocument]
  exact getElem?_filled_of_mem member

/-- A published name is the name of a token that the index holds. -/
theorem exists_of_pathOf? {document : Document} {name : Property.Name} {path : Path}
    (found : (ofDocument document).pathOf? name = some path) :
    name = Property.Name.ofToken path ∧
      ∃ value, (ofDocument document).values[path]? = some value := by
  rw [pathOf?, published_ofDocument] at found
  obtain ⟨own, listed, equal⟩ :=
    List.mem_map.1 ((mem_of_getElem?_filled found).resolve_right (by simp))
  cases equal
  rw [TreeMap.mem_keys, TreeMap.mem_iff_isSome_getElem?] at listed
  exact ⟨rfl, Option.isSome_iff_exists.1 listed⟩

/-! ## Lookups -/

variable {index : Index}

/-- The listed tokens are the ones that are looked up. -/
theorem mem_tokens (index : Index) (path : Path) (value : Value) :
    (path, value) ∈ index.tokens ↔ index.values[path]? = some value :=
  TreeMap.mem_toList_iff_getElem?_eq_some

/-- A canonical path is the path of a token. -/
theorem exists_of_canonicalize? {path canonical : Path}
    (found : index.canonicalize? path = some canonical) :
    ∃ value, index.values[canonical]? = some value := by
  rw [← Option.isSome_iff_exists, ← TreeMap.mem_iff_isSome_getElem?]
  rw [canonicalize?] at found
  split at found
  · next direct =>
      cases found
      exact direct
  · split at found
    · obtain ⟨ramp, -, inner⟩ := Option.bind_eq_some_iff.1 found
      simp only at inner
      split at inner
      · next held =>
          cases inner
          exact held
      · cases inner
    · cases found

/-- The path of a token is canonical. -/
theorem canonicalize?_of_held {path : Path} {value : Value}
    (held : index.values[path]? = some value) : index.canonicalize? path = some path := by
  rw [canonicalize?, if_pos]
  rw [TreeMap.mem_iff_isSome_getElem?, held]
  rfl

/-- A level of a ramp is addressed by any name of the ramp. -/
theorem canonicalize?_of_ramp? {document : Document} {name : String} {ramp : Ramp} {level : Level}
    {color : Color} (found : (ofDocument document).ramp? name = some ramp)
    (held : ramp.color? level = some color) :
    (ofDocument document).canonicalize? (Path.color name level) = some (ramp.path level) := by
  have own := getElem?_values_of_ramp found held
  rw [ramp?, getElem?_ramps_ofDocument] at found
  split at found
  · cases found
    exact canonicalize?_of_held own
  · next undeclared =>
      obtain ⟨key, aliased, direct⟩ := Option.bind_eq_some_iff.1 found
      rw [getElem?_ramps_ofDocument] at direct
      split at direct
      · cases direct
        have absent : Path.color name level ∉ (ofDocument document).values := by
          rw [TreeMap.mem_iff_isSome_getElem?, Option.isSome_iff_exists]
          rintro ⟨value, other⟩
          exact undeclared (mem_keys_of_held other rfl)
        have present : (rampOf document key).path level ∈ (ofDocument document).values := by
          rw [TreeMap.mem_iff_isSome_getElem?, own]
          rfl
        have colored : (Path.color name level).isColor = true := beq_self_eq_true _
        have byAlias : (ofDocument document).aliases[(Path.color name level).key]? = some key :=
          aliased
        rw [canonicalize?, if_neg absent, if_pos colored, byAlias]
        exact if_pos present
      · cases direct

/-- The path of a token leads to what the token holds. -/
theorem get?_of_held {path : Path} {value : Value} (held : index.values[path]? = some value) :
    index.get? path = some value := by
  rw [get?, canonicalize?_of_held held]
  exact held

/-- The token that is found for a color holds it. -/
theorem getElem?_of_findColor? {color : Color} {path : Path}
    (found : index.findColor? color = some path) :
    index.values[path]? = some (.color color) := by
  obtain ⟨⟨path', value⟩, first, rfl⟩ := Option.map_eq_some_iff.1 found
  have equal : value = .color color := by simpa using List.find?_some first
  rw [← equal]
  exact (mem_tokens index path' value).1 (List.mem_of_find?_eq_some first)

/-- Where no token is found for a color, none holds it. -/
theorem ne_color_of_findColor? {color : Color} {path : Path} {value : Value}
    (missing : index.findColor? color = none) (held : index.values[path]? = some value) :
    value ≠ .color color := by
  rw [findColor?, Option.map_eq_none_iff, List.find?_eq_none] at missing
  simpa using missing (path, value) ((mem_tokens index path value).2 held)

/-- The token that is found for a number holds it. -/
theorem exists_of_findNumber? {amount : Float} {dimension : Bool} {path : Path}
    (found : index.findNumber? amount dimension = some path) :
    ∃ value, index.values[path]? = some value ∧ holdsNumber amount dimension value = true := by
  obtain ⟨⟨path', value⟩, first, rfl⟩ := Option.map_eq_some_iff.1 found
  have holds : holdsNumber amount dimension value = true := by simpa using List.find?_some first
  exact ⟨value, (mem_tokens index path' value).1 (List.mem_of_find?_eq_some first), holds⟩

/-- Where no token is found for a number, none holds it. -/
theorem holdsNumber_of_findNumber? {amount : Float} {dimension : Bool} {path : Path} {value : Value}
    (missing : index.findNumber? amount dimension = none)
    (held : index.values[path]? = some value) : holdsNumber amount dimension value = false := by
  rw [findNumber?, Option.map_eq_none_iff, List.find?_eq_none] at missing
  simpa using missing (path, value) ((mem_tokens index path value).2 held)

end Index

end Token

namespace Resolver

variable {resolver : Resolver}

/-- A reference that leads to a token leads to a token of the index. -/
theorem exists_of_follow {remaining : Nat} {seen : List (Mode × Site)} {reference : Reference}
    {path : Token.Path} (found : resolver.follow remaining seen reference = .ok (.token path)) :
    ∃ value, resolver.index.values[path]? = some value := by
  fun_induction resolver.follow remaining seen reference with
  | case1 _ _ start canonical held =>
      cases found
      exact Token.Index.exists_of_canonicalize? held
  | case9 _ _ _ _ _ _ _ _ inductionHypothesis => exact inductionHypothesis found
  | _ => cases found

theorem exists_of_resolveToken {reference : Reference} {path : Token.Path}
    (found : resolver.resolveToken reference = .ok path) :
    ∃ value, resolver.index.values[path]? = some value := by
  rw [resolveToken] at found
  cases target : resolver.resolve reference with
  | error error => simp [target] at found
  | ok target' =>
      cases target' with
      | ramp name => simp [target] at found
      | token path' =>
          simp only [target, Except.ok.injEq] at found
          rw [← found]
          exact exists_of_follow target

/-- A level of a palette is the same level of the ramp that the palette names. -/
theorem cases_of_step_palette {mode : Mode} {key : String} {written : Option Token.Level}
    {next : Reference}
    (stepped : resolver.step mode (.palette key written) = .ok next) :
    ∃ name level, resolver.binding (palettePath mode key) = .ok (.ramp name) ∧
      (written.orElse fun _ => (resolver.primaryText? mode key).bind Token.Level.read?) =
        some level ∧
      next = .token (Token.Path.color name level) := by
  rw [step] at stepped
  cases bound : resolver.binding (palettePath mode key) with
  | error error =>
      rw [bound] at stepped
      cases stepped
  | ok reference =>
      rw [bound] at stepped
      cases reference with
      | ramp name =>
          cases meant : (written.orElse fun _ =>
              (resolver.primaryText? mode key).bind Token.Level.read?) with
          | none =>
              have missing : resolver.paletteLevel mode key written =
                  .error (.missingBinding (palettePath mode key ++ ["$primary"])) := by
                rw [paletteLevel, meant]
              simp only [bind, Except.bind, missing] at stepped
              cases stepped
          | some level =>
              have found : resolver.paletteLevel mode key written = .ok level := by
                rw [paletteLevel, meant]
              simp only [bind, Except.bind, found] at stepped
              cases stepped
              exact ⟨name, level, rfl, rfl, rfl⟩
      | token path => cases stepped
      | site place site => cases stepped
      | property subsystem path => cases stepped
      | unrecognized text => cases stepped

end Resolver

end Legible
