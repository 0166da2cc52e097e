import Legible.Proofs.Live.Evaluation
import Legible.Proofs.Property.Name
import Legible.Proofs.Token.Index

/-!
# Setting a token

A token of a document is a level of a ramp or a leaf of another category. When its value is
set, the index holds every other token as before, and whatever one place alone gave, one
place alone still gives.
-/

namespace Legible

open Std

/-- Tables that are filled with the same entries for a key hold the same for it. -/
theorem getElem?_filled_congr {Key Held : Type} [Ord Key] [TransOrd Key] [LawfulEqOrd Key]
    [DecidableEq Key] {entries other : List (Key × Held)} {key : Key}
    (same : (entries.filter fun entry => decide (entry.1 = key)) =
      other.filter fun entry => decide (entry.1 = key)) :
    (filled entries ∅)[key]? = (filled other ∅)[key]? := by
  have own (entries : List (Key × Held)) : (filled entries ∅)[key]? =
      (filled (entries.filter fun entry => decide (entry.1 = key)) ∅)[key]? := by
    induction entries using List.reverseRecOn with
    | nil => rfl
    | append_singleton entries entry inductionHypothesis =>
        rw [List.filter_append, filled_append_singleton, TreeMap.getElem?_insert]
        by_cases hit : entry.1 = key
        · rw [List.filter_cons_of_pos (by simpa using hit), List.filter_nil,
            filled_append_singleton, TreeMap.getElem?_insert]
          simp [hit]
        · rw [if_neg (by simpa using hit), List.filter_cons_of_neg (by simpa using hit),
            List.filter_nil, List.append_nil]
          exact inductionHypothesis
  rw [own entries, own other, same]

namespace Token

variable {document : Document}

theorem tokensOf_findings (document : Document) :
    tokensOf (findings document) =
      (document.keys []).flatMap fun category => tokensOf (findCategory document category) := by
  rw [findings, tokensOf, List.filterMap_flatMap]
  rfl

theorem tokensOf_findCategory_color (document : Document) :
    tokensOf (findCategory document Path.colorCategory) =
      (document.keys [Path.colorCategory]).flatMap fun ramp =>
        tokensOf (findRamp document ramp) := by
  rw [findCategory, if_pos rfl, tokensOf, List.filterMap_flatMap]
  rfl

theorem tokensOf_findRamp (document : Document) (ramp : String) :
    tokensOf (findRamp document ramp) =
      (document.keys [Path.colorCategory, ramp]).filterMap fun key =>
        (findShade document ramp key).token? := by
  rw [findRamp, tokensOf, List.filterMap_map]
  rfl

theorem tokensOf_findCategory {category : String} (other : category ≠ Path.colorCategory) :
    tokensOf (findCategory document category) =
      (document.leaves [category]).filterMap fun leaf => (findLeaf category leaf).token? := by
  rw [findCategory, if_neg other, tokensOf, List.filterMap_map]
  rfl

/-- The token that a key of a ramp gives has the level that the key spells. -/
theorem level_of_findShade {ramp key : String} {entry : Path × Value}
    (gives : (findShade document ramp key).token? = some entry) :
    ∃ level, Level.read? key = some level ∧ entry.1 = Path.color ramp level := by
  rw [findShade] at gives
  cases spelled : Level.read? key with
  | none =>
      rw [spelled] at gives
      cases gives
  | some level =>
      rw [spelled] at gives
      dsimp only at gives
      split at gives
      · cases gives
        exact ⟨level, rfl, rfl⟩
      · cases gives

/-- The token that a leaf gives, and why. -/
theorem findLeaf_token?_eq_some {category : String} {leaf : Document.Leaf} {entry : Path × Value} :
    (findLeaf category leaf).token? = some entry ↔
      entry.1 = leafPath category leaf ∧
        valueOfLeaf category leaf.kind leaf.value = .ok entry.2 := by
  rw [findLeaf]
  cases valueOfLeaf category leaf.kind leaf.value with
  | ok value =>
      simp only [Finding.token?, Option.some.injEq, Except.ok.injEq]
      constructor
      · rintro rfl
        exact ⟨rfl, rfl⟩
      · rintro ⟨path, held⟩
        exact Prod.ext path.symm held
  | error refusal => simp [Finding.token?]

/-- The address that a leaf gives depends on its place alone. -/
theorem leafPath_congr {category : String} {leaf other : Document.Leaf}
    (same : leaf.path = other.path) : leafPath category leaf = leafPath category other := by
  rw [leafPath, leafPath, same]

/-- The tokens that a category gives are in the category. -/
theorem category_of_mem_findCategory {category : String} {entry : Path × Value}
    (member : entry ∈ tokensOf (findCategory document category)) : entry.1.category = category := by
  by_cases colors : category = Path.colorCategory
  · rw [colors, tokensOf_findCategory_color] at member
    obtain ⟨ramp, -, member⟩ := List.mem_flatMap.1 member
    rw [tokensOf_findRamp] at member
    obtain ⟨key, -, gives⟩ := List.mem_filterMap.1 member
    obtain ⟨level, -, named⟩ := level_of_findShade gives
    rw [named, colors]
    rfl
  · rw [tokensOf_findCategory colors] at member
    obtain ⟨leaf, -, gives⟩ := List.mem_filterMap.1 member
    exact category_of_findLeaf gives

/-- How a document gives a token. -/
inductive Gives (document : Document) : Path → Value → Prop where
  /-- A key of a ramp spells the level of a color. -/
  | shade {ramp key : String} {level : Level} {color : Color}
      (declared : ramp ∈ document.keys [Path.colorCategory])
      (listed : key ∈ document.keys [Path.colorCategory, ramp])
      (spelled : Level.read? key = some level) :
      Gives document (Path.color ramp level) (.color color)
  /-- A leaf of another category holds the value. -/
  | leaf {category : String} {leaf : Document.Leaf} {value : Value}
      (other : category ≠ Path.colorCategory) (declared : category ∈ document.keys [])
      (listed : leaf ∈ document.leaves [category])
      (taken : valueOfLeaf category leaf.kind leaf.value = .ok value) :
      Gives document (leafPath category leaf) value

/-- Every token of an index is given by its document. -/
theorem gives_of_held {path : Path} {value : Value}
    (held : (Index.ofDocument document).values[path]? = some value) :
    Gives document path value := by
  rw [Index.values_ofDocument, tokensOf_findings] at held
  have member := (mem_of_getElem?_filled held).resolve_right (by simp)
  obtain ⟨category, declared, member⟩ := List.mem_flatMap.1 member
  by_cases colors : category = Path.colorCategory
  · rw [colors, tokensOf_findCategory_color] at member
    obtain ⟨ramp, listed, member⟩ := List.mem_flatMap.1 member
    rw [tokensOf_findRamp] at member
    obtain ⟨key, below, gives⟩ := List.mem_filterMap.1 member
    obtain ⟨level, spelled, named⟩ := level_of_findShade gives
    rcases findShade_cases document ramp key with ⟨rejection, refused⟩ | ⟨_, color, given⟩
    · rw [refused] at gives
      cases gives
    · rw [given] at gives
      cases gives
      dsimp only at named
      rw [named]
      exact .shade listed below spelled
  · rw [tokensOf_findCategory colors] at member
    obtain ⟨leaf, listed, gives⟩ := List.mem_filterMap.1 member
    obtain ⟨named, taken⟩ := findLeaf_token?_eq_some.1 gives
    dsimp only at named taken
    rw [named]
    exact .leaf colors declared listed taken

/-- Whether one place alone of a document gives a token: one key of a ramp, or one
leaf. -/
structure GivenOnce (document : Document) (path : Path) : Prop where
  shade : ∀ ramp level, path = Path.color ramp level →
    ∀ key ∈ document.keys [Path.colorCategory, ramp],
      ∀ other ∈ document.keys [Path.colorCategory, ramp],
        Level.read? key = some level → Level.read? other = some level → key = other
  leaf : path.category ≠ Path.colorCategory → ∀ leaf ∈ document.leaves [path.category],
    ∀ other ∈ document.leaves [path.category],
      leafPath path.category leaf = path → leafPath path.category other = path → leaf = other

/-- The aliases of an index come from the ramps of its document. -/
theorem aliases_congr {before after : Document}
    (keys : after.keys [Path.colorCategory] = before.keys [Path.colorCategory])
    (described : ∀ ramp, after.get? [Path.colorCategory, ramp, "$alias"] =
      before.get? [Path.colorCategory, ramp, "$alias"]) :
    (Index.ofDocument after).aliases = (Index.ofDocument before).aliases := by
  have own (ramp : String) : (rampOf after ramp).aliasName = (rampOf before ramp).aliasName :=
    congrArg (Option.bind · Json.text?) (described ramp)
  unfold Index.ofDocument
  dsimp only
  rw [List.foldl_map, List.foldl_map, keys]
  refine congrArg (fun step => List.foldl step ∅ _) (funext fun kept => funext fun ramp => ?_)
  rw [own]
  rfl

/-- A document in which one token was set. -/
structure IsSet (before after : Document) (path : Path) : Prop where
  unique : after.root.UniqueKeys
  others : ∀ other, other ≠ path →
    (Index.ofDocument after).values[other]? = (Index.ofDocument before).values[other]?
  once : ∀ other, other ≠ path → GivenOnce before other → GivenOnce after other
  aliases : (Index.ofDocument after).aliases = (Index.ofDocument before).aliases

/-- Setting a token adds no token. -/
theorem IsSet.exists_held {before after : Document} {path other : Path} {held value : Value}
    (set : IsSet before after path) (present : (Index.ofDocument before).values[path]? = some held)
    (found : (Index.ofDocument after).values[other]? = some value) :
    ∃ value, (Index.ofDocument before).values[other]? = some value := by
  by_cases same : other = path
  · exact ⟨held, same ▸ present⟩
  · rw [set.others other same] at found
    exact ⟨value, found⟩

/-- An address of another token that leads somewhere led there before. -/
theorem IsSet.canonicalize? {before after : Document} {path other canonical : Path} {held : Value}
    (set : IsSet before after path) (present : (Index.ofDocument before).values[path]? = some held)
    (different : other ≠ path)
    (leads : (Index.ofDocument after).canonicalize? other = some canonical) :
    (Index.ofDocument before).canonicalize? other = some canonical := by
  have same : other ∈ (Index.ofDocument after).values ↔
      other ∈ (Index.ofDocument before).values := by
    rw [TreeMap.mem_iff_isSome_getElem?, TreeMap.mem_iff_isSome_getElem?,
      set.others other different]
  rw [Index.canonicalize?, set.aliases] at leads
  rw [Index.canonicalize?]
  split at leads
  · next direct => rwa [if_pos (same.1 direct)]
  · next absent =>
      rw [if_neg fun direct => absent (same.2 direct)]
      split at leads
      · next color =>
          rw [if_pos color]
          obtain ⟨ramp, named, inner⟩ := Option.bind_eq_some_iff.1 leads
          refine Option.bind_eq_some_iff.2 ⟨ramp, named, ?_⟩
          dsimp only at inner ⊢
          split at inner
          · next there =>
              rw [TreeMap.mem_iff_isSome_getElem?, Option.isSome_iff_exists] at there
              obtain ⟨value, there⟩ := there
              rw [if_pos]
              · exact inner
              · rw [TreeMap.mem_iff_isSome_getElem?, Option.isSome_iff_exists]
                exact set.exists_held present there
          · cases inner
      · cases leads

/-! ## Setting a level of a ramp -/

/-- A level leads to a child. -/
theorem Level.isMetadata_text (level : Level) : Document.isMetadata level.text = false := by
  rw [Document.isMetadata]
  cases begins : level.text.toList with
  | nil => rfl
  | cons first rest =>
      have digit : first.isDigit = true := level.isDigit_of_mem_text (by simp [begins])
      rw [List.head?_cons]
      refine beq_eq_false_iff_ne.2 fun same => ?_
      rw [Option.some.inj same] at digit
      exact absurd digit (by decide)

section Level

variable {ramp : String} {level : Level} {color : Color} {value : Json}

/-- The document with a value for a level of a ramp. -/
def setLevel (document : Document) (ramp : String) (level : Level) (value : Json) : Document :=
  document.setLeaf (Path.color ramp level).segments value

theorem get?_setLevel_of_apart {path : List String}
    (apart : ¬ [Path.colorCategory, ramp, level.text, "$value"] <+: path)
    (apart' : ¬ path <+: [Path.colorCategory, ramp, level.text, "$value"]) :
    (setLevel document ramp level value).get? path = document.get? path :=
  Document.get?_setLeaf_of_apart apart apart'

theorem keys_setLevel (declared : ramp ∈ document.keys [Path.colorCategory]) :
    (setLevel document ramp level value).keys [] = document.keys [] ∧
      (setLevel document ramp level value).keys [Path.colorCategory] =
        document.keys [Path.colorCategory] := by
  constructor
  · refine (Document.keys_setLeaf [] Path.colorCategory [ramp, level.text] _
      (by decide)).trans (if_pos (Document.mem_keys_nil (by decide) declared))
  · exact (Document.keys_setLeaf [Path.colorCategory] ramp [level.text] _
      (Document.isMetadata_of_mem_keys declared)).trans (if_pos declared)

theorem keys_ramp_setLevel :
    (setLevel document ramp level value).keys [Path.colorCategory, ramp] =
      if level.text ∈ document.keys [Path.colorCategory, ramp] then
        document.keys [Path.colorCategory, ramp]
      else document.keys [Path.colorCategory, ramp] ++ [level.text] :=
  Document.keys_setLeaf [Path.colorCategory, ramp] level.text [] _ level.isMetadata_text

theorem leaves_setLevel {category : String} (other : category ≠ Path.colorCategory) :
    (setLevel document ramp level value).leaves [category] = document.leaves [category] := by
  have same : (setLevel document ramp level value).get? [category] = document.get? [category] :=
    get?_setLevel_of_apart (by simp [List.cons_prefix_cons]) (by simp [List.cons_prefix_cons, other])
  rw [Document.leaves, same]
  rfl

theorem findCategory_setLevel {category : String} (other : category ≠ Path.colorCategory) :
    findCategory (setLevel document ramp level value) category = findCategory document category := by
  rw [findCategory, findCategory, if_neg other, if_neg other, leaves_setLevel other]

theorem get?_ramp_setLevel {other : String} (different : other ≠ ramp) (tail : List String) :
    (setLevel document ramp level value).get? (Path.colorCategory :: other :: tail) =
      document.get? (Path.colorCategory :: other :: tail) :=
  get?_setLevel_of_apart (by simp [List.cons_prefix_cons, different.symm])
    (by simp [List.cons_prefix_cons, different])

theorem findRamp_setLevel {other : String} (different : other ≠ ramp) :
    findRamp (setLevel document ramp level value) other = findRamp document other := by
  have shade (key : String) : findShade (setLevel document ramp level value) other key =
      findShade document other key := by
    simp only [findShade, Document.leafText?, Document.leafValue?, get?_ramp_setLevel different]
  rw [findRamp, findRamp, Document.keys, get?_ramp_setLevel different, funext shade]
  rfl

theorem findShade_setLevel_of_ne {key : String} (different : key ≠ level.text) :
    findShade (setLevel document ramp level value) ramp key = findShade document ramp key := by
  have same : (setLevel document ramp level value).get? [Path.colorCategory, ramp, key] =
      document.get? [Path.colorCategory, ramp, key] :=
    get?_setLevel_of_apart (by simp [List.cons_prefix_cons])
      (by simp [List.cons_prefix_cons, different])
  simp only [findShade, Document.leafText?, Document.leafValue?, same]

theorem findShade_setLevel_self (spelled : value.text?.bind Color.read? = some color) :
    findShade (setLevel document ramp level value) ramp level.text =
      .token (Path.color ramp level) (.color color) := by
  have text : (setLevel document ramp level value).leafText?
      [Path.colorCategory, ramp, level.text] = value.text? :=
    Document.leafText?_setLeaf _ _
  rw [findShade, Level.read?_text]
  dsimp only
  rw [text, spelled]

/-- What a ramp gives for any other token stays. -/
theorem filter_findRamp_setLevel {other : Path} (different : other ≠ Path.color ramp level) :
    ((tokensOf (findRamp (setLevel document ramp level value) ramp)).filter
        fun entry => decide (entry.1 = other)) =
      (tokensOf (findRamp document ramp)).filter fun entry => decide (entry.1 = other) := by
  have own (document : Document) :
      ((findShade document ramp level.text).token?.filter fun entry => decide (entry.1 = other)) =
        none := by
    rw [Option.filter_eq_none_iff]
    intro entry gives
    obtain ⟨spelled, read, named⟩ := level_of_findShade gives
    rw [Level.read?_text] at read
    cases read
    simpa [named] using different.symm
  have shade (key : String) :
      ((findShade (setLevel document ramp level value) ramp key).token?.filter
          fun entry => decide (entry.1 = other)) =
        (findShade document ramp key).token?.filter fun entry => decide (entry.1 = other) := by
    by_cases same : key = level.text
    · rw [same, own, own]
    · rw [findShade_setLevel_of_ne same]
  rw [tokensOf_findRamp, tokensOf_findRamp, List.filter_filterMap, List.filter_filterMap]
  simp only [shade]
  rw [keys_ramp_setLevel]
  split
  · rfl
  · simp [List.filterMap_append, own]

/-- The index holds every other token as before. -/
theorem getElem?_values_setLevel_of_ne (declared : ramp ∈ document.keys [Path.colorCategory])
    {other : Path} (different : other ≠ Path.color ramp level) :
    (Index.ofDocument (setLevel document ramp level value)).values[other]? =
      (Index.ofDocument document).values[other]? := by
  obtain ⟨root, ramps⟩ := @keys_setLevel document ramp level value declared
  rw [Index.values_ofDocument, Index.values_ofDocument]
  refine getElem?_filled_congr ?_
  rw [tokensOf_findings, tokensOf_findings, List.filter_flatMap, List.filter_flatMap, root]
  refine congrArg (List.flatMap · _) (funext fun category => ?_)
  by_cases colors : category = Path.colorCategory
  · rw [colors, tokensOf_findCategory_color, tokensOf_findCategory_color, List.filter_flatMap,
      List.filter_flatMap, ramps]
    refine congrArg (List.flatMap · _) (funext fun name => ?_)
    by_cases same : name = ramp
    · rw [same]
      exact filter_findRamp_setLevel different
    · rw [findRamp_setLevel same]
  · rw [findCategory_setLevel colors]

theorem isSet_setLevel (unique : document.root.UniqueKeys) (placed : value.UniqueKeys)
    (declared : ramp ∈ document.keys [Path.colorCategory]) :
    IsSet document (setLevel document ramp level value) (Path.color ramp level) where
  unique := unique.place placed
  others other different := getElem?_values_setLevel_of_ne declared different
  aliases := by
    have metadata : "$alias" ≠ level.text := fun same => by
      have child := level.isMetadata_text
      rw [← same] at child
      exact absurd child (by decide)
    exact aliases_congr (keys_setLevel declared).2 fun name =>
      get?_setLevel_of_apart (by simp [List.cons_prefix_cons])
        (by simp [List.cons_prefix_cons, metadata])
  once other different once :=
    { shade := fun name level' named key listed key' listed' spelled spelled' => by
        have before {key : String} (spelled : Level.read? key = some level')
            (listed : key ∈ (setLevel document ramp level value).keys [Path.colorCategory, name]) :
            key ∈ document.keys [Path.colorCategory, name] := by
          by_cases same : name = ramp
          · rw [same, keys_ramp_setLevel] at listed
            split at listed
            · exact same ▸ listed
            · rcases List.mem_append.1 listed with own | final
              · exact same ▸ own
              · rw [List.mem_singleton.1 final, Level.read?_text] at spelled
                cases spelled
                exact absurd (named.trans (congrArg (Path.color · level) same)) different
          · rwa [Document.keys, get?_ramp_setLevel same] at listed
        exact once.shade name level' named key (before spelled listed) key'
          (before spelled' listed') spelled spelled'
      leaf := fun notColor => by
        rw [leaves_setLevel notColor]
        exact once.leaf notColor }

end Level

/-! ## Setting a leaf of another category -/

section Leaf

variable {category : String} {leaf : Document.Leaf} {value : Json}

/-- A leaf below another category leaves a category alone. -/
theorem get?_setLeaf_of_category {first : String} {tail : List String}
    (listed : leaf ∈ document.leaves [category]) (different : first ≠ category) :
    (document.setLeaf leaf.path value).get? (first :: tail) = document.get? (first :: tail) := by
  obtain ⟨rest, stands, -⟩ := Document.exists_of_mem_leaves listed
  rw [stands]
  exact Document.get?_setLeaf_of_apart (by simp [List.cons_prefix_cons, different.symm])
    (by simp [List.cons_prefix_cons, different])

theorem keys_setLeaf (declared : category ∈ document.keys [])
    (listed : leaf ∈ document.leaves [category]) :
    (document.setLeaf leaf.path value).keys [] = document.keys [] := by
  obtain ⟨rest, stands, -⟩ := Document.exists_of_mem_leaves listed
  rw [stands]
  exact (Document.keys_setLeaf [] category rest value (Document.isMetadata_of_mem_keys declared)).trans
    (if_pos declared)

theorem findCategory_setLeaf {other : String} (listed : leaf ∈ document.leaves [category])
    (different : other ≠ category) :
    findCategory (document.setLeaf leaf.path value) other = findCategory document other := by
  have same (tail : List String) := @get?_setLeaf_of_category document category leaf value other
    tail listed different
  by_cases colors : other = Path.colorCategory
  · rw [findCategory, findCategory, if_pos colors, if_pos colors, Document.keys, ← colors, same]
    refine congrArg (List.flatMap · _) (funext fun ramp => ?_)
    rw [findRamp, findRamp, Document.keys, ← colors, same]
    refine congrArg (List.map · _) (funext fun key => ?_)
    simp only [findShade, Document.leafText?, Document.leafValue?, ← colors, same]
  · rw [findCategory, findCategory, if_neg colors, if_neg colors, Document.leaves, same]
    rfl

/-- The index holds every other token as before. -/
theorem getElem?_values_setLeaf_of_ne (unique : document.root.UniqueKeys)
    (declared : category ∈ document.keys []) (notColor : category ≠ Path.colorCategory)
    (listed : leaf ∈ document.leaves [category]) {other : Path}
    (different : other ≠ leafPath category leaf) :
    (Index.ofDocument (document.setLeaf leaf.path value)).values[other]? =
      (Index.ofDocument document).values[other]? := by
  rw [Index.values_ofDocument, Index.values_ofDocument]
  refine getElem?_filled_congr ?_
  rw [tokensOf_findings, tokensOf_findings, List.filter_flatMap, List.filter_flatMap,
    keys_setLeaf declared listed]
  refine congrArg (List.flatMap · _) (funext fun name => ?_)
  by_cases same : name = category
  · rw [same, tokensOf_findCategory notColor, tokensOf_findCategory notColor,
      Document.leaves_setLeaf value unique listed, List.filterMap_map, List.filter_filterMap,
      List.filter_filterMap]
    refine congrArg (List.filterMap · _) (funext fun own => ?_)
    by_cases place : own.path = leaf.path
    · have none (value : Json) : ((findLeaf category { own with value }).token?.filter
          fun entry => decide (entry.1 = other)) = none := by
        rw [Option.filter_eq_none_iff]
        intro entry gives
        obtain ⟨named, -⟩ := findLeaf_token?_eq_some.1 gives
        rw [@leafPath_congr category { own with value } leaf place] at named
        simpa [named] using different.symm
      simp only [Function.comp_apply, Document.Leaf.reset, if_pos place]
      rw [none, none own.value]
    · simp only [Function.comp_apply, Document.Leaf.reset_of_ne place]
  · rw [findCategory_setLeaf listed same]

theorem isSet_setLeaf (unique : document.root.UniqueKeys) (placed : value.UniqueKeys)
    (declared : category ∈ document.keys []) (notColor : category ≠ Path.colorCategory)
    (listed : leaf ∈ document.leaves [category]) :
    IsSet document (document.setLeaf leaf.path value) (leafPath category leaf) where
  unique := unique.place placed
  others other different :=
    getElem?_values_setLeaf_of_ne unique declared notColor listed different
  aliases := by
    have same (tail : List String) := @get?_setLeaf_of_category document category leaf value
      Path.colorCategory tail listed notColor.symm
    refine aliases_congr ?_ fun ramp => same _
    rw [Document.keys, Document.keys, same]
  once other different once :=
    { shade := fun ramp level named => by
        rw [Document.keys, get?_setLeaf_of_category listed notColor.symm]
        exact once.shade ramp level named
      leaf := fun others => by
        by_cases same : other.category = category
        · rw [same] at others ⊢
          have before {own : Document.Leaf} (given : own ∈ (document.setLeaf leaf.path value).leaves
              [category]) (named : leafPath category own = other) :
              own ∈ document.leaves [category] := by
            rw [Document.leaves_setLeaf value unique listed] at given
            obtain ⟨found, among, rfl⟩ := List.mem_map.1 given
            rw [Document.Leaf.reset_of_ne]
            · exact among
            · intro place
              rw [leafPath_congr (found.path_reset leaf.path value), leafPath_congr place] at named
              exact different named.symm
          intro first given second given' named named'
          have own := once.leaf (same ▸ others)
          rw [same] at own
          exact own first (before given named) second (before given' named') named named'
        · rw [Document.leaves, get?_setLeaf_of_category listed same]
          exact once.leaf others }

end Leaf

end Token

end Legible
