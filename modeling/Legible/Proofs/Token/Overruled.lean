import Mathlib.Data.List.Nodup
import Legible.Proofs.Document.Listing
import Legible.Proofs.Token.Edit
import Legible.Proofs.Watch.Run

/-!
# Tokens with more than one place

Two keys of a ramp can spell one level, and the keys of two leaves can come to the same
when they are joined. The index holds what the last of these places gives, but a token is
set in one place: a level under its padded key, any other token at the first leaf. So the
index holds the value that was set, unless a place behind gives the token another one.
-/

namespace Legible

open Std

namespace Token

variable {document : Document} {path : Path} {json : Json} {value : Value}

/-! ## The places of a token -/

/-- The leaf at which a token outside the color category is set: the first one that gives
its key. -/
def leaf? (document : Document) (path : Path) : Option Document.Leaf :=
  (document.leaves [path.category]).find? fun leaf =>
    (leafPath path.category leaf).key == path.key

/-- A leaf that gives a token is found by the address of the token. -/
theorem exists_leaf? {category : String} {leaf : Document.Leaf}
    (other : category ≠ Path.colorCategory) (listed : leaf ∈ document.leaves [category]) :
    ∃ found ∈ document.leaves [category], leafPath category found = leafPath category leaf ∧
      leaf? document (leafPath category leaf) = some found ∧
      Watcher.tokenDocumentPath document (leafPath category leaf) = found.path := by
  have plain : (leafPath category leaf).isColor = false := beq_eq_false_iff_ne.2 other
  have own : (leaf? document (leafPath category leaf)).isSome :=
    List.find?_isSome.2 ⟨leaf, listed, beq_self_eq_true _⟩
  obtain ⟨found, first⟩ := Option.isSome_iff_exists.1 own
  have hit := List.find?_some first
  have same : (leafPath category found).key = (leafPath category leaf).key := eq_of_beq hit
  refine ⟨found, List.mem_of_find?_eq_some first, congrArg (Path.plain category) same, first, ?_⟩
  rw [Watcher.tokenDocumentPath, plain, if_neg (by decide)]
  change ((leaf? document (leafPath category leaf)).map _).getD _ = _
  rw [first]
  rfl

/-- The value that a finding gives for an address. -/
def Finding.valueFor? (path : Path) (finding : Finding) : Option Value :=
  finding.token?.bind fun entry => if entry.1 = path then some entry.2 else none

/-- The places where a document can give an address, in the order of the index: the keys
of the ramp, or the leaves of another category. -/
def placesOf (document : Document) (path : Path) : List (List String × Finding) :=
  if path.isColor then
    (document.keys [Path.colorCategory, path.key]).map fun key =>
      ([Path.colorCategory, path.key, key], findShade document path.key key)
  else (document.leaves [path.category]).map fun leaf => (leaf.path, findLeaf path.category leaf)

theorem placesOf_color (document : Document) (ramp : String) (level : Level) :
    placesOf document (.color ramp level) =
      (document.keys [Path.colorCategory, ramp]).map fun key =>
        ([Path.colorCategory, ramp, key], findShade document ramp key) := if_pos rfl

theorem placesOf_plain (document : Document) (other : path.isColor = false) :
    placesOf document path = (document.leaves [path.category]).map fun leaf =>
      (leaf.path, findLeaf path.category leaf) := if_neg (by simp [other])

/-- The values that places give for an address. -/
def valuesAt (path : Path) (places : List (List String × Finding)) : List Value :=
  places.filterMap fun place => place.2.valueFor? path

/-- The places that are listed behind a place. -/
def behind (place : List String) (places : List (List String × Finding)) :
    List (List String × Finding) :=
  (places.dropWhile fun other => other.1 ≠ place).tail

/-- What a document gives for an address behind the place where a token is set. -/
def overruling (document : Document) (path : Path) : List Value :=
  valuesAt path (behind (Watcher.tokenDocumentPath document path) (placesOf document path))

theorem filterMap_valueFor?_eq_nil {findings : List Finding}
    (foreign : ∀ entry ∈ tokensOf findings, entry.1 ≠ path) :
    findings.filterMap (Finding.valueFor? path) = [] := by
  refine List.filterMap_eq_nil_iff.2 fun finding listed => ?_
  rw [Finding.valueFor?]
  cases gives : finding.token? with
  | none => rfl
  | some entry => exact if_neg (foreign entry (List.mem_filterMap.2 ⟨finding, listed, gives⟩))

/-- A category gives an address at the places of the address. -/
theorem valuesAt_placesOf (unique : document.root.UniqueKeys)
    (declared : path.isColor → path.key ∈ document.keys [Path.colorCategory]) :
    (findCategory document path.category).filterMap (Finding.valueFor? path) =
      valuesAt path (placesOf document path) := by
  rw [valuesAt, placesOf]
  by_cases colored : path.isColor = true
  · have foreign (ramp : String) (other : ramp ≠ path.key) :
        (findRamp document ramp).filterMap (Finding.valueFor? path) = [] :=
      filterMap_valueFor?_eq_nil fun entry member same =>
        other ((key_of_mem_findRamp member).symm.trans (congrArg Path.key same))
    have own : path.category = Path.colorCategory := eq_of_beq colored
    rw [if_pos colored, findCategory, if_pos own, List.filterMap_flatMap,
      flatMap_eq_of_alone (document.nodup_keys unique _) foreign, if_pos (declared colored),
      findRamp, List.filterMap_map, List.filterMap_map]
    rfl
  · have other : path.category ≠ Path.colorCategory := fun own => colored (beq_iff_eq.2 own)
    rw [if_neg colored, findCategory, if_neg other, List.filterMap_map, List.filterMap_map]
    rfl

/-- The index holds for an address the last value that is found for it. -/
theorem Index.getElem?_values_ofDocument (document : Document) (path : Path) :
    (ofDocument document).values[path]? =
      ((findings document).filterMap (Finding.valueFor? path)).getLast? := by
  rw [values_ofDocument, getElem?_filled_eq_getLast?, tokensOf, List.filterMap_filterMap]
  rfl

/-- The index holds for an address what the last of its places gives. -/
theorem getElem?_values_eq_getLast? (unique : document.root.UniqueKeys)
    (category : path.category ∈ document.keys [])
    (declared : path.isColor → path.key ∈ document.keys [Path.colorCategory]) :
    (Index.ofDocument document).values[path]? = (valuesAt path (placesOf document path)).getLast? := by
  have foreign (name : String) (other : name ≠ path.category) :
      (findCategory document name).filterMap (Finding.valueFor? path) = [] :=
    filterMap_valueFor?_eq_nil fun entry member same =>
      other ((category_of_mem_findCategory member).symm.trans (congrArg Path.category same))
  rw [Index.getElem?_values_ofDocument, findings, List.filterMap_flatMap, flatMap_eq_of_alone (document.nodup_keys unique _) foreign,
    if_pos category, valuesAt_placesOf unique declared]

/-! ## Setting one of the places -/

/-- What the index reads from a JSON value where a token is set: a color from the level of a
ramp, else what the category and the type of the leaf make of it. -/
def taken? (document : Document) (path : Path) (json : Json) : Option Value :=
  if path.isColor then (json.text?.bind Color.read?).map Value.color
  else (valueOfLeaf path.category ((leaf? document path).bind Document.Leaf.kind) json).toOption

/-- The places of an address are different. -/
theorem nodup_placesOf (unique : document.root.UniqueKeys) (path : Path) :
    ((placesOf document path).map Prod.fst).Nodup := by
  rw [placesOf]
  split
  · rw [List.map_map]
    refine (document.nodup_keys unique _).map fun first second same => ?_
    exact (List.cons.inj (List.cons.inj (List.cons.inj same).2).2).1
  · rw [List.map_map]
    exact document.nodup_leaves unique _

section Behind

variable {place : List String} {places : List (List String × Finding)}

/-- The places in front of a place and behind it are other ones. -/
theorem exists_behind_of_mem (distinct : (places.map Prod.fst).Nodup)
    (present : place ∈ places.map Prod.fst) :
    ∃ earlier finding, places = earlier ++ (place, finding) :: behind place places ∧
      (∀ other ∈ earlier, other.1 ≠ place) ∧ ∀ other ∈ behind place places, other.1 ≠ place := by
  obtain ⟨⟨own, finding⟩, listed, same⟩ := List.mem_map.1 present
  obtain rfl : place = own := same.symm
  obtain ⟨earlier, later, rfl⟩ := List.append_of_mem listed
  rw [List.map_append, List.map_cons, List.nodup_append, List.nodup_cons] at distinct
  obtain ⟨-, ⟨notLater, -⟩, notEarlier⟩ := distinct
  have apart : ∀ other ∈ earlier, other.1 ≠ place := fun other among =>
    notEarlier _ (List.mem_map_of_mem among) _ List.mem_cons_self
  have rest : behind place (earlier ++ (place, finding) :: later) = later := by
    rw [behind, List.dropWhile_append_of_pos (by simpa using apart),
      List.dropWhile_cons_of_neg (by simp), List.tail_cons]
  refine ⟨earlier, finding, by rw [rest], apart, fun other among same => ?_⟩
  rw [rest] at among
  exact notLater (List.mem_map.2 ⟨other, among, same⟩)

/-- No place is behind one that is not listed. -/
theorem behind_of_absent (absent : place ∉ places.map Prod.fst) : behind place places = [] := by
  have apart : ∀ other ∈ places, other.1 ≠ place := fun other among same =>
    absent (List.mem_map.2 ⟨other, among, same⟩)
  have rest := @List.dropWhile_append_of_pos _ (fun other : List String × Finding =>
    decide (other.1 ≠ place)) places [] (by simpa using apart)
  rw [List.append_nil, List.dropWhile_nil] at rest
  rw [behind, rest]
  rfl

/-- A place, with another finding where it is the given one. -/
def setAt (place : List String) (finding : Finding) (other : List String × Finding) :
    List String × Finding :=
  if other.1 = place then (place, finding) else other

theorem setAt_of_ne {finding : Finding} {other : List String × Finding}
    (different : other.1 ≠ place) : setAt place finding other = other := if_neg different

/-- After a place that gives a value, the places behind it decide. -/
theorem getLast?_valuesAt (earlier later : List (List String × Finding)) :
    (valuesAt path (earlier ++ (place, .token path value) :: later)).getLast? =
      some ((valuesAt path later).getLast?.getD value) := by
  have own : (Finding.token path value).valueFor? path = some value := if_pos rfl
  rw [valuesAt, valuesAt, List.filterMap_append, List.filterMap_cons, own, List.getLast?_append,
    List.getLast?_cons]
  rfl

theorem getLast?_valuesAt_setAt (distinct : (places.map Prod.fst).Nodup)
    (present : place ∈ places.map Prod.fst) :
    (valuesAt path (places.map (setAt place (.token path value)))).getLast? =
      some ((valuesAt path (behind place places)).getLast?.getD value) := by
  obtain ⟨earlier, finding, split, -, apart⟩ := exists_behind_of_mem distinct present
  have kept : (behind place places).map (setAt place (.token path value)) =
      behind place places :=
    (List.map_congr_left fun other among => setAt_of_ne (apart other among)).trans
      (List.map_id _)
  have own : setAt place (.token path value) (place, finding) = (place, .token path value) :=
    if_pos rfl
  nth_rewrite 1 [split]
  rw [List.map_append, List.map_cons, kept, own, getLast?_valuesAt]

theorem getLast?_valuesAt_concat (absent : place ∉ places.map Prod.fst) :
    (valuesAt path (places ++ [(place, .token path value)])).getLast? =
      some ((valuesAt path (behind place places)).getLast?.getD value) := by
  rw [getLast?_valuesAt, behind_of_absent absent]

end Behind

/-- What overrules a token stands beside the place where the token is set. -/
theorem exists_of_mem_overruling (unique : document.root.UniqueKeys)
    (member : value ∈ overruling document path) :
    Watcher.tokenDocumentPath document path ∈ (placesOf document path).map Prod.fst ∧
      ∃ place ∈ placesOf document path, place.1 ≠ Watcher.tokenDocumentPath document path ∧
        place.2.token? = some (path, value) := by
  obtain ⟨place, among, gives⟩ := List.mem_filterMap.1 member
  obtain ⟨entry, token, own⟩ := Option.bind_eq_some_iff.1 gives
  have present : Watcher.tokenDocumentPath document path ∈ (placesOf document path).map Prod.fst := by
    by_contra absent
    rw [behind_of_absent absent] at among
    cases among
  obtain ⟨earlier, finding, split, -, apart⟩ :=
    exists_behind_of_mem (nodup_placesOf unique path) present
  refine ⟨present, place, ?_, apart place among, ?_⟩
  · rw [split]
    exact List.mem_append_right _ (List.mem_cons_of_mem _ among)
  · split at own
    · next named =>
        cases own
        rw [token, ← named]
    · cases own

/-- A token that one place alone gives is not overruled. -/
theorem overruling_of_givenOnce (unique : document.root.UniqueKeys)
    (once : GivenOnce document path) : overruling document path = [] := by
  refine List.eq_nil_iff_forall_not_mem.2 fun value member => ?_
  obtain ⟨present, place, listed, apart, gives⟩ := exists_of_mem_overruling unique member
  by_cases colored : path.isColor = true
  · rw [placesOf, if_pos colored] at present listed
    obtain ⟨key, among, rfl⟩ := List.mem_map.1 listed
    obtain ⟨level, spelled, named⟩ := level_of_findShade gives
    have named : path = Path.color path.key level := named
    have stands : Watcher.tokenDocumentPath document path =
        [Path.colorCategory, path.key, level.text] := by
      rw [named]
      rfl
    rw [stands, List.map_map] at present
    obtain ⟨padded, among', same⟩ := List.mem_map.1 present
    obtain rfl : padded = level.text := by simpa using same
    refine apart (stands ▸ ?_)
    rw [once.shade _ level named key among level.text among' spelled level.read?_text]
  · rw [placesOf, if_neg colored] at listed
    obtain ⟨leaf, among, rfl⟩ := List.mem_map.1 listed
    have other : path.category ≠ Path.colorCategory := fun own => colored (beq_iff_eq.2 own)
    obtain ⟨named, -⟩ := findLeaf_token?_eq_some.1 gives
    obtain ⟨first, among', same, -, stands⟩ := exists_leaf? other among
    rw [← named] at stands
    refine apart (stands ▸ congrArg Document.Leaf.path ?_)
    exact once.leaf other leaf among first among' named.symm (same.trans named.symm)

/-- Setting a level changes what is found under its padded key, or adds this place at the
end. -/
theorem placesOf_setLevel {ramp : String} {level : Level} {color : Color}
    (spelled : json.text?.bind Color.read? = some color) :
    let place := [Path.colorCategory, ramp, level.text]
    let finding := Finding.token (.color ramp level) (.color color)
    let places := placesOf document (.color ramp level)
    placesOf (setLevel document ramp level json) (.color ramp level) =
      if place ∈ places.map Prod.fst then places.map (setAt place finding)
      else places ++ [(place, finding)] := by
  have listed : [Path.colorCategory, ramp, level.text] ∈
      (placesOf document (.color ramp level)).map Prod.fst ↔
        level.text ∈ document.keys [Path.colorCategory, ramp] := by
    simp [placesOf_color]
  dsimp only
  rw [placesOf_color, keys_ramp_setLevel]
  by_cases present : level.text ∈ document.keys [Path.colorCategory, ramp]
  · rw [if_pos present, if_pos (listed.2 present), placesOf_color, List.map_map]
    refine List.map_congr_left fun key among => ?_
    rw [Function.comp_apply]
    by_cases same : key = level.text
    · rw [same, findShade_setLevel_self spelled, setAt, if_pos rfl]
    · rw [findShade_setLevel_of_ne same, setAt_of_ne (by simpa using same)]
  · rw [if_neg present, if_neg fun among => present (listed.1 among), List.map_append,
      List.map_singleton, findShade_setLevel_self spelled, placesOf_color]
    refine congrArg (· ++ _) (List.map_congr_left fun key among => ?_)
    rw [findShade_setLevel_of_ne fun same => present (same ▸ among)]

/-- Setting a leaf changes what is found at its place. -/
theorem placesOf_setLeaf (unique : document.root.UniqueKeys) (other : path.isColor = false)
    {leaf : Document.Leaf} (listed : leaf ∈ document.leaves [path.category])
    (named : leafPath path.category leaf = path)
    (taken : valueOfLeaf path.category leaf.kind json = .ok value) :
    placesOf (document.setLeaf leaf.path json) path =
      (placesOf document path).map (setAt leaf.path (.token path value)) := by
  have own : findLeaf path.category { leaf with value := json } = .token path value := by
    rw [findLeaf]
    dsimp only
    rw [taken]
    exact congrArg (Finding.token · value) named
  rw [placesOf_plain _ other, placesOf_plain _ other, Document.leaves_setLeaf json unique listed,
    List.map_map, List.map_map]
  refine List.map_congr_left fun found among => ?_
  by_cases same : found.path = leaf.path
  · obtain rfl := List.inj_on_of_nodup_map (document.nodup_leaves unique _) among listed same
    simp [Document.Leaf.reset, setAt, own]
  · simp [Document.Leaf.reset, setAt, same]

/-- What the index takes has no key twice. -/
theorem uniqueKeys_of_taken? (taken : taken? document path json = some value) :
    json.UniqueKeys := by
  cases json with
  | array items | object members =>
      rw [taken?] at taken
      split at taken <;> cases taken
  | _ => trivial

/-- The index holds the color that was set for a level, or the last one that overrules it. -/
theorem getElem?_values_setLevel (unique : document.root.UniqueKeys) {ramp : String}
    {level : Level} {color : Color} (declared : ramp ∈ document.keys [Path.colorCategory])
    (spelled : json.text?.bind Color.read? = some color) (placed : json.UniqueKeys) :
    (Index.ofDocument (setLevel document ramp level json)).values[Path.color ramp level]? =
      some ((overruling document (.color ramp level)).getLast?.getD (.color color)) := by
  obtain ⟨root, ramps⟩ := @keys_setLevel document ramp level json declared
  have category : Path.colorCategory ∈ (setLevel document ramp level json).keys [] := by
    rw [root]
    exact Document.mem_keys_nil (by decide) declared
  have still : ramp ∈ (setLevel document ramp level json).keys [Path.colorCategory] := by
    rwa [ramps]
  rw [getElem?_values_eq_getLast? (unique.place placed) category fun _ => still,
    placesOf_setLevel spelled]
  split
  · next present => exact getLast?_valuesAt_setAt (nodup_placesOf unique _) present
  · next absent => exact getLast?_valuesAt_concat absent

/-- The index holds the value that was set for a leaf, or the last one that overrules it. -/
theorem getElem?_values_setLeaf (unique : document.root.UniqueKeys) {category : String}
    {leaf : Document.Leaf} (declared : category ∈ document.keys [])
    (other : category ≠ Path.colorCategory) (listed : leaf ∈ document.leaves [category])
    (stands : Watcher.tokenDocumentPath document (leafPath category leaf) = leaf.path)
    (taken : valueOfLeaf category leaf.kind json = .ok value) (placed : json.UniqueKeys) :
    (Index.ofDocument (document.setLeaf leaf.path json)).values[leafPath category leaf]? =
      some ((overruling document (leafPath category leaf)).getLast?.getD value) := by
  have plain : (leafPath category leaf).isColor = false := beq_eq_false_iff_ne.2 other
  have present : leaf.path ∈ (placesOf document (leafPath category leaf)).map Prod.fst := by
    rw [placesOf_plain _ plain, List.map_map]
    exact List.mem_map_of_mem listed
  rw [getElem?_values_eq_getLast? (unique.place placed)
      ((keys_setLeaf declared listed).symm ▸ declared) (by simp [plain]),
    placesOf_setLeaf unique plain listed rfl taken, overruling, stands]
  exact getLast?_valuesAt_setAt (nodup_placesOf unique _) present

/-- Setting a token leaves the others, and the index holds the value that was set, or the
last one that overrules it. -/
theorem isSet_of_taken? (unique : document.root.UniqueKeys) {held : Value}
    (found : (Index.ofDocument document).values[path]? = some held)
    (taken : taken? document path json = some value) :
    let changed := document.setLeaf (Watcher.tokenDocumentPath document path) json
    IsSet document changed path ∧
      (Index.ofDocument changed).values[path]? =
        some ((overruling document path).getLast?.getD value) := by
  have placed := uniqueKeys_of_taken? taken
  cases gives_of_held found with
  | shade declared listed own =>
      obtain ⟨color, spelled, rfl⟩ := Option.map_eq_some_iff.1 taken
      exact ⟨isSet_setLevel unique placed declared,
        getElem?_values_setLevel unique declared spelled placed⟩
  | @leaf category leaf _ other declared listed _ =>
      obtain ⟨first, among, same, first?, stands⟩ := exists_leaf? other listed
      have plain : (leafPath category leaf).isColor = false := beq_eq_false_iff_ne.2 other
      rw [taken?, plain, if_neg (by decide), first?] at taken
      have taken : valueOfLeaf category first.kind json = .ok value := by
        change (valueOfLeaf category first.kind json).toOption = some value at taken
        cases read : valueOfLeaf category first.kind json with
        | ok own =>
            rw [read] at taken
            exact congrArg Except.ok (Option.some.inj taken)
        | error refusal =>
            rw [read] at taken
            cases taken
      rw [← same] at stands ⊢
      dsimp only
      rw [stands]
      exact ⟨isSet_setLeaf unique placed declared other among,
        getElem?_values_setLeaf unique declared other among stands taken placed⟩

/-- Where a token was set, every address leads where it led. -/
theorem IsSet.canonicalize?_eq {before after : Document} {held held' : Value}
    (set : IsSet before after path) (present : (Index.ofDocument before).values[path]? = some held)
    (still : (Index.ofDocument after).values[path]? = some held') (other : Path) :
    (Index.ofDocument after).canonicalize? other = (Index.ofDocument before).canonicalize? other := by
  have same (other : Path) : other ∈ (Index.ofDocument after).values ↔
      other ∈ (Index.ofDocument before).values := by
    rw [TreeMap.mem_iff_isSome_getElem?, TreeMap.mem_iff_isSome_getElem?]
    by_cases own : other = path
    · simp [own, present, still]
    · rw [set.others other own]
  simp only [Index.canonicalize?, set.aliases, same]

end Token

namespace Sample

/-- A ramp with an alias and two keys for one level, and two lengths with one address. -/
def doubled : Configuration :=
  .ofDocuments
    ⟨"tokens", .object
      [("color", .object
        [("gray", .object
          [("$alias", .text "neutral"), ("050", leaf (.text "#ffffff")),
            ("50", leaf (.text "#767676")), ("900", leaf (.text "#000000"))])]),
        ("size", .object
          [("a", .object [("b", leaf (.text "1px"))]), ("a-b", leaf (.text "2px"))])]⟩
    (.empty "theme") (.empty "ui-kit") {}

theorem uniqueKeys_doubled : doubled.tokens.root.UniqueKeys := by
  simp [doubled, Configuration.ofDocuments, leaf, Json.UniqueKeys, Json.UniqueKeysMembers]

end Sample

namespace Watcher

/-- A token is set wherever its address leads to it, also by the alias of its ramp. The index
then holds the value that it reads there, or the last one that a place behind gives, holds
every other token as before, and every address leads where it led. -/
theorem holds_of_setToken (watcher : Watcher)
    (unique : watcher.configuration.tokens.root.UniqueKeys) {path canonical : Token.Path}
    {json : Json} {value : Token.Value}
    (leads : watcher.configuration.index.canonicalize? path = some canonical)
    (taken : Token.taken? watcher.configuration.tokens canonical json = some value) :
    let before := watcher.configuration.index
    let after := (watcher.setToken path json).configuration.index
    after.values[canonical]? =
        some ((Token.overruling watcher.configuration.tokens canonical).getLast?.getD value) ∧
      (∀ other, other ≠ canonical → after.values[other]? = before.values[other]?) ∧
      ∀ other, after.canonicalize? other = before.canonicalize? other := by
  obtain ⟨held, found⟩ := Token.Index.exists_of_canonicalize? leads
  have after : (watcher.setToken path json).configuration.index = .ofDocument
      (watcher.configuration.tokens.setLeaf
        (tokenDocumentPath watcher.configuration.tokens canonical) json) := by
    simp only [setToken, leads, Option.getD_some]
    rfl
  rw [watcher.configuration.index_eq] at found
  obtain ⟨set, holds⟩ := Token.isSet_of_taken? unique found taken
  dsimp only at set holds ⊢
  rw [after, watcher.configuration.index_eq]
  exact ⟨holds, set.others, set.canonicalize?_eq found holds⟩

/-- A color that is set by the alias of its ramp is held by the ramp. -/
theorem holds_of_setToken_alias :
    ∃ (watcher : Watcher) (path canonical : Token.Path) (json : Json) (color : Color),
      path ≠ canonical ∧ watcher.configuration.tokens.root.UniqueKeys ∧
      watcher.configuration.index.canonicalize? path = some canonical ∧
      Token.taken? watcher.configuration.tokens canonical json = some (.color color) ∧
      (watcher.setToken path json).configuration.index.values[canonical]? =
        some (.color color) := by
  let watcher := Watcher.start Sample.doubled .empty
  have leads : watcher.configuration.index.canonicalize? (.color "neutral" ⟨900⟩) =
      some (.color "gray" ⟨900⟩) := by decide +kernel
  have taken : Token.taken? watcher.configuration.tokens (.color "gray" ⟨900⟩) (.text "#111") =
      some (.color ⟨0x11, 0x11, 0x11⟩) := by decide +kernel
  have last : Token.overruling watcher.configuration.tokens (.color "gray" ⟨900⟩) = [] := by
    decide +kernel
  have holds := (holds_of_setToken watcher Sample.uniqueKeys_doubled leads taken).1
  rw [last] at holds
  exact ⟨watcher, _, _, _, _, by decide, Sample.uniqueKeys_doubled, leads, taken, holds⟩

/-- Of two keys for one level, the padded one is set and the other one is held. Of two leaves
with one address, the first is set and the last is held. -/
theorem not_holds_of_setToken :
    ∃ watcher : Watcher, watcher.configuration.tokens.root.UniqueKeys ∧
      ∀ given ∈ [(Token.Path.color "gray" ⟨50⟩, Json.text "#000000"),
          (Token.Path.plain "size" "a-b", Json.text "3px")],
        watcher.configuration.index.canonicalize? given.1 = some given.1 ∧
        ∃ value held, Token.taken? watcher.configuration.tokens given.1 given.2 = some value ∧
          (watcher.setToken given.1 given.2).configuration.index.values[given.1]? = some held ∧
          watcher.configuration.index.values[given.1]? = some held ∧ held ≠ value := by
  refine ⟨.start Sample.doubled .empty, Sample.uniqueKeys_doubled, ?_⟩
  rw [List.forall_mem_cons, List.forall_mem_singleton]
  constructor
  · exact ⟨by decide +kernel, .color ⟨0, 0, 0⟩, .color ⟨0x76, 0x76, 0x76⟩, by decide +kernel,
      by decide +kernel, by decide +kernel, by decide⟩
  · refine ⟨by decide +kernel, .dimension 3, .dimension 2, by decide +kernel,
      by decide +kernel, by decide +kernel, by decide +kernel⟩

end Watcher

end Legible
