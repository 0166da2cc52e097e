import Mathlib.Data.List.Basic
import Mathlib.Data.List.Induction
import Legible.Document

/-!
# Setting a leaf

Setting a leaf of a document changes what is found at its path and nothing beside it.
Where the leaf is there already, the leaves are listed in the same order, this one with
its new value; a node on the way that is new comes after the other children. The
documents have no key twice in one object.
-/

namespace Legible

namespace Json

/-! ## Members -/

namespace Members

theorem map_fst_set (key : String) (value : Json) (members : List (String × Json)) :
    (set key value members).map Prod.fst =
      if key ∈ members.map Prod.fst then members.map Prod.fst
      else members.map Prod.fst ++ [key] := by
  induction members with
  | nil => simp [set]
  | cons member rest inductionHypothesis =>
      obtain ⟨other, kept⟩ := member
      by_cases same : other = key
      · simp [set, same]
      · simp only [set, same, if_false, List.map_cons, inductionHypothesis, List.mem_cons,
          Ne.symm same, false_or, List.cons_append]
        split <;> rfl

/-- An assignment to a key that is there once changes that member alone. -/
theorem set_append {key : String} {value kept : Json} {before after : List (String × Json)}
    (absent : key ∉ before.map Prod.fst) :
    set key value (before ++ (key, kept) :: after) = before ++ (key, value) :: after := by
  induction before with
  | nil => simp [set]
  | cons member before inductionHypothesis =>
      obtain ⟨other, held⟩ := member
      rw [List.map_cons, List.mem_cons, not_or] at absent
      simp only [List.cons_append, set, if_neg (Ne.symm absent.1), inductionHypothesis absent.2]

/-- After an assignment, a member is an old one or holds the assigned value. -/
theorem mem_set {key : String} {value : Json} {members : List (String × Json)}
    {member : String × Json} (listed : member ∈ set key value members) :
    member.2 = value ∨ member ∈ members := by
  induction members with
  | nil =>
      rw [List.mem_singleton.1 listed]
      exact .inl rfl
  | cons first rest inductionHypothesis =>
      obtain ⟨other, kept⟩ := first
      rw [set] at listed
      split at listed
      · rcases List.mem_cons.1 listed with rfl | later
        · exact .inl rfl
        · exact .inr (List.mem_cons_of_mem _ later)
      · rcases List.mem_cons.1 listed with rfl | later
        · exact .inr List.mem_cons_self
        · exact (inductionHypothesis later).imp_right (List.mem_cons_of_mem _)

end Members

/-! ## Unique keys -/

theorem uniqueKeysMembers_iff (members : List (String × Json)) :
    UniqueKeysMembers members ↔ ∀ member ∈ members, member.2.UniqueKeys := by
  induction members with
  | nil => simp [UniqueKeysMembers]
  | cons member rest inductionHypothesis => simp [UniqueKeysMembers, inductionHypothesis]

theorem UniqueKeys.member? {node child : Json} {key : String} (unique : node.UniqueKeys)
    (found : node.member? key = some child) : child.UniqueKeys := by
  cases node with
  | object members =>
      obtain ⟨before, after, rfl, -⟩ := List.lookup_eq_some_iff.1 found
      exact (uniqueKeysMembers_iff _).1 unique.2 (key, child) (by simp)
  | _ => cases found

/-- A member of an object without repeated keys is the one under its key. -/
theorem member?_of_mem {members : List (String × Json)} {key : String} {child : Json}
    (distinct : (members.map Prod.fst).Nodup) (listed : (key, child) ∈ members) :
    (object members).member? key = some child := by
  obtain ⟨before, after, rfl⟩ := List.append_of_mem listed
  rw [List.map_append, List.map_cons, List.nodup_append] at distinct
  refine List.lookup_eq_some_iff.2 ⟨before, after, rfl, fun member earlier => ?_⟩
  have other : member.1 ≠ key :=
    distinct.2.2 member.1 (List.mem_map_of_mem earlier) key List.mem_cons_self
  simpa using other.symm

theorem UniqueKeys.at? {node child : Json} {path : List String} (unique : node.UniqueKeys)
    (found : node.at? path = some child) : child.UniqueKeys := by
  induction path generalizing node with
  | nil =>
      cases found
      exact unique
  | cons key rest inductionHypothesis =>
      obtain ⟨next, own, found⟩ := Option.bind_eq_some_iff.1 found
      exact inductionHypothesis (unique.member? own) found

/-- An assignment repeats no key. -/
theorem uniqueKeys_set {members : List (String × Json)} {value : Json} (key : String)
    (unique : (object members).UniqueKeys) (placed : value.UniqueKeys) :
    (object (Members.set key value members)).UniqueKeys := by
  refine ⟨?_, (uniqueKeysMembers_iff _).2 fun member listed => ?_⟩
  · rw [Members.map_fst_set]
    split
    · exact unique.1
    · next absent =>
        refine List.nodup_append.2 ⟨unique.1, by simp, fun other listed last final => ?_⟩
        rw [List.mem_singleton.1 final]
        exact fun same => absent (same ▸ listed)
  · rcases Members.mem_set listed with equal | kept
    · rw [equal]
      exact placed
    · exact (uniqueKeysMembers_iff _).1 unique.2 member kept

theorem UniqueKeys.place {node value : Json} {path : List String} (unique : node.UniqueKeys)
    (placed : value.UniqueKeys) : (node.place value path).UniqueKeys := by
  induction path generalizing node with
  | nil => exact placed
  | cons key rest inductionHypothesis =>
      have child : ((node.member? key).getD empty).UniqueKeys := by
        cases found : node.member? key with
        | none => exact ⟨List.nodup_nil, trivial⟩
        | some child => exact unique.member? found
      have members : (object node.members).UniqueKeys := by
        cases node with
        | object members => exact unique
        | _ => exact ⟨List.nodup_nil, trivial⟩
      exact uniqueKeys_set key members (inductionHypothesis child)

/-- Merging repeated keys leaves none. -/
theorem uniqueKeys_collapse {members : List (String × Json)}
    (unique : ∀ member ∈ members, member.2.UniqueKeys) :
    (object (Members.collapse members)).UniqueKeys := by
  induction members using List.reverseRecOn with
  | nil => exact ⟨List.nodup_nil, trivial⟩
  | append_singleton members last inductionHypothesis =>
      rw [Members.collapse, List.foldl_append, List.foldl_cons, List.foldl_nil]
      exact uniqueKeys_set last.1
        (inductionHypothesis fun member listed => unique member (List.mem_append_left _ listed))
        (unique last (List.mem_append_right _ List.mem_cons_self))

mutual

/-- A tree in which repeated keys are merged has no key twice. -/
theorem uniqueKeys_unique : (node : Json) → node.unique.UniqueKeys
  | .array items => uniqueKeysItems_uniqueItems items
  | .object members => uniqueKeys_collapse (uniqueKeys_of_mem_uniqueMembers members)
  | .null | .boolean _ | .number _ | .text _ => trivial

theorem uniqueKeysItems_uniqueItems : (items : List Json) → UniqueKeysItems (uniqueItems items)
  | [] => trivial
  | item :: rest => ⟨uniqueKeys_unique item, uniqueKeysItems_uniqueItems rest⟩

theorem uniqueKeys_of_mem_uniqueMembers : (members : List (String × Json)) →
    ∀ member ∈ uniqueMembers members, member.2.UniqueKeys
  | [], _, listed => absurd listed List.not_mem_nil
  | (_, value) :: rest, member, listed =>
      (List.mem_cons.1 listed).elim (fun own => own ▸ uniqueKeys_unique value)
        fun later => uniqueKeys_of_mem_uniqueMembers rest member later

end

/-! ## What is found after placing -/

theorem at?_singleton (node : Json) (key : String) : node.at? [key] = node.member? key := by
  rw [at?]
  cases node.member? key <;> rfl

theorem at?_empty (path : List String) : (empty.at? path).getD empty = empty := by
  cases path <;> rfl

/-- On the way to a placed node stands what stood there, with the node placed below. -/
theorem at?_place_append (node value : Json) (first second : List String) :
    (node.place value (first ++ second)).at? first =
      some (((node.at? first).getD empty).place value second) := by
  induction first generalizing node with
  | nil => rfl
  | cons key rest inductionHypothesis =>
      have step : (node.place value (key :: rest ++ second)).at? (key :: rest) =
          (((node.member? key).getD empty).place value (rest ++ second)).at? rest := by
        simp [place, at?, member?, members]
      rw [step, inductionHypothesis, at?]
      cases node.member? key with
      | none => simp [at?_empty]
      | some child => rfl

/-- Beside a placed node nothing changes. -/
theorem at?_place_of_apart {node value : Json} {path other : List String}
    (apart : ¬ path <+: other) (apart' : ¬ other <+: path) :
    (node.place value path).at? other = node.at? other := by
  induction path generalizing node other with
  | nil => exact absurd List.nil_prefix apart
  | cons key rest inductionHypothesis =>
      cases other with
      | nil => exact absurd List.nil_prefix apart'
      | cons next tail =>
          by_cases same : next = key
          · rw [same, List.prefix_cons_inj] at apart apart'
            have step : (node.place value (key :: rest)).at? (key :: tail) =
                (((node.member? key).getD empty).place value rest).at? tail := by
              simp [place, at?, member?, members]
            rw [same, step, inductionHypothesis apart apart', at?]
            cases node.member? key with
            | some child => rfl
            | none =>
                cases tail with
                | nil => exact absurd List.nil_prefix apart'
                | cons _ _ => rfl
          · simp [place, at?, member?, members, Members.lookup_set_of_ne _ _ same]

end Json

namespace Document

open Json

variable {document : Document}

/-- A document that was read has no key twice in one object. -/
theorem uniqueKeys_of_read {name text : String} (read : Document.read name text = .ok document) :
    document.root.UniqueKeys := by
  rw [Document.read] at read
  split at read
  · next root _ =>
      rw [ofJson] at read
      split at read
      · cases read
        exact uniqueKeys_unique root
      · cases read
  · cases read

/-! ## Keys -/

/-- The keys of the object at a path, those included that describe it. -/
def allKeys (document : Document) (path : List String) : List String :=
  ((document.get? path).getD Json.empty).members.map Prod.fst

theorem keys_eq (document : Document) (path : List String) :
    document.keys path = (document.allKeys path).filter fun key => !isMetadata key := by
  rw [keys, allKeys]
  cases document.get? path <;> rfl

/-- What a document has on the way to a leaf that is set. -/
theorem members_setLeaf (path : List String) (key : String) (rest : List String) (value : Json)
    {place : List String} (way : place ++ ["$value"] = path ++ key :: rest) :
    ∃ child, (((document.setLeaf place value).get? path).getD Json.empty).members =
      Members.set key child ((document.get? path).getD Json.empty).members := by
  rw [get?, setLeaf, way, at?_place_append]
  exact ⟨_, rfl⟩

/-- Setting a leaf below a node adds the next key to the children of the node, at the
end, unless it is there. -/
theorem keys_setLeaf (path : List String) (key : String) (rest : List String) (value : Json)
    (child : isMetadata key = false) :
    (document.setLeaf (path ++ key :: rest) value).keys path =
      if key ∈ document.keys path then document.keys path else document.keys path ++ [key] := by
  obtain ⟨node, members⟩ := document.members_setLeaf path key (rest ++ ["$value"]) value
    (List.append_assoc path (key :: rest) ["$value"])
  rw [keys_eq, keys_eq, allKeys, allKeys, members, Members.map_fst_set]
  simp only [List.mem_filter, child, Bool.not_false, and_true]
  split
  · rfl
  · rw [List.filter_append]
    simp [child]

/-- Whether two documents have the same nodes wherever a node is not at, above or below
the end of a path. -/
def AgreesOutside (path : List String) (first second : Document) : Prop :=
  ∀ other, ¬ path <+: other → ¬ other <+: path → first.get? other = second.get? other

/-- Beside a leaf that is set, nothing changes. -/
theorem get?_setLeaf_of_apart {path place : List String} {value : Json}
    (apart : ¬ place ++ ["$value"] <+: path) (apart' : ¬ path <+: place ++ ["$value"]) :
    (document.setLeaf place value).get? path = document.get? path :=
  at?_place_of_apart apart apart'

/-- Below a node stand its members. -/
theorem get?_concat {path : List String} {node : Json} (found : document.get? path = some node)
    (key : String) : document.get? (path ++ [key]) = node.member? key := by
  rw [get?] at found
  rw [get?, at?_append, found, Option.bind_some, at?_singleton]

/-- On the way to a node there are nodes. -/
theorem isSome_get?_of_append {path rest : List String}
    (found : (document.get? (path ++ rest)).isSome) : (document.get? path).isSome := by
  rw [get?, at?_append] at found
  exact Option.isSome_of_isSome_bind found

/-- Where a leaf holds a text, there is a node. -/
theorem isSome_get?_of_leafText? {path : List String} {text : String}
    (held : document.leafText? path = some text) : (document.get? path).isSome := by
  obtain ⟨value, own, -⟩ := Option.bind_eq_some_iff.1 held
  obtain ⟨node, found, -⟩ := Option.bind_eq_some_iff.1 own
  rw [found]
  rfl

/-- What has children is there. -/
theorem isSome_get?_of_mem_keys {path : List String} {key : String}
    (listed : key ∈ document.keys path) : (document.get? path).isSome := by
  rw [keys] at listed
  cases found : document.get? path with
  | none => simp [found] at listed
  | some node => rfl

/-- Children have no metadata keys. -/
theorem isMetadata_of_mem_keys {path : List String} {key : String}
    (listed : key ∈ document.keys path) : isMetadata key = false := by
  rw [keys_eq, List.mem_filter] at listed
  simpa using listed.2

/-- Without repeated keys, a node has every child once. -/
theorem nodup_keys (unique : document.root.UniqueKeys) (path : List String) :
    (document.keys path).Nodup := by
  rw [keys]
  split
  · next node found =>
      cases node with
      | object members => exact (unique.at? found).1.filter _
      | _ => exact List.nodup_nil
  · exact List.nodup_nil

/-- On the way to a node, every node is a member of the one before. -/
theorem mem_allKeys_of_get? (path rest : List String) {key : String}
    (found : (document.get? (path ++ key :: rest)).isSome) : key ∈ document.allKeys path := by
  rw [get?, at?_append] at found
  rw [allKeys, get?]
  cases above : document.root.at? path with
  | none => simp [above] at found
  | some node =>
      rw [above, Option.bind_some, at?] at found
      obtain ⟨child, own⟩ := Option.isSome_iff_exists.1 (Option.isSome_of_isSome_bind found)
      obtain ⟨before, after, split, -⟩ := List.lookup_eq_some_iff.1 own
      rw [Option.getD_some, split]
      simp

/-- It is a child unless its key describes the one before. -/
theorem mem_keys_of_get? (path rest : List String) {key : String} (plain : isMetadata key = false)
    (found : (document.get? (path ++ key :: rest)).isSome) : key ∈ document.keys path := by
  rw [keys_eq, List.mem_filter]
  exact ⟨mem_allKeys_of_get? path rest found, by simp [plain]⟩

/-- A node with children is a child of the root. -/
theorem mem_keys_nil {first key : String} (plain : isMetadata first = false)
    (listed : key ∈ document.keys [first]) : first ∈ document.keys [] := by
  rw [keys_eq, List.mem_filter, allKeys, List.mem_map]
  rw [keys, get?, at?] at listed
  cases found : document.root.member? first with
  | none => simp [found] at listed
  | some node =>
      obtain ⟨before, after, split, -⟩ := List.lookup_eq_some_iff.1 found
      have member : (first, node) ∈ document.root.members := by
        rw [split]
        exact List.mem_append_right _ List.mem_cons_self
      exact ⟨⟨(first, node), member, rfl⟩, by simp [plain]⟩

/-! ## Leaves -/

theorem leavesOfMembers_eq (path : List String) (members : List (String × Json)) :
    leavesOfMembers path members =
      members.flatMap fun member =>
        if isMetadata member.1 then [] else leavesOf (path ++ [member.1]) member.2 := by
  induction members with
  | nil => rfl
  | cons member rest inductionHypothesis =>
      rw [leavesOfMembers, List.flatMap_cons, inductionHypothesis]

theorem leavesOfMembers_append (path : List String) (before after : List (String × Json)) :
    leavesOfMembers path (before ++ after) =
      leavesOfMembers path before ++ leavesOfMembers path after := by
  rw [leavesOfMembers_eq, leavesOfMembers_eq, leavesOfMembers_eq, List.flatMap_append]

theorem leavesOf_object (path : List String) {members : List (String × Json)}
    (bare : members.lookup "$value" = none) :
    leavesOf path (.object members) = leavesOfMembers path members := by
  rw [leavesOf, bare]

mutual

/-- A leaf stands at or below the node where it is listed. -/
theorem exists_of_mem_leavesOf {path : List String} {leaf : Leaf} :
    (node : Json) → leaf ∈ leavesOf path node →
      ∃ rest, leaf.path = path ++ rest ∧ ∀ key ∈ rest, isMetadata key = false
  | .object members, member => by
      rw [leavesOf] at member
      split at member
      · exact ⟨[], by rw [List.mem_singleton.1 member, List.append_nil], by simp⟩
      · obtain ⟨key, -, rest, stands, below⟩ := exists_of_mem_leavesOfMembers members member
        exact ⟨key :: rest, stands, below⟩
  | .null, member | .boolean _, member | .number _, member | .text _, member
  | .array _, member => by simp [leavesOf] at member

/-- A leaf below a node stands below one of its children. -/
theorem exists_of_mem_leavesOfMembers {path : List String} {leaf : Leaf} :
    (members : List (String × Json)) → leaf ∈ leavesOfMembers path members →
      ∃ key ∈ members.map Prod.fst, ∃ rest, leaf.path = path ++ key :: rest ∧
        ∀ other ∈ key :: rest, isMetadata other = false
  | [], member => by simp [leavesOfMembers] at member
  | (key, child) :: rest, member => by
      rw [leavesOfMembers, List.mem_append] at member
      rcases member with own | later
      · split at own
        · cases own
        · next plain =>
            obtain ⟨tail, stands, below⟩ := exists_of_mem_leavesOf child own
            refine ⟨key, List.mem_cons_self, tail, by rw [stands, List.append_assoc]; rfl,
              fun other listed => ?_⟩
            rcases List.mem_cons.1 listed with rfl | listed
            · exact eq_false_of_ne_true plain
            · exact below other listed
      · obtain ⟨below, listed, stands⟩ := exists_of_mem_leavesOfMembers rest later
        exact ⟨below, List.mem_cons_of_mem _ listed, stands⟩

end

/-- A leaf that stands below a child of an object is listed below that child. -/
theorem exists_child_of_mem_leavesOf {path rest : List String} {key : String} {leaf : Leaf}
    {members : List (String × Json)} (listed : leaf ∈ leavesOf path (.object members))
    (stands : leaf.path = path ++ key :: rest) :
    members.lookup "$value" = none ∧ ¬ isMetadata key = true ∧
      ∃ child, (key, child) ∈ members ∧ leaf ∈ leavesOf (path ++ [key]) child := by
  rw [leavesOf] at listed
  split at listed
  · rw [List.mem_singleton.1 listed] at stands
    simp at stands
  · next bare =>
      rw [leavesOfMembers_eq, List.mem_flatMap] at listed
      obtain ⟨⟨own, child⟩, member, listed⟩ := listed
      dsimp only at listed
      split at listed
      · cases listed
      · next plain =>
          obtain ⟨tail, below, -⟩ := exists_of_mem_leavesOf child listed
          rw [below, List.append_assoc, List.append_cancel_left_eq,
            List.singleton_append] at stands
          obtain ⟨rfl, rfl⟩ := List.cons.inj stands
          exact ⟨bare, plain, child, member, listed⟩

/-- A listed leaf with a new value. -/
def Leaf.reset (path : List String) (value : Json) (leaf : Leaf) : Leaf :=
  if leaf.path = path then { leaf with value } else leaf

theorem Leaf.reset_of_ne {path : List String} {value : Json} {leaf : Leaf}
    (different : leaf.path ≠ path) : leaf.reset path value = leaf := if_neg different

/-- A leaf that is reset stays where it is. -/
@[simp] theorem Leaf.path_reset (leaf : Leaf) (path : List String) (value : Json) :
    (leaf.reset path value).path = leaf.path := by
  rw [reset]
  split <;> rfl

/-- Leaves at or below other children are not reset. -/
theorem map_reset_of_absent {path : List String} {key : String} (rest : List String) (value : Json)
    {members : List (String × Json)} (absent : key ∉ members.map Prod.fst) :
    (leavesOfMembers path members).map (Leaf.reset (path ++ key :: rest) value) =
      leavesOfMembers path members := by
  refine (List.map_congr_left fun leaf listed => ?_).trans (List.map_id _)
  refine Leaf.reset_of_ne fun same => ?_
  obtain ⟨own, among, tail, stands, -⟩ := exists_of_mem_leavesOfMembers members listed
  rw [stands, List.append_cancel_left_eq] at same
  exact absent ((List.cons.inj same).1 ▸ among)

/-- Where placing a value resets a leaf of one child, it resets that leaf of the whole
object. -/
theorem leavesOf_place_child {path tail : List String} {own : String} {child value : Json}
    {before after : List (String × Json)}
    (bare : (before ++ (own, child) :: after).lookup "$value" = none)
    (plain : ¬ isMetadata own = true) (notBefore : own ∉ before.map Prod.fst)
    (notAfter : own ∉ after.map Prod.fst)
    (below : leavesOf (path ++ [own]) (child.place value (tail ++ ["$value"])) =
      (leavesOf (path ++ [own]) child).map (Leaf.reset (path ++ own :: tail) value)) :
    leavesOf path ((Json.object (before ++ (own, child) :: after)).place value
        (own :: tail ++ ["$value"])) =
      (leavesOf path (.object (before ++ (own, child) :: after))).map
        (Leaf.reset (path ++ own :: tail) value) := by
  have found : (Json.object (before ++ (own, child) :: after)).member? own = some child :=
    List.lookup_eq_some_iff.2 ⟨before, after, rfl, fun member listed => by
      have other : member.1 ≠ own := fun same => notBefore (same ▸ List.mem_map_of_mem listed)
      simpa using other.symm⟩
  have placed : (Json.object (before ++ (own, child) :: after)).place value
      (own :: tail ++ ["$value"]) =
        .object (before ++ (own, child.place value (tail ++ ["$value"])) :: after) := by
    rw [List.cons_append, place, found, Option.getD_some]
    exact congrArg Json.object (Members.set_append notBefore)
  have still : (before ++ (own, child.place value (tail ++ ["$value"])) :: after).lookup "$value" =
      none := by
    rw [← @Members.set_append own _ child before after notBefore, Members.lookup_set_of_ne _ _ ?_, bare]
    rintro rfl
    exact plain rfl
  rw [placed, leavesOf_object path still, leavesOf_object path bare, leavesOfMembers_append,
    leavesOfMembers_append, List.map_append, map_reset_of_absent _ _ notBefore, leavesOfMembers,
    leavesOfMembers, List.map_append, map_reset_of_absent _ _ notAfter, if_neg plain,
    if_neg plain, below]

/-- Placing the value of a leaf that is listed resets that leaf alone. -/
theorem leavesOf_place {node value : Json} {path rest : List String} (unique : node.UniqueKeys)
    {leaf : Leaf} (listed : leaf ∈ leavesOf path node) (stands : leaf.path = path ++ rest) :
    leavesOf path (node.place value (rest ++ ["$value"])) =
      (leavesOf path node).map (Leaf.reset (path ++ rest) value) := by
  induction rest generalizing node path with
  | nil =>
      cases node with
      | object members =>
          rw [leavesOf] at listed
          split at listed
          · next old held =>
              simp [leavesOf, place, Json.members, held, Leaf.reset,
                Members.lookup_set_of_ne _ _ (show "$type" ≠ "$value" by decide)]
          · obtain ⟨key, -, rest, below, -⟩ := exists_of_mem_leavesOfMembers members listed
            rw [below] at stands
            simp at stands
      | _ => simp [leavesOf] at listed
  | cons key rest inductionHypothesis =>
      cases node with
      | object members =>
          obtain ⟨bare, plain, child, member, below⟩ := exists_child_of_mem_leavesOf listed stands
          obtain ⟨before, after, rfl⟩ := List.append_of_mem member
          have distinct := unique.1
          rw [List.map_append, List.map_cons, List.nodup_append, List.nodup_cons] at distinct
          obtain ⟨-, ⟨notAfter, -⟩, notBefore⟩ := distinct
          have owned : child.UniqueKeys :=
            (uniqueKeysMembers_iff _).1 unique.2 (key, child) member
          have inner := inductionHypothesis owned below (by rw [stands, List.append_assoc]; rfl)
          rw [List.append_assoc] at inner
          exact leavesOf_place_child bare plain
            (fun earlier => notBefore key earlier key List.mem_cons_self rfl) notAfter inner
      | _ => simp [leavesOf] at listed

/-- The leaves below a node that is not there are none, and a leaf stands below the
node where it is listed. -/
theorem exists_of_mem_leaves {path : List String} {leaf : Leaf}
    (listed : leaf ∈ document.leaves path) :
    ∃ rest, leaf.path = path ++ rest ∧ ∀ key ∈ rest, isMetadata key = false := by
  rw [leaves] at listed
  split at listed
  · next node found => exact exists_of_mem_leavesOf node listed
  · cases listed

/-- Leaves stand below nodes that are there. -/
theorem exists_get?_of_mem_leaves {path : List String} {leaf : Leaf}
    (listed : leaf ∈ document.leaves path) : ∃ node, document.get? path = some node := by
  rw [leaves] at listed
  split at listed
  · next node found => exact ⟨node, found⟩
  · cases listed

/-- A node above a listed leaf has no value itself, and the leaf is listed below the child
that it stands below. -/
theorem mem_leaves_child {path rest : List String} {key : String} {leaf : Leaf}
    (unique : document.root.UniqueKeys) (listed : leaf ∈ document.leaves path)
    (stands : leaf.path = path ++ key :: rest) :
    document.leafValue? path = none ∧ key ∈ document.keys path ∧
      leaf ∈ document.leaves (path ++ [key]) := by
  rw [leaves] at listed
  split at listed
  · next node found =>
      cases node with
      | object members =>
          obtain ⟨bare, plain, child, member, below⟩ :=
            exists_child_of_mem_leavesOf listed stands
          refine ⟨?_, ?_, ?_⟩
          · rw [leafValue?, found]
            exact bare
          · rw [keys, found, List.mem_filter]
            exact ⟨List.mem_map_of_mem member, by simpa using plain⟩
          · rw [leaves, get?_concat found, member?_of_mem (unique.at? found).1 member]
            exact below
      | _ => simp [leavesOf] at listed
  · cases listed

/-- A leaf that is listed below a path is listed below every node on the way to it. -/
theorem mem_leaves_append {path above below : List String} {leaf : Leaf}
    (unique : document.root.UniqueKeys) (listed : leaf ∈ document.leaves path)
    (stands : leaf.path = path ++ (above ++ below)) : leaf ∈ document.leaves (path ++ above) := by
  induction above generalizing path with
  | nil => rwa [List.append_nil]
  | cons key above inductionHypothesis =>
      obtain ⟨-, -, child⟩ := mem_leaves_child unique listed stands
      rw [← List.singleton_append, ← List.append_assoc]
      refine inductionHypothesis child ?_
      rw [stands, List.append_assoc]
      rfl

/-- The type that the leaf at a path declares, when it is a string. -/
def leafKind? (document : Document) (path : List String) : Option String :=
  (document.get? (path ++ ["$type"])).bind Json.text?

/-- A node that is a leaf lists itself alone. -/
theorem leaves_of_leafValue? {path : List String} {value : Json}
    (held : document.leafValue? path = some value) :
    document.leaves path = [⟨path, value, document.leafKind? path⟩] := by
  obtain ⟨node, found, own⟩ := Option.bind_eq_some_iff.1 held
  cases node with
  | object members =>
      have own : members.lookup "$value" = some value := own
      have kind : document.leafKind? path = (members.lookup "$type").bind Json.text? := by
        rw [leafKind?, get?_concat found]
        rfl
      rw [leaves, found, kind]
      dsimp only
      rw [leavesOf, own]
  | _ => cases own

/-- A node that is no leaf lists what its children list. -/
theorem leaves_eq_flatMap {path : List String} (unique : document.root.UniqueKeys)
    (bare : document.leafValue? path = none) :
    document.leaves path =
      (document.keys path).flatMap fun key => document.leaves (path ++ [key]) := by
  rw [leaves, keys]
  cases found : document.get? path with
  | none => rfl
  | some node =>
      cases node with
      | object members =>
          have bare : members.lookup "$value" = none := by
            rw [leafValue?, found] at bare
            exact bare
          have own : ∀ member ∈ members,
              document.leaves (path ++ [member.1]) = leavesOf (path ++ [member.1]) member.2 := by
            rintro ⟨key, child⟩ member
            rw [leaves, get?_concat found, member?_of_mem (unique.at? found).1 member]
          dsimp only [Json.members]
          rw [leavesOf_object path bare]
          clear found bare
          induction members with
          | nil => rfl
          | cons member rest inductionHypothesis =>
              have later := inductionHypothesis fun other listed =>
                own other (List.mem_cons_of_mem _ listed)
              rw [leavesOfMembers, later, List.map_cons, List.filter_cons]
              split
              · next metadata => simp [metadata]
              · next plain => simp [plain, own member List.mem_cons_self]
      | _ => rfl

/-- Setting a leaf that is listed resets it among the leaves that are listed. -/
theorem leaves_setLeaf {path : List String} {leaf : Leaf} (value : Json)
    (unique : document.root.UniqueKeys) (listed : leaf ∈ document.leaves path) :
    (document.setLeaf leaf.path value).leaves path =
      (document.leaves path).map (Leaf.reset leaf.path value) := by
  obtain ⟨rest, stands, -⟩ := exists_of_mem_leaves listed
  rw [leaves] at listed
  split at listed
  · next node found =>
      have placed : (document.setLeaf leaf.path value).get? path =
          some (node.place value (rest ++ ["$value"])) := by
        rw [stands, get?, setLeaf, List.append_assoc, at?_place_append]
        rw [get?] at found
        rw [found]
        rfl
      rw [leaves, placed, leaves, found, stands]
      exact leavesOf_place (unique.at? found) listed stands
  · cases listed

/-- Setting a value resets the listed leaf of that place; beside the leaves that are listed,
it leaves them all. -/
theorem leaves_setLeaf_of_kept {path place : List String} (value : Json)
    (unique : document.root.UniqueKeys) (child : "$value" ∉ path)
    (kept : path <+: place → ∃ leaf ∈ document.leaves path, leaf.path = place) :
    (document.setLeaf place value).leaves path =
      (document.leaves path).map (Leaf.reset place value) := by
  by_cases below : path <+: place
  · obtain ⟨leaf, listed, rfl⟩ := kept below
    exact leaves_setLeaf value unique listed
  · have apart : ¬ place ++ ["$value"] <+: path := fun above =>
      child (above.subset (List.mem_append_right _ (List.mem_singleton_self _)))
    have apart' : ¬ path <+: place ++ ["$value"] := fun above => by
      rcases List.prefix_concat_iff.1 above with same | above
      · exact child (same ▸ List.mem_append_right _ (List.mem_singleton_self _))
      · exact below above
    have same : (document.setLeaf place value).leaves path = document.leaves path := by
      rw [leaves, get?_setLeaf_of_apart apart apart']
      rfl
    rw [same]
    refine ((List.map_congr_left fun leaf listed => ?_).trans (List.map_id _)).symm
    obtain ⟨rest, stands, -⟩ := exists_of_mem_leaves listed
    exact Leaf.reset_of_ne fun own => below (own ▸ ⟨rest, stands.symm⟩)

theorem leafValue?_eq (document : Document) (path : List String) :
    document.leafValue? path = document.root.at? (path ++ ["$value"]) := by
  rw [at?_append, leafValue?, get?]
  exact congrArg (Option.bind _) (funext fun node => (at?_singleton node "$value").symm)

/-- Without repeated keys, a listed leaf is listed at its own place. -/
theorem mem_leaves_path {path : List String} {leaf : Leaf} (unique : document.root.UniqueKeys)
    (listed : leaf ∈ document.leaves path) : leaf ∈ document.leaves leaf.path := by
  obtain ⟨rest, stands, -⟩ := exists_of_mem_leaves listed
  rw [stands]
  exact mem_leaves_append unique listed (by rw [stands, List.append_nil])

/-- Without repeated keys, a listed leaf has the value that is found at its place. -/
theorem leafValue?_of_mem_leaves {path : List String} {leaf : Leaf}
    (unique : document.root.UniqueKeys) (listed : leaf ∈ document.leaves path) :
    document.leafValue? leaf.path = some leaf.value := by
  have own := mem_leaves_path unique listed
  cases held : document.leafValue? leaf.path with
  | some value =>
      rw [leaves_of_leafValue? held, List.mem_singleton] at own
      exact congrArg some (congrArg Leaf.value own).symm
  | none =>
      rw [leaves_eq_flatMap unique held, List.mem_flatMap] at own
      obtain ⟨key, -, below⟩ := own
      obtain ⟨rest, stands, -⟩ := exists_of_mem_leaves below
      exact absurd (congrArg List.length stands) (by simp)

/-- The set leaf holds its new value. -/
theorem leafText?_setLeaf (path : List String) (value : Json) :
    (document.setLeaf path value).leafText? path = value.text? := by
  rw [leafText?, leafValue?_eq, setLeaf, at?_place]
  rfl

/-- The other leaves hold what they held. -/
theorem leafText?_setLeaf_of_ne {path place : List String} {value : Json}
    (different : place ≠ path) (child : "$value" ∉ path) (child' : "$value" ∉ place) :
    (document.setLeaf place value).leafText? path = document.leafText? path := by
  have apart {first second : List String} (other : first ≠ second) (child : "$value" ∉ second) :
      ¬ first ++ ["$value"] <+: second ++ ["$value"] := by
    intro before
    rcases List.prefix_concat_iff.1 before with same | above
    · exact other (List.append_cancel_right same)
    · exact child (above.subset (List.mem_append_right _ (List.mem_singleton_self _)))
  rw [leafText?, leafText?, leafValue?_eq, leafValue?_eq, setLeaf,
    at?_place_of_apart (apart different child) (apart different.symm child')]

end Document

end Legible
