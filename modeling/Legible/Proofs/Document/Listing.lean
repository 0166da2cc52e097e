import Legible.Proofs.Document.Leaves

/-!
# Which leaves are listed

What is listed below a path are the topmost nodes there that have a value, each of them
once and as it stands in the document. The list goes through the document depth first:
where the ways to two leaves part, the one through the earlier child comes first.
-/

namespace Legible

namespace Document

open Json

variable {document : Document}

/-! ## The places of leaves -/

/-- Whether a topmost leaf stands below a base: the node there has a value, no node on the
way to it has one, and the way leads through children alone. -/
structure IsLeafBelow (document : Document) (base rest : List String) : Prop where
  holds : (document.leafValue? (base ++ rest)).isSome
  topmost : ∀ above key below, rest = above ++ key :: below →
    document.leafValue? (base ++ above) = none
  plain : ∀ key ∈ rest, isMetadata key = false

/-- A listed leaf is a topmost one. -/
theorem isLeafBelow_of_mem_leaves {base : List String} {leaf : Leaf}
    (unique : document.root.UniqueKeys) (listed : leaf ∈ document.leaves base) :
    ∃ rest, leaf.path = base ++ rest ∧ document.IsLeafBelow base rest := by
  obtain ⟨rest, stands, plain⟩ := exists_of_mem_leaves listed
  refine ⟨rest, stands, ?_, fun above key below split => ?_, plain⟩
  · rw [← stands, leafValue?_of_mem_leaves unique listed]
    rfl
  · rw [split] at stands
    have nearer := mem_leaves_append unique listed stands
    rw [← List.append_assoc] at stands
    exact (mem_leaves_child unique nearer stands).1

/-- A topmost leaf below a base is one below a child of it. -/
theorem IsLeafBelow.child {base rest : List String} {key : String}
    (below : document.IsLeafBelow base (key :: rest)) :
    document.leafValue? base = none ∧ key ∈ document.keys base ∧
      document.IsLeafBelow (base ++ [key]) rest := by
  have same (rest : List String) : base ++ [key] ++ rest = base ++ key :: rest := by simp
  refine ⟨?_, ?_, ?_, fun above next tail split => ?_, fun other listed => ?_⟩
  · simpa using below.topmost [] key rest rfl
  · refine mem_keys_of_get? base rest (below.plain key List.mem_cons_self) ?_
    exact Option.isSome_of_isSome_bind below.holds
  · rw [same]
    exact below.holds
  · rw [same]
    exact below.topmost (key :: above) next tail (by rw [split]; rfl)
  · exact below.plain other (List.mem_cons_of_mem _ listed)

/-- Every topmost leaf is listed. -/
theorem IsLeafBelow.exists_leaf {base rest : List String} (unique : document.root.UniqueKeys)
    (below : document.IsLeafBelow base rest) :
    ∃ leaf ∈ document.leaves base, leaf.path = base ++ rest := by
  induction rest generalizing base with
  | nil =>
      obtain ⟨value, held⟩ := Option.isSome_iff_exists.1 below.holds
      rw [List.append_nil] at held ⊢
      rw [leaves_of_leafValue? held]
      exact ⟨_, List.mem_singleton_self _, rfl⟩
  | cons key rest inductionHypothesis =>
      obtain ⟨bare, child, deeper⟩ := below.child
      obtain ⟨leaf, listed, stands⟩ := inductionHypothesis deeper
      refine ⟨leaf, ?_, by rw [stands, List.append_assoc]; rfl⟩
      rw [leaves_eq_flatMap unique bare, List.mem_flatMap]
      exact ⟨key, child, listed⟩

/-- A listed leaf is what stands at its place. -/
theorem eq_of_mem_leaves {base : List String} {leaf : Leaf} (unique : document.root.UniqueKeys)
    (listed : leaf ∈ document.leaves base) :
    document.leafValue? leaf.path = some leaf.value ∧ leaf.kind = document.leafKind? leaf.path := by
  have held := leafValue?_of_mem_leaves unique listed
  have own := mem_leaves_path unique listed
  rw [leaves_of_leafValue? held, List.mem_singleton] at own
  exact ⟨held, congrArg Leaf.kind own⟩

/-! ## Their order -/

/-- Whether one path goes on through an earlier child than another, where the two part. -/
def Precedes (document : Document) (first second : List String) : Prop :=
  ∃ parent key key', [key, key'].Sublist (document.keys parent) ∧
    parent ++ [key] <+: first ∧ parent ++ [key'] <+: second

/-- Of two children without a namesake, the earlier one has the lower position. -/
theorem idxOf_lt_of_sublist {keys : List String} {key key' : String} (distinct : keys.Nodup)
    (order : [key, key'].Sublist keys) : keys.idxOf key < keys.idxOf key' := by
  have ordered : keys.Pairwise fun earlier later => keys.idxOf earlier < keys.idxOf later :=
    List.pairwise_iff_getElem.2 fun i j _ _ before => by
      rwa [distinct.idxOf_getElem, distinct.idxOf_getElem]
  exact List.pairwise_iff_forall_sublist.1 ordered order

/-- Where two paths part, no longer path leads to both of them. -/
theorem length_le_of_parted {first second parent other : List String} {key key' next next' : String}
    (apart : key ≠ key') (left : parent ++ [key] <+: first) (right : parent ++ [key'] <+: second)
    (left' : other ++ [next] <+: first) (right' : other ++ [next'] <+: second) :
    other.length ≤ parent.length := by
  by_contra longer
  have within {key next : String} {path : List String} (way : parent ++ [key] <+: path)
      (way' : other ++ [next] <+: path) : parent ++ [key] <+: other :=
    List.prefix_of_prefix_length_le way ((List.prefix_append _ _).trans way') (by simp; omega)
  have same := (List.prefix_of_prefix_length_le (within left left') (within right right')
    (by simp)).eq_of_length (by simp)
  exact apart (List.singleton_inj.1 (List.append_cancel_left same))

/-- Two paths part in one place. -/
theorem eq_of_parted {first second parent other : List String} {key key' next next' : String}
    (apart : key ≠ key') (apart' : next ≠ next')
    (left : parent ++ [key] <+: first) (right : parent ++ [key'] <+: second)
    (left' : other ++ [next] <+: first) (right' : other ++ [next'] <+: second) :
    parent = other ∧ key = next ∧ key' = next' := by
  have level : other.length = parent.length :=
    Nat.le_antisymm (length_le_of_parted apart left right left' right')
      (length_le_of_parted apart' left' right' left right)
  have same {key next : String} {path : List String} (way : parent ++ [key] <+: path)
      (way' : other ++ [next] <+: path) : parent = other ∧ [key] = [next] := by
    have whole := (List.prefix_of_prefix_length_le way way' (by simp [level])).eq_of_length
      (by simp [level])
    exact List.append_inj whole level.symm
  exact ⟨(same left left').1, List.singleton_inj.1 (same left left').2,
    List.singleton_inj.1 (same right right').2⟩

/-- Of two paths, one at most precedes the other. -/
theorem Precedes.asymm {first second : List String} (unique : document.root.UniqueKeys)
    (before : document.Precedes first second) : ¬ document.Precedes second first := by
  rintro ⟨other, next', next, order', right', left'⟩
  obtain ⟨parent, key, key', order, left, right⟩ := before
  have distinct := document.nodup_keys unique
  have apart : key ≠ key' := by simpa using (distinct parent).sublist order
  have apart' : next' ≠ next := by simpa using (distinct other).sublist order'
  obtain ⟨rfl, rfl, rfl⟩ := eq_of_parted apart apart'.symm left right left' right'
  have forth := idxOf_lt_of_sublist (distinct parent) order
  have back := idxOf_lt_of_sublist (distinct parent) order'
  omega

/-- The tree at a child is smaller than the one that it stands in. -/
theorem sizeOf_get?_lt {path : List String} {key : String} (listed : key ∈ document.keys path) :
    sizeOf (document.get? (path ++ [key])) < sizeOf (document.get? path) := by
  obtain ⟨node, found⟩ := Option.isSome_iff_exists.1 (isSome_get?_of_mem_keys listed)
  rw [get?_concat found, found]
  cases node with
  | object members =>
      rw [member?, Json.members, Option.some.sizeOf_spec, Json.object.sizeOf_spec]
      cases own : members.lookup key with
      | none =>
          rw [Option.none.sizeOf_spec]
          omega
      | some child =>
          obtain ⟨before, after, split, -⟩ := List.lookup_eq_some_iff.1 own
          have listed : (key, child) ∈ members := by simp [split]
          have smaller := List.sizeOf_lt_of_mem listed
          rw [Prod.mk.sizeOf_spec] at smaller
          rw [Option.some.sizeOf_spec]
          omega
  | _ => simp [keys, found, Json.members] at listed

/-- What holds of a path when it holds of all children holds of every path, since a
document has an end. -/
theorem induction_on_keys {motive : List String → Prop}
    (step : ∀ path, (∀ key ∈ document.keys path, motive (path ++ [key])) → motive path)
    (path : List String) : motive path := by
  generalize own : sizeOf (document.get? path) = size
  induction size using Nat.strongRecOn generalizing path with
  | _ size inductionHypothesis =>
      exact step path fun key listed =>
        inductionHypothesis _ (own ▸ sizeOf_get?_lt listed) _ rfl

/-- Each listed leaf precedes the ones behind it. -/
theorem pairwise_precedes_leaves (unique : document.root.UniqueKeys) (base : List String) :
    ((document.leaves base).map Leaf.path).Pairwise document.Precedes := by
  induction base using document.induction_on_keys with
  | step base inductionHypothesis =>
      cases held : document.leafValue? base with
      | some value =>
          rw [leaves_of_leafValue? held]
          exact List.pairwise_singleton _ _
      | none =>
          rw [leaves_eq_flatMap unique held, List.map_flatMap, List.pairwise_flatMap]
          refine ⟨inductionHypothesis, List.pairwise_iff_forall_sublist.2 ?_⟩
          intro key key' order first earlier second later
          have below {key : String} {path : List String}
              (listed : path ∈ (document.leaves (base ++ [key])).map Leaf.path) :
              base ++ [key] <+: path := by
            obtain ⟨leaf, member, rfl⟩ := List.mem_map.1 listed
            obtain ⟨rest, stands, -⟩ := exists_of_mem_leaves member
            exact ⟨rest, stands.symm⟩
          exact ⟨base, key, key', order, below earlier, below later⟩

/-- The listed leaves stand at different places. -/
theorem nodup_leaves (unique : document.root.UniqueKeys) (base : List String) :
    ((document.leaves base).map Leaf.path).Nodup := by
  refine (pairwise_precedes_leaves unique base).imp ?_
  rintro first _ before rfl
  exact before.asymm unique before

/-- The leaves that are listed below a base are exactly the topmost nodes there that have a
value and are reached through children. Each place is listed once, a place that precedes
another in front of it, and each leaf has the value and the type that stand at its place. -/
theorem lists_leaves (unique : document.root.UniqueKeys) (base : List String) :
    (∀ path, path ∈ (document.leaves base).map Leaf.path ↔
        ∃ rest, path = base ++ rest ∧ document.IsLeafBelow base rest) ∧
      ((document.leaves base).map Leaf.path).Nodup ∧
      ((document.leaves base).map Leaf.path).Pairwise (fun first second =>
        document.Precedes first second ∧ ¬ document.Precedes second first) ∧
      ∀ leaf ∈ document.leaves base,
        document.leafValue? leaf.path = some leaf.value ∧
          leaf.kind = document.leafKind? leaf.path := by
  refine ⟨fun path => ⟨fun listed => ?_, ?_⟩, nodup_leaves unique base,
    (pairwise_precedes_leaves unique base).imp fun before => ⟨before, before.asymm unique⟩,
    fun leaf listed => eq_of_mem_leaves unique listed⟩
  · obtain ⟨leaf, member, rfl⟩ := List.mem_map.1 listed
    exact isLeafBelow_of_mem_leaves unique member
  · rintro ⟨rest, rfl, below⟩
    obtain ⟨leaf, listed, stands⟩ := below.exists_leaf unique
    exact List.mem_map.2 ⟨leaf, listed, stands⟩

/-- A darker gray stands in front of a lighter one and is listed first. What stands below the
value of a leaf is not listed, nor is what describes the ramp. -/
theorem lists_leaves_grays :
    ∃ document : Document, document.root.UniqueKeys ∧
      (document.get? ["color", "gray", "900", "hover"]).isSome ∧
      (document.get? ["color", "gray", "$extensions"]).isSome ∧
      document.IsLeafBelow ["color"] ["gray", "900"] ∧
      document.IsLeafBelow ["color"] ["gray", "100"] ∧
      ¬ document.IsLeafBelow ["color"] ["gray", "900", "hover"] ∧
      ¬ document.IsLeafBelow ["color"] ["gray", "$extensions"] ∧
      document.Precedes ["color", "gray", "900"] ["color", "gray", "100"] ∧
      ¬ document.Precedes ["color", "gray", "100"] ["color", "gray", "900"] ∧
      document.leafKind? ["color", "gray", "900"] = some "color" := by
  let document : Document := ⟨"tokens", .object [("color", .object [("gray", .object
    [("$extensions", .object [("$value", .text "warm")]),
      ("900", .object [("$value", .text "#000000"), ("$type", .text "color"),
        ("hover", .object [("$value", .text "#333333")])]),
      ("100", .object [("$value", .text "#eeeeee")])])])]⟩
  have unique : document.root.UniqueKeys := by
    simp [document, Json.UniqueKeys, Json.UniqueKeysMembers]
  obtain ⟨listed, -, ordered, holds⟩ := lists_leaves unique ["color"]
  have leaves : document.leaves ["color"] =
      [⟨["color", "gray", "900"], .text "#000000", some "color"⟩,
        ⟨["color", "gray", "100"], .text "#eeeeee", none⟩] := rfl
  rw [leaves] at listed ordered holds
  have below {rest : List String} :
      document.IsLeafBelow ["color"] rest ↔
        rest = ["gray", "900"] ∨ rest = ["gray", "100"] := by
    have place := listed ("color" :: rest)
    simp only [List.map_cons, List.map_nil, List.mem_cons, List.cons.injEq, true_and,
      List.singleton_append, exists_eq_left', List.not_mem_nil, or_false] at place
    exact place.symm
  have order := (List.pairwise_cons.1 ordered).1 _ List.mem_cons_self
  exact ⟨document, unique, rfl, rfl, below.2 (.inl rfl), below.2 (.inr rfl),
    fun deeper => by simpa using below.1 deeper, fun metadata => by simpa using below.1 metadata,
    order.1, order.2, ((holds _ List.mem_cons_self).2).symm⟩

end Document

end Legible
