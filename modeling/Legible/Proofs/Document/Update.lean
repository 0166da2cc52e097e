import Legible.Proofs.Document.Leaves

/-!
# Reading after writing

What a writer of documents puts at a path is read there, what it takes away is gone, and
nothing that stands apart from the path changes. A node that is put where none was and
taken away again leaves the document as it was, the order of its keys included.
-/

namespace Legible

namespace Json

namespace Members

/-- Assigning what a key holds already changes nothing. -/
theorem set_of_lookup {key : String} {value : Json} {members : List (String × Json)}
    (held : members.lookup key = some value) : set key value members = members := by
  obtain ⟨before, after, rfl, other⟩ := List.lookup_eq_some_iff.1 held
  refine set_append fun earlier => ?_
  obtain ⟨member, listed, same⟩ := List.mem_map.1 earlier
  simpa [same] using other member listed

/-- Of two assignments to one key, the second counts. -/
theorem set_set (key : String) (first second : Json) (members : List (String × Json)) :
    set key second (set key first members) = set key second members := by
  induction members with
  | nil => simp [set]
  | cons member rest inductionHypothesis =>
      obtain ⟨other, kept⟩ := member
      by_cases same : other = key
      · simp [set, same]
      · simp [set, same, inductionHypothesis]

/-- Where a key is erased, the other keys stay in their order. -/
theorem map_fst_erase (key : String) (members : List (String × Json)) :
    (erase key members).map Prod.fst = (members.map Prod.fst).filter fun other => other != key := by
  rw [erase, List.filter_map]
  rfl

/-- Erasing a key that is not there changes nothing. -/
theorem erase_of_absent {key : String} {members : List (String × Json)}
    (absent : members.lookup key = none) : erase key members = members := by
  refine List.filter_eq_self.2 fun member listed => ?_
  rw [bne_comm]
  exact List.lookup_eq_none_iff.1 absent member listed

/-- A new key comes after all others. -/
theorem set_of_absent {key : String} (value : Json) {members : List (String × Json)}
    (absent : members.lookup key = none) : set key value members = members ++ [(key, value)] := by
  induction members with
  | nil => rfl
  | cons member rest inductionHypothesis =>
      obtain ⟨other, kept⟩ := member
      rw [List.lookup_cons] at absent
      split at absent
      · cases absent
      · next different =>
          have different : other ≠ key := fun same => by simp [same] at different
          rw [set, if_neg different, inductionHypothesis absent]
          rfl

/-- A key that is new and then erased leaves the members as they were. -/
theorem erase_set_of_absent {key : String} (value : Json) {members : List (String × Json)}
    (absent : members.lookup key = none) : erase key (set key value members) = members := by
  have kept := erase_of_absent absent
  rw [erase] at kept
  rw [set_of_absent value absent, erase, List.filter_append, kept]
  simp

end Members

/-- What has a member is an object. -/
theorem object_members {node child : Json} {key : String} (held : node.member? key = some child) :
    object node.members = node := by
  cases node with
  | object members => rfl
  | _ => cases held

/-! ## What is found after erasing -/

variable {node child : Json}

/-- Erasing further down erases in the child that leads there. -/
theorem eraseAt_cons {key : String} (held : node.member? key = some child)
    (front : List String) (last : String) :
    node.eraseAt (key :: (front ++ [last])) =
      object (Members.set key (child.eraseAt (front ++ [last])) node.members) := by
  cases front <;> simp [eraseAt, held]

/-- Erasing changes nothing when the first step leads nowhere. -/
theorem eraseAt_of_member?_eq_none {key : String} (missing : node.member? key = none)
    (front : List String) (last : String) :
    node.eraseAt (key :: (front ++ [last])) = node := by
  cases front <;> simp [eraseAt, missing]

/-- The node that an erased one stood in is as it was without it. -/
theorem at?_eraseAt (node : Json) (parent : List String) (key : String) :
    (node.eraseAt (parent ++ [key])).at? parent =
      (node.at? parent).map fun child => child.eraseAt [key] := by
  induction parent generalizing node with
  | nil => rfl
  | cons first rest inductionHypothesis =>
      rw [List.cons_append]
      cases held : node.member? first with
      | none =>
          rw [eraseAt_of_member?_eq_none held, at?, held]
          rfl
      | some child =>
          rw [eraseAt_cons held, at?, member?, members, Members.lookup_set_self, at?, held]
          exact inductionHypothesis child

/-- Beside an erased node nothing changes. -/
theorem at?_eraseAt_of_apart (node : Json) {parent other : List String} {key : String}
    (apart : ¬ parent ++ [key] <+: other) (apart' : ¬ other <+: parent ++ [key]) :
    (node.eraseAt (parent ++ [key])).at? other = node.at? other := by
  induction parent generalizing node other with
  | nil =>
      cases other with
      | nil => exact absurd List.nil_prefix apart'
      | cons next tail =>
          have different : next ≠ key := by
            rintro rfl
            exact apart ⟨tail, rfl⟩
          cases node with
          | object members =>
              rw [List.nil_append, eraseAt, at?, at?, member?, member?]
              simp only [Json.members, Members.lookup_erase_of_ne _ different]
          | _ => rfl
  | cons first rest inductionHypothesis =>
      cases other with
      | nil => exact absurd List.nil_prefix apart'
      | cons next tail =>
          rw [List.cons_append] at apart apart' ⊢
          cases held : node.member? first with
          | none => rw [eraseAt_of_member?_eq_none held]
          | some child =>
              rw [eraseAt_cons held, at?, at?, member?, members]
              by_cases same : next = first
              · subst same
                rw [List.prefix_cons_inj] at apart apart'
                rw [Members.lookup_set_self, held]
                exact inductionHypothesis child apart apart'
              · rw [Members.lookup_set_of_ne _ _ same]
                rfl

/-- Erasing what is not there changes nothing. -/
theorem eraseAt_of_at?_eq_none (node : Json) {parent : List String} {key : String}
    (missing : node.at? (parent ++ [key]) = none) : node.eraseAt (parent ++ [key]) = node := by
  induction parent generalizing node with
  | nil =>
      rw [List.nil_append, at?_singleton] at missing
      cases node with
      | object members => exact congrArg object (Members.erase_of_absent missing)
      | _ => rfl
  | cons first rest inductionHypothesis =>
      cases held : node.member? first with
      | none => exact eraseAt_of_member?_eq_none held rest key
      | some child =>
          rw [List.cons_append, at?, held, Option.bind_some] at missing
          rw [List.cons_append, eraseAt_cons held, inductionHypothesis child missing,
            Members.set_of_lookup held, object_members held]

/-- A node that is placed where an object had none, and then erased, leaves everything as it
was. -/
theorem eraseAt_place (node value : Json) {parent : List String} {key : String}
    {members : List (String × Json)} (way : node.at? parent = some (object members))
    (missing : node.at? (parent ++ [key]) = none) :
    (node.place value (parent ++ [key])).eraseAt (parent ++ [key]) = node := by
  induction parent generalizing node with
  | nil =>
      cases way
      rw [List.nil_append, at?_singleton] at missing
      rw [List.nil_append, place, eraseAt]
      exact congrArg object (Members.erase_set_of_absent _ missing)
  | cons first rest inductionHypothesis =>
      obtain ⟨child, held, way⟩ := Option.bind_eq_some_iff.1 way
      rw [List.cons_append, at?, held, Option.bind_some] at missing
      have placed : (node.place value (first :: (rest ++ [key]))).member? first =
          some (child.place value (rest ++ [key])) := by
        rw [place, held, member?]
        exact Members.lookup_set_self _ _ _
      rw [List.cons_append, eraseAt_cons placed, inductionHypothesis child way missing, place,
        Json.members, Members.set_set, Members.set_of_lookup held, object_members held]

end Json

namespace Document

open Json

/-- What becomes of a document when the node at a path is taken out of it. Nothing does
where there is no node, or at the root. -/
def without (document : Document) (path : List String) : Document :=
  if path = [] then document else { document with root := document.root.eraseAt path }

/-- What setting a leaf makes of a document. -/
structure SetsLeaf (path : List String) (value : Json) (before after : Document) : Prop where
  /-- The leaf holds the value. -/
  holds : after.leafValue? path = some value
  /-- The other children of its node are as they were, those included that describe it. -/
  children : ∀ key, key ≠ "$value" → after.get? (path ++ [key]) = before.get? (path ++ [key])
  /-- They are in the order in which they were. -/
  order : after.allKeys path =
    if "$value" ∈ before.allKeys path then before.allKeys path
    else before.allKeys path ++ ["$value"]
  outside : AgreesOutside path after before

/-- What replacing a node makes of a document. -/
structure SetsNode (path : List String) (node : Json) (before after : Document) : Prop where
  holds : after.get? path = some node
  outside : AgreesOutside path after before

/-- What taking out the child of a node under a key answers and makes of a document. -/
structure Removes (parent : List String) (key : String) (before : Document) : Prop where
  /-- The node is handed out as it was, with the document that is left. -/
  answers : before.remove? (parent ++ [key]) =
    (before.get? (parent ++ [key])).map fun node => (node, before.without (parent ++ [key]))
  gone : (before.without (parent ++ [key])).get? (parent ++ [key]) = none
  outside : AgreesOutside (parent ++ [key]) (before.without (parent ++ [key])) before
  /-- The siblings stay in their order. -/
  order : (before.without (parent ++ [key])).allKeys parent =
    (before.allKeys parent).filter fun other => other != key
  unchanged : before.remove? (parent ++ [key]) = none → before.without (parent ++ [key]) = before

theorem without_append (document : Document) (parent : List String) (key : String) :
    document.without (parent ++ [key]) =
      { document with root := document.root.eraseAt (parent ++ [key]) } :=
  if_neg (by simp)

theorem remove?_append (document : Document) (parent : List String) (key : String) :
    document.remove? (parent ++ [key]) =
      (document.get? (parent ++ [key])).map fun node =>
        (node, document.without (parent ++ [key])) := by
  rw [without_append]
  cases parent <;> rfl

theorem setNode_append (document : Document) (parent : List String) (key : String) (node : Json) :
    document.setNode (parent ++ [key]) node =
      { document with root := document.root.place node (parent ++ [key]) } := by
  cases parent <;> rfl

variable (document : Document)

theorem setsLeaf_setLeaf (path : List String) (value : Json) :
    SetsLeaf path value document (document.setLeaf path value) where
  holds := by rw [leafValue?_eq, setLeaf, at?_place]
  children key other := by
    have apart {first second : String} (different : first ≠ second) :
        ¬ path ++ [first] <+: path ++ [second] := by
      rw [List.prefix_append_right_inj, List.cons_prefix_cons]
      exact fun same => different same.1
    exact get?_setLeaf_of_apart (apart other.symm) (apart other)
  order := by
    obtain ⟨child, members⟩ := document.members_setLeaf path "$value" [] value rfl
    rw [allKeys, members, Members.map_fst_set]
    rfl
  outside other apart apart' := by
    refine get?_setLeaf_of_apart (fun above => ?_) fun above => ?_
    · exact apart ((List.prefix_append _ _).trans above)
    · rcases List.prefix_concat_iff.1 above with same | above
      · exact apart (same ▸ List.prefix_append _ _)
      · exact apart' above

theorem setsNode_setNode (parent : List String) (key : String) (node : Json) :
    SetsNode (parent ++ [key]) node document (document.setNode (parent ++ [key]) node) where
  holds := by rw [setNode_append, get?, at?_place]
  outside other apart apart' := by
    rw [setNode_append]
    exact at?_place_of_apart apart apart'

theorem removes_without (parent : List String) (key : String) : Removes parent key document where
  answers := document.remove?_append parent key
  gone := by
    rw [without_append, get?, at?_append, at?_eraseAt]
    cases document.root.at? parent with
    | none => rfl
    | some node =>
        rw [Option.map_some, Option.bind_some, at?_singleton]
        cases node with
        | object members => exact Members.lookup_erase_self key members
        | _ => rfl
  outside other apart apart' := by
    rw [without_append]
    exact at?_eraseAt_of_apart document.root apart apart'
  order := by
    rw [without_append, allKeys, allKeys, get?, get?, at?_eraseAt]
    cases document.root.at? parent with
    | none => rfl
    | some node =>
        cases node with
        | object members => exact Members.map_fst_erase key members
        | _ => rfl
  unchanged refused := by
    rw [remove?_append, Option.map_eq_none_iff] at refused
    rw [without_append, eraseAt_of_at?_eq_none _ refused]

/-- Writing to a document reads back and leaves everything else alone: a leaf that is set, a
node that is replaced, and a node that is taken out. Where a node is put in an object that had
none, taking it out again leaves the document as it was. -/
theorem updates_read_back (parent : List String) (key : String) (value node : Json) :
    SetsLeaf (parent ++ [key]) value document (document.setLeaf (parent ++ [key]) value) ∧
      SetsNode (parent ++ [key]) node document (document.setNode (parent ++ [key]) node) ∧
      Removes parent key document ∧
      (document.get? (parent ++ [key]) = none →
        (∀ place, place <+: parent → (document.get? place).any Json.isObject = true) →
        (document.setNode (parent ++ [key]) node).remove? (parent ++ [key]) =
          some (node, document)) := by
  refine ⟨document.setsLeaf_setLeaf _ value, document.setsNode_setNode parent key node,
    document.removes_without parent key, fun missing way => ?_⟩
  have placed := (document.setsNode_setNode parent key node).holds
  rw [remove?_append, placed, Option.map_some, without_append, setNode_append]
  obtain ⟨above, found, object⟩ := (Option.any_eq_true _ _).1 (way parent (List.prefix_refl parent))
  cases above with
  | object members => rw [eraseAt_place document.root node found missing]
  | _ => cases object

end Document

end Legible
