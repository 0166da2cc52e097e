import Legible.Proofs.Property.Map
import Legible.Watch.Graph
import Mathlib.Data.List.Basic
import Mathlib.Logic.Relation

/-!
# What a search of the dependency graph visits

A search that comes to its end has seen every name of its queue and, with a name, whatever
is derived from it, and it does not leave what is closed under the edges. The fuel of the
search for what is affected covers its roots and the edges of the graph, and a name uses up
one or the other when it is visited. So that search comes to its end, and what is affected
is what can be reached from the roots along edges, on graphs with cycles as well.
-/

namespace Legible.DependencyGraph

open Property

variable {graph : DependencyGraph}

/-! ## Searches that come to their end -/

/-- A search from a queue and a set of seen names that comes to its end, and what it has found
by then. -/
inductive Searches (graph : DependencyGraph) :
    List Name → Std.TreeSet Name → Std.TreeSet Name → Prop where
  /-- No name is left. -/
  | rest {seen} : Searches graph [] seen seen
  /-- The first name has been seen. -/
  | skip {name queue seen found} (old : name ∈ seen) (later : Searches graph queue seen found) :
      Searches graph (name :: queue) seen found
  /-- The first name is new, so its dependents are searched after the others. -/
  | visit {name queue seen found} (new : name ∉ seen)
      (later : Searches graph (queue ++ graph.dependentsOf name) (seen.insert name) found) :
      Searches graph (name :: queue) seen found

/-- A set of names with all their dependents. -/
def Closed (graph : DependencyGraph) (names : Std.TreeSet Name) : Prop :=
  ∀ name ∈ names, ∀ dependent ∈ graph.dependentsOf name, dependent ∈ names

namespace Searches

variable {queue : List Name} {seen found : Std.TreeSet Name} {name : Name}

/-- A search finds one set of names: which way it goes is up to its first name. -/
theorem unique {other : Std.TreeSet Name} (search : graph.Searches queue seen found)
    (again : graph.Searches queue seen other) : found = other := by
  induction search with
  | rest =>
      cases again
      rfl
  | skip old _ inductionHypothesis =>
      cases again with
      | skip _ later => exact inductionHypothesis later
      | visit new _ => exact absurd old new
  | visit new _ inductionHypothesis =>
      cases again with
      | skip old _ => exact absurd old new
      | visit _ later => exact inductionHypothesis later

/-- What was seen stays seen. -/
theorem mem_of_seen (search : graph.Searches queue seen found) (member : name ∈ seen) :
    name ∈ found := by
  induction search with
  | rest => exact member
  | skip _ _ inductionHypothesis => exact inductionHypothesis member
  | visit _ _ inductionHypothesis =>
      exact inductionHypothesis (Std.TreeSet.mem_insert.2 (.inr member))

/-- What stands in the queue is visited. -/
theorem mem_of_queued (search : graph.Searches queue seen found) (queued : name ∈ queue) :
    name ∈ found := by
  induction search with
  | rest => cases queued
  | skip old later inductionHypothesis =>
      rcases List.mem_cons.1 queued with rfl | behind
      · exact later.mem_of_seen old
      · exact inductionHypothesis behind
  | visit _ later inductionHypothesis =>
      rcases List.mem_cons.1 queued with rfl | behind
      · exact later.mem_of_seen Std.TreeSet.mem_insert_self
      · exact inductionHypothesis (List.mem_append_left _ behind)

/-- What is found is closed, if the dependents of the names that were seen before were seen or
stood in the queue. -/
theorem closed (search : graph.Searches queue seen found)
    (pending : ∀ name ∈ seen, ∀ dependent ∈ graph.dependentsOf name,
      dependent ∈ seen ∨ dependent ∈ queue) : graph.Closed found := by
  induction search with
  | rest =>
      intro name member dependent edge
      exact (pending name member dependent edge).resolve_right List.not_mem_nil
  | skip old _ inductionHypothesis =>
      refine inductionHypothesis fun name member dependent edge => ?_
      rcases pending name member dependent edge with known | queued
      · exact .inl known
      · rcases List.mem_cons.1 queued with rfl | later
        · exact .inl old
        · exact .inr later
  | visit _ _ inductionHypothesis =>
      refine inductionHypothesis fun name member dependent edge => ?_
      rw [List.mem_append, Std.TreeSet.mem_insert]
      rcases Std.TreeSet.mem_insert.1 member with own | known
      · rw [Std.LawfulEqCmp.compare_eq_iff_eq] at own
        exact .inr (.inr (own ▸ edge))
      · rcases pending name known dependent edge with known | queued
        · exact .inl (.inr known)
        · rcases List.mem_cons.1 queued with rfl | later
          · exact .inl (.inl Std.ReflCmp.compare_self)
          · exact .inr (.inl later)

/-- A search does not leave what is closed under the edges. -/
theorem subset {holds : Name → Prop} (search : graph.Searches queue seen found)
    (closed : ∀ name, holds name → ∀ dependent ∈ graph.dependentsOf name, holds dependent)
    (queued : ∀ name ∈ queue, holds name) (known : ∀ name ∈ seen, holds name) :
    ∀ name ∈ found, holds name := by
  induction search with
  | rest => exact known
  | skip _ _ inductionHypothesis =>
      exact inductionHypothesis (fun name later => queued name (List.mem_cons_of_mem _ later)) known
  | @visit head queue seen found _ _ inductionHypothesis =>
      have own := queued head List.mem_cons_self
      refine inductionHypothesis (fun name member => ?_) fun name member => ?_
      · rcases List.mem_append.1 member with later | edge
        · exact queued name (List.mem_cons_of_mem _ later)
        · exact closed head own name edge
      · rcases Std.TreeSet.mem_insert.1 member with same | before
        · rw [Std.LawfulEqCmp.compare_eq_iff_eq] at same
          exact same ▸ own
        · exact known name before

end Searches

/-! ## Edges -/

theorem mem_dependentsOf {name dependent : Name} :
    dependent ∈ graph.dependentsOf name ↔ dependent ∈ graph.dependents.getD name ∅ := by
  rw [dependentsOf, Std.TreeSet.mem_toList]

/-- An added edge is there, and so are the others. -/
theorem mem_dependentsOf_addEdge {input dependent name other : Name} :
    other ∈ (graph.addEdge input dependent).dependentsOf name ↔
      (input = name ∧ dependent = other) ∨ other ∈ graph.dependentsOf name := by
  rw [mem_dependentsOf, mem_dependentsOf, addEdge, Std.TreeMap.getD_insert]
  by_cases same : input = name
  · subst same
    simp [Std.TreeSet.mem_insert]
  · simp [same]

theorem mem_dependentsOf_addEdges {edges : List (Name × Name)} {name other : Name} :
    other ∈ (graph.addEdges edges).dependentsOf name ↔
      (name, other) ∈ edges ∨ other ∈ graph.dependentsOf name := by
  rw [addEdges]
  induction edges generalizing graph with
  | nil => simp
  | cons edge rest inductionHypothesis =>
      rw [List.foldl_cons, inductionHypothesis, mem_dependentsOf_addEdge, List.mem_cons,
        Prod.ext_iff]
      tauto

/-- An edge of a map's graph leads from an input of a property to the property. -/
theorem mem_dependentsOf_ofMap {map : PropertyMap} {name other : Name} :
    other ∈ (ofMap map).dependentsOf name ↔
      ∃ origin, map.origin? other = some origin ∧ name ∈ origin.inputs := by
  rw [ofMap, mem_dependentsOf_addEdges]
  have none : other ∉ empty.dependentsOf name := by
    simp [dependentsOf, empty]
  simp only [none, or_false, List.mem_flatMap, List.mem_map, Prod.mk.injEq, Prod.exists,
    PropertyMap.mem_origins, Std.TreeSet.mem_toList]
  constructor
  · rintro ⟨_, origin, derived, _, input, rfl, rfl⟩
    exact ⟨origin, derived, input⟩
  · rintro ⟨origin, derived, input⟩
    exact ⟨other, origin, derived, name, input, rfl, rfl⟩

/-- The edges of a graph lead to dependents, and all of them do. -/
theorem mem_edges {name other : Name} :
    (name, other) ∈ graph.edges ↔ other ∈ graph.dependentsOf name := by
  rw [mem_dependentsOf, edges, List.mem_flatMap]
  constructor
  · rintro ⟨⟨input, dependents⟩, listed, member⟩
    obtain ⟨dependent, own, same⟩ := List.mem_map.1 member
    cases same
    rw [Std.TreeMap.getD_eq_getD_getElem?, Std.TreeMap.mem_toList_iff_getElem?_eq_some.1 listed]
    exact Std.TreeSet.mem_toList.1 own
  · intro member
    cases held : graph.dependents[name]? with
    | none =>
        rw [Std.TreeMap.getD_eq_getD_getElem?, held] at member
        cases Std.TreeSet.not_mem_emptyc member
    | some dependents =>
        rw [Std.TreeMap.getD_eq_getD_getElem?, held] at member
        exact ⟨(name, dependents), Std.TreeMap.mem_toList_iff_getElem?_eq_some.2 held,
          List.mem_map.2 ⟨other, Std.TreeSet.mem_toList.2 member, rfl⟩⟩

/-- A union has the edges of both graphs. -/
theorem mem_dependentsOf_union {second : DependencyGraph} {name other : Name} :
    other ∈ (graph.union second).dependentsOf name ↔
      other ∈ second.dependentsOf name ∨ other ∈ graph.dependentsOf name := by
  rw [union, mem_dependentsOf_addEdges, mem_edges]

/-! ## Fuel -/

/-- The edges whose source has not been seen. -/
def unseenEdges (graph : DependencyGraph) (seen : Std.TreeSet Name) : List (Name × Name) :=
  graph.edges.filter fun edge => !seen.contains edge.1

/-- Each dependent of a name is the end of an edge from it. -/
theorem sublist_edges (graph : DependencyGraph) (name : Name) :
    ((graph.dependentsOf name).map fun dependent => (name, dependent)).Sublist graph.edges := by
  rw [dependentsOf, Std.TreeMap.getD_eq_getD_getElem?]
  cases held : graph.dependents[name]? with
  | none => exact List.nil_sublist _
  | some dependents =>
      rw [edges, List.flatMap_def]
      refine List.sublist_flatten_of_mem (List.mem_map.2 ⟨(name, dependents), ?_, rfl⟩)
      exact Std.TreeMap.mem_toList_iff_getElem?_eq_some.2 held

/-- A name that is new uses up as many unseen edges as it has dependents. -/
theorem length_unseenEdges_insert {seen : Std.TreeSet Name} {name : Name}
    (new : seen.contains name = false) :
    (graph.unseenEdges (seen.insert name)).length + (graph.dependentsOf name).length ≤
      (graph.unseenEdges seen).length := by
  have own : (graph.dependentsOf name).length ≤
      ((graph.unseenEdges seen).filter fun edge => edge.1 == name).length := by
    have listed := ((graph.sublist_edges name).filter fun edge => !seen.contains edge.1).filter
      fun edge => edge.1 == name
    simpa [List.filter_map, Function.comp_def, new, unseenEdges] using listed.length_le
  have others : graph.unseenEdges (seen.insert name) =
      (graph.unseenEdges seen).filter fun edge => !(edge.1 == name) := by
    rw [unseenEdges, unseenEdges, List.filter_filter]
    refine List.filter_congr fun edge _ => ?_
    have same : (compare name edge.1 == .eq) = (edge.1 == name) := by
      rw [Bool.eq_iff_iff, beq_iff_eq, beq_iff_eq, Std.LawfulEqCmp.compare_eq_iff_eq, eq_comm]
    rw [Std.TreeSet.contains_insert, Bool.not_or, same]
  have both := List.length_eq_length_filter_add (l := graph.unseenEdges seen) (·.1 == name)
  rw [others]
  omega

/-- With fuel for its queue and for the edges that it has not seen, a search comes to its
end. -/
theorem searches_follow {fuel : Nat} {queue : List Name} {seen : Std.TreeSet Name}
    (enough : queue.length + (graph.unseenEdges seen).length ≤ fuel) :
    graph.Searches queue seen (graph.follow fuel queue seen) := by
  fun_induction graph.follow fuel queue seen with
  | case1 queue seen =>
      have none : queue = [] := List.length_eq_zero_iff.1 (by omega)
      rw [none]
      exact .rest
  | case2 => exact .rest
  | case3 fuel seen head queue old inductionHypothesis =>
      exact .skip (Std.TreeSet.mem_iff_contains.2 old)
        (inductionHypothesis (by simp at enough; omega))
  | case4 fuel seen head queue new inductionHypothesis =>
      have fewer := graph.length_unseenEdges_insert (Bool.eq_false_iff.2 new)
      exact .visit (fun old => new (Std.TreeSet.mem_iff_contains.1 old))
        (inductionHypothesis (by simp at enough ⊢; omega))

/-! ## What is affected -/

/-- From any roots, the search for what is affected comes to its end. -/
theorem searches_affected (graph : DependencyGraph) (roots : List Name) :
    graph.Searches roots ∅ (graph.affected roots) :=
  searches_follow (Nat.add_le_add_left (List.length_filter_le _ _) _)

/-- Every root is affected. -/
theorem mem_affected_of_root {roots : List Name} {name : Name} (root : name ∈ roots) :
    name ∈ graph.affected roots :=
  (graph.searches_affected roots).mem_of_queued root

/-- What is affected affects its dependents. -/
theorem closed_affected (graph : DependencyGraph) (roots : List Name) :
    graph.Closed (graph.affected roots) :=
  (graph.searches_affected roots).closed fun _ member =>
    (Std.TreeSet.not_mem_emptyc member).elim

/-- What is affected is in every set that holds the roots and is closed under the edges. -/
theorem affected_subset {holds : Name → Prop} {roots : List Name}
    (closed : ∀ name, holds name → ∀ dependent ∈ graph.dependentsOf name, holds dependent)
    (rooted : ∀ name ∈ roots, holds name) : ∀ name ∈ graph.affected roots, holds name :=
  (graph.searches_affected roots).subset closed rooted fun _ member =>
    (Std.TreeSet.not_mem_emptyc member).elim

/-- A property that is derived from an affected one is affected. -/
theorem mem_affected_of_input {map : PropertyMap} {roots : List Name} {name input : Name}
    {origin : Origin} (derived : map.origin? name = some origin) (listed : input ∈ origin.inputs)
    (reached : input ∈ (ofMap map).affected roots) : name ∈ (ofMap map).affected roots :=
  (ofMap map).closed_affected roots input reached name
    (mem_dependentsOf_ofMap.2 ⟨origin, derived, listed⟩)

/-! ## Reachability -/

/-- Whether an edge leads from one name to another. -/
def Edge (graph : DependencyGraph) (source target : Name) : Prop :=
  target ∈ graph.dependentsOf source

/-- What is affected is what can be reached from a root. -/
theorem mem_affected_iff {roots : List Name} {name : Name} :
    name ∈ graph.affected roots ↔ ∃ root ∈ roots, Relation.ReflTransGen graph.Edge root name := by
  constructor
  · have rooted : ∀ root ∈ roots, ∃ start ∈ roots, Relation.ReflTransGen graph.Edge start root :=
      fun root listed => ⟨root, listed, .refl⟩
    refine affected_subset (fun source reached target edge => ?_) rooted name
    obtain ⟨root, listed, reached⟩ := reached
    exact ⟨root, listed, reached.tail edge⟩
  · rintro ⟨root, listed, reached⟩
    induction reached with
    | refl => exact mem_affected_of_root listed
    | tail _ edge inductionHypothesis =>
        exact graph.closed_affected roots _ inductionHypothesis _ edge

/-- An edge of a union is one of either graph. -/
theorem edge_union_iff {second : DependencyGraph} {source target : Name} :
    (graph.union second).Edge source target ↔ graph.Edge source target ∨ second.Edge source target :=
  mem_dependentsOf_union.trans or_comm

/-- On the edges of two graphs, a search from any roots comes to its end with what is affected
and nothing else, and these are the names that can be reached from a root along edges of
either graph. -/
theorem affected_reaches (first second : DependencyGraph) (roots : List Name) :
    (∀ found, (first.union second).Searches roots ∅ found ↔
        found = (first.union second).affected roots) ∧
      ∀ name, name ∈ (first.union second).affected roots ↔
        ∃ root ∈ roots, Relation.ReflTransGen
          (fun source target => first.Edge source target ∨ second.Edge source target) root name := by
  refine ⟨fun found => ⟨fun search => search.unique (searches_affected _ roots), ?_⟩,
    fun name => ?_⟩
  · rintro rfl
    exact searches_affected _ roots
  · have edges : (first.union second).Edge = fun source target =>
        first.Edge source target ∨ second.Edge source target :=
      funext fun source => funext fun target => propext edge_union_iff
    rw [mem_affected_iff, edges]

/-- Two graphs can have a cycle together. -/
example : (((empty.addEdge ⟨"--a"⟩ ⟨"--b"⟩).union (empty.addEdge ⟨"--b"⟩ ⟨"--a"⟩)).affected
    [⟨"--a"⟩, ⟨"--a"⟩]).toList = [⟨"--a"⟩, ⟨"--b"⟩] := by
  decide

end Legible.DependencyGraph
