import Std.Data.TreeMap
import Std.Data.TreeSet
import Legible.Property.Map

/-!
# The dependency graph

An edge leads from a property to each property that was derived from it. What is
affected by a change is everything that can be reached along edges; on graphs with
cycles as well, since every property is followed once.
-/

namespace Legible

open Property

/-- For each property, the properties derived from it. -/
structure DependencyGraph where
  dependents : Std.TreeMap Name (Std.TreeSet Name)

namespace DependencyGraph

/-- The graph without edges. -/
def empty : DependencyGraph := ⟨∅⟩

/-- The properties derived from a property, in order. -/
def dependentsOf (graph : DependencyGraph) (name : Name) : List Name :=
  (graph.dependents.getD name ∅).toList

/-- The graph with one more edge. -/
def addEdge (graph : DependencyGraph) (input dependent : Name) : DependencyGraph :=
  ⟨graph.dependents.insert input ((graph.dependents.getD input ∅).insert dependent)⟩

/-- The graph with more edges. -/
def addEdges (graph : DependencyGraph) (edges : List (Name × Name)) : DependencyGraph :=
  edges.foldl (fun graph edge => graph.addEdge edge.1 edge.2) graph

/-- The edges of a graph, in order. -/
def edges (graph : DependencyGraph) : List (Name × Name) :=
  graph.dependents.toList.flatMap fun (input, dependents) =>
    dependents.toList.map fun dependent => (input, dependent)

/-- The graph of what a map was derived from. -/
def ofMap (map : PropertyMap) : DependencyGraph :=
  empty.addEdges <| map.origins.flatMap fun (name, origin) =>
    origin.inputs.toList.map fun input => (input, name)

/-- The edges of both graphs. -/
def union (first second : DependencyGraph) : DependencyGraph := first.addEdges second.edges

/-- How many properties have dependents. -/
def size (graph : DependencyGraph) : Nat := graph.dependents.size

/-- Follows the names of a queue. Each step takes one name; a name that is new puts
its dependents at the end. `fuel` counts the steps that are left. -/
def follow (graph : DependencyGraph) : (fuel : Nat) → (queue : List Name) →
    (seen : Std.TreeSet Name) → Std.TreeSet Name
  | 0, _, seen => seen
  | _ + 1, [], seen => seen
  | fuel + 1, name :: queue, seen =>
      if seen.contains name then graph.follow fuel queue seen
      else graph.follow fuel (queue ++ graph.dependentsOf name) (seen.insert name)

/-- The roots and everything derived from them. A name enters the queue as a root or
along an edge whose source is new, so there are no more steps than roots and edges. -/
def affected (graph : DependencyGraph) (roots : List Name) : Std.TreeSet Name :=
  graph.follow (roots.length + graph.edges.length) roots ∅

end DependencyGraph

end Legible
