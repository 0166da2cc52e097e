import Legible.Json.Basic

/-!
# Paths into JSON trees

A path is a list of member keys. A node can be looked up, placed and erased at the
end of a path. Placing creates missing nodes on the way and replaces nodes on the
way that are not objects; erasing does nothing unless the whole way exists.
-/

namespace Legible.Json

/-- The node at the end of a path. -/
def at? (node : Json) : List String → Option Json
  | [] => some node
  | key :: rest => (node.member? key).bind fun child => child.at? rest

/-- Puts `value` at the end of a path. -/
def place (node value : Json) : List String → Json
  | [] => value
  | key :: rest =>
      .object (Members.set key (place ((node.member? key).getD empty) value rest) node.members)

/-- Drops the member at the end of a path. -/
def eraseAt (node : Json) : List String → Json
  | [] => node
  | [key] =>
      match node with
      | .object members => .object (Members.erase key members)
      | other => other
  | key :: next :: rest =>
      match node.member? key with
      | some child => .object (Members.set key (child.eraseAt (next :: rest)) node.members)
      | none => node

/-- A path in two parts leads where the second part leads from the first. -/
theorem at?_append (node : Json) (first second : List String) :
    node.at? (first ++ second) = (node.at? first).bind fun child => child.at? second := by
  induction first generalizing node with
  | nil => simp [at?]
  | cons key rest inductionHypothesis =>
      simp only [List.cons_append, at?]
      cases node.member? key <;> simp [inductionHypothesis]

/-- The placed node is found where it was placed. -/
theorem at?_place (node value : Json) (path : List String) :
    (node.place value path).at? path = some value := by
  induction path generalizing node with
  | nil => rfl
  | cons key rest inductionHypothesis =>
      simp [place, at?, member?, members, inductionHypothesis]

end Legible.Json
