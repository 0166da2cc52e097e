import Legible.Json.Path
import Legible.Json.Reader

/-!
# Input documents

A document is a named JSON object whose leaves are objects with a `$value`, and
perhaps a `$type`. Keys that begin with `$` describe a node and are never part of
a path. Documents are values: a change gives a new document.
-/

namespace Legible

/-- A named JSON object. -/
structure Document where
  name : String
  root : Json

namespace Document

/-- Why a text is no document. -/
inductive Error where
  | malformed (name : String)
  | notAnObject (name : String)
  deriving DecidableEq, Repr

/-- The message of an error. -/
def Error.message : Error → String
  | .malformed name => "invalid JSON in " ++ name
  | .notAnObject name => name ++ ": top level must be an object"

/-- A leaf and where it stands. -/
structure Leaf where
  path : List String
  value : Json
  kind : Option String

/-- The document without members. -/
def empty (name : String) : Document := ⟨name, Json.empty⟩

/-- The document over a tree, which has to be an object. -/
def ofJson (name : String) (root : Json) : Except Error Document :=
  if root.isObject then .ok ⟨name, root⟩ else .error (.notAnObject name)

/-- The document that a JSON text spells; of a repeated key the last value counts. -/
def read (name text : String) : Except Error Document :=
  match Json.read? text with
  | some root => ofJson name root.unique
  | none => .error (.malformed name)

/-- Whether a key describes its node instead of leading to a child. -/
def isMetadata (key : String) : Bool :=
  key.toList.head? == some '$'

/-- The node at a path. -/
def get? (document : Document) (path : List String) : Option Json :=
  document.root.at? path

/-- The value of the leaf at a path. -/
def leafValue? (document : Document) (path : List String) : Option Json :=
  (document.get? path).bind fun node => node.member? "$value"

/-- The value of the leaf at a path, when it is a string. -/
def leafText? (document : Document) (path : List String) : Option String :=
  (document.leafValue? path).bind Json.text?

/-- The child keys of the object at a path, in document order. -/
def keys (document : Document) (path : List String) : List String :=
  match document.get? path with
  | some node => (node.members.map (·.1)).filter fun key => !isMetadata key
  | none => []

mutual

/-- The leaves at and below a node that stands at `path`, in document order. -/
def leavesOf (path : List String) : Json → List Leaf
  | .object members =>
      match members.lookup "$value" with
      | some value => [⟨path, value, (members.lookup "$type").bind Json.text?⟩]
      | none => leavesOfMembers path members
  | _ => []

/-- The leaves below the members of a node that stands at `path`. -/
def leavesOfMembers (path : List String) : List (String × Json) → List Leaf
  | [] => []
  | (key, child) :: rest =>
      (if isMetadata key then [] else leavesOf (path ++ [key]) child) ++ leavesOfMembers path rest

end

/-- The leaves at and below the node at a path, in document order. -/
def leaves (document : Document) (path : List String) : List Leaf :=
  match document.get? path with
  | some node => leavesOf path node
  | none => []

/-- Sets the value of the leaf at a path; what else describes the leaf stays. -/
def setLeaf (document : Document) (path : List String) (value : Json) : Document :=
  { document with root := document.root.place value (path ++ ["$value"]) }

/-- Replaces the node at a path. The root itself can only become another object. -/
def setNode (document : Document) (path : List String) (node : Json) : Document :=
  match path with
  | [] => if node.isObject then { document with root := node } else document
  | path => { document with root := document.root.place node path }

/-- Takes the node at a path out of the document. The root cannot be taken out. -/
def remove? (document : Document) (path : List String) : Option (Json × Document) :=
  match path with
  | [] => none
  | path =>
      (document.get? path).map fun node =>
        (node, { document with root := document.root.eraseAt path })

end Document

end Legible
