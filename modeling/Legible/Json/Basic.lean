/-!
# JSON trees that keep their order

Members of an object stand in the order they were written, because documents are
edited and written back. The member operations work on the plain list: an
assignment keeps the position of an existing key, a new key goes to the end, and
an erased key leaves the others as they stood.
-/

namespace Legible

namespace Json

/-- A JSON number: whole numbers stay whole. -/
inductive Number where
  | integer (value : Int)
  | real (value : Float)
  deriving DecidableEq, Repr

/-- The float nearest to a number. -/
def Number.toFloat : Number → Float
  | .integer value => Float.ofInt value
  | .real value => value

end Json

/-- A JSON tree. -/
inductive Json where
  | null
  | boolean (value : Bool)
  | number (value : Json.Number)
  | text (value : String)
  | array (items : List Json)
  | object (members : List (String × Json))
  deriving Inhabited

namespace Json

namespace Members

/-- Assigns `value` to `key`: in place when the key is there, else at the end. -/
def set (key : String) (value : Json) : List (String × Json) → List (String × Json)
  | [] => [(key, value)]
  | (other, kept) :: rest =>
      if other = key then (other, value) :: rest else (other, kept) :: set key value rest

/-- Drops `key`; the other members keep their order. -/
def erase (key : String) (members : List (String × Json)) : List (String × Json) :=
  members.filter fun member => member.1 != key

/-- Merges repeated keys: the last value, at the first position. -/
def collapse (members : List (String × Json)) : List (String × Json) :=
  members.foldl (fun kept member => set member.1 member.2 kept) []

/-- Reading back the key just assigned. -/
@[simp] theorem lookup_set_self (key : String) (value : Json) (members : List (String × Json)) :
    (set key value members).lookup key = some value := by
  induction members with
  | nil => simp [set]
  | cons member rest inductionHypothesis =>
      obtain ⟨other, kept⟩ := member
      by_cases same : other = key
      · simp [set, same]
      · have : (key == other) = false := by simpa using Ne.symm same
        simp [set, same, List.lookup_cons, this, inductionHypothesis]

/-- An assignment leaves every other key alone. -/
theorem lookup_set_of_ne {key other : String} (value : Json) (members : List (String × Json))
    (different : other ≠ key) : (set key value members).lookup other = members.lookup other := by
  induction members with
  | nil =>
      have : (other == key) = false := by simpa using different
      simp [set, List.lookup_cons, this]
  | cons member rest inductionHypothesis =>
      obtain ⟨current, kept⟩ := member
      by_cases same : current = key
      · subst same
        have : (other == current) = false := by simpa using different
        simp [set, List.lookup_cons, this]
      · simp only [set, same, if_false, List.lookup_cons, inductionHypothesis]

/-- An erased key is gone. -/
@[simp] theorem lookup_erase_self (key : String) (members : List (String × Json)) :
    (erase key members).lookup key = none := by
  induction members with
  | nil => rfl
  | cons member rest inductionHypothesis =>
      obtain ⟨other, kept⟩ := member
      by_cases same : other = key
      · simpa [erase, same] using inductionHypothesis
      · have : (key == other) = false := by simpa using Ne.symm same
        simpa [erase, same, List.lookup_cons, this] using inductionHypothesis

/-- Erasing leaves every other key alone. -/
theorem lookup_erase_of_ne {key other : String} (members : List (String × Json))
    (different : other ≠ key) : (erase key members).lookup other = members.lookup other := by
  induction members with
  | nil => rfl
  | cons member rest inductionHypothesis =>
      obtain ⟨current, kept⟩ := member
      by_cases same : current = key
      · subst same
        have : (other == current) = false := by simpa using different
        simpa [erase, List.lookup_cons, this] using inductionHypothesis
      · simp only [erase] at inductionHypothesis
        simp [erase, same, List.lookup_cons, inductionHypothesis]

end Members

/-- The members of an object; any other node has none. -/
def members : Json → List (String × Json)
  | .object members => members
  | _ => []

/-- Whether a node is an object. -/
def isObject : Json → Bool
  | .object _ => true
  | _ => false

/-- The member of an object under `key`. -/
def member? (node : Json) (key : String) : Option Json :=
  node.members.lookup key

/-- The string a node holds. -/
def text? : Json → Option String
  | .text value => some value
  | _ => none

/-- The empty object. -/
def empty : Json := .object []

mutual

/-- The tree with repeated keys merged in every object. -/
def unique : Json → Json
  | .array items => .array (uniqueItems items)
  | .object members => .object (Members.collapse (uniqueMembers members))
  | other => other

/-- The items with repeated keys merged inside them. -/
def uniqueItems : List Json → List Json
  | [] => []
  | item :: rest => item.unique :: uniqueItems rest

/-- The members with repeated keys merged inside their values. -/
def uniqueMembers : List (String × Json) → List (String × Json)
  | [] => []
  | (key, value) :: rest => (key, value.unique) :: uniqueMembers rest

end

mutual

/-- No object of the tree has a key twice. -/
def UniqueKeys : Json → Prop
  | .array items => UniqueKeysItems items
  | .object members => (members.map (·.1)).Nodup ∧ UniqueKeysMembers members
  | _ => True

/-- No object among the items has a key twice. -/
def UniqueKeysItems : List Json → Prop
  | [] => True
  | item :: rest => item.UniqueKeys ∧ UniqueKeysItems rest

/-- No object inside the values of the members has a key twice. -/
def UniqueKeysMembers : List (String × Json) → Prop
  | [] => True
  | (_, value) :: rest => value.UniqueKeys ∧ UniqueKeysMembers rest

end

end Json

end Legible
