import Legible.CommandLine.FileAccess

/-!
# Files in memory

The files of a run can be a value: `Files` is a working directory held in memory, on
which commands run without a disk. Of what lies outside it only the sink `/dev/null`
is there from the start.
-/

namespace Legible.CommandLine

/-- What has a name in a directory. -/
inductive FileNode where
  | file (text : String)
  | directory
  /-- Reads as an empty file, and forgets what is written to it. -/
  | sink
  deriving DecidableEq, Repr

/-- Where something stands: the names on the way from the working directory. The way
may first lead up by `..`, or begin at the root `/`. -/
abbrev Place := List String

namespace Place

/-- The working directory. -/
def working : Place := []

/-- The root of all directories. -/
def root : Place := ["/"]

/-- Whether a place is a directory by its position: the root, the working directory,
or one that this stands in. -/
def isGiven (place : Place) : Bool :=
  place == working || place == root || place.getLast? == some ".."

/-- The directory that a place stands in; the root stands in itself. -/
def above (place : Place) : Place :=
  if place == root then root
  else if place.isGiven then place ++ [".."]
  else place.dropLast

end Place

/-- A working directory in memory: what stands at which place. -/
structure Files where
  nodes : List (Place × FileNode)

namespace Files

/-- An empty working directory. -/
def empty : Files :=
  ⟨[(["/", "dev"], .directory), (["/", "dev", "null"], .sink)]⟩

/-- What stands at a place. -/
def node? (files : Files) (place : Place) : Option FileNode :=
  if place.isGiven then some .directory else files.nodes.lookup place

/-- Puts something at a place. -/
def put (files : Files) (place : Place) (node : FileNode) : Files :=
  ⟨(place, node) :: files.nodes.filter fun entry => entry.1 != place⟩

/-- What is put at a place that is no directory by its position stands there. -/
theorem node?_put_self (files : Files) (place : Place) (node : FileNode)
    (free : place.isGiven = false) : (files.put place node).node? place = some node := by
  simp [node?, put, free]

private theorem lookup_filter_of_ne {place other : Place} (apart : other ≠ place)
    (nodes : List (Place × FileNode)) :
    (nodes.filter fun entry => entry.1 != place).lookup other = nodes.lookup other := by
  induction nodes with
  | nil => rfl
  | cons entry rest ih =>
      obtain ⟨here, node⟩ := entry
      by_cases same : here = place
      · have missed : (other == here) = false := by simpa [same] using apart
        simp [same, ih]
        simp [List.lookup_cons, ← same, missed]
      · simp [same, List.lookup_cons, ih]

/-- Putting something at a place leaves the other places alone. -/
theorem node?_put_of_ne (files : Files) {place other : Place} (node : FileNode)
    (apart : other ≠ place) : (files.put place node).node? other = files.node? other := by
  have missed : (other == place) = false := by simpa using apart
  simp [node?, put, List.lookup_cons, missed, lookup_filter_of_ne apart]

/-! ## Following a path -/

/-- The most bytes that a name has. -/
def nameLimit : Nat := 255

/-- The most bytes that a path has. -/
def pathLimit : Nat := 4095

/-- Goes on from a place by one step. Whatever the step, the place has to be a
directory; what it leads to need not exist. -/
def enter (files : Files) (place : Place) (step : String) : Except FileError Place :=
  match files.node? place with
  | none => .error .notFound
  | some (.file _) | some .sink => .error .notADirectory
  | some .directory =>
      if staysInPlace step then .ok place
      else if step = ".." then .ok place.above
      else if nameLimit < step.utf8ByteSize then .error .nameTooLong
      else .ok (place ++ [step])

/-- Follows some steps of a path from where the path starts. -/
def follow (files : Files) (path : String) (steps : List String) : Except FileError Place :=
  if path = "" then .error .notFound
  else if pathLimit < path.utf8ByteSize then .error .nameTooLong
  else steps.foldlM files.enter (if isAbsolute path then .root else .working)

/-- The place that a path leads to; everything before its last name has to exist. -/
def locate (files : Files) (path : String) : Except FileError Place :=
  files.follow path (pathSteps path)

/-- The steps of a path without the empty ones at its end. -/
def stepsBeforeSlash (path : String) : List String :=
  ((pathSteps path).reverse.dropWhile fun step => step == "").reverse

/-! ## The operations -/

/-- The text of a file. -/
def read (files : Files) (path : String) : Except FileError String := do
  match files.node? (← files.locate path) with
  | some (.file text) => .ok text
  | some .sink => .ok ""
  | some .directory => .error .isADirectory
  | none => .error .notFound

/-- Writes a file. A path that ends in a slash asks for a directory, whatever stands
there, if there is a directory for it to stand in. -/
def write (files : Files) (path text : String) : Except FileError Files := do
  if endsInSlash path then
    let _ ← files.follow path ((stepsBeforeSlash path).dropLast ++ [""])
    .error .isADirectory
  else
    let place ← files.locate path
    match files.node? place with
    | some .directory => .error .isADirectory
    | some .sink => .ok files
    | _ => .ok (files.put place (.file text))

/-- Creates a directory. -/
def makeDirectory (files : Files) (path : String) : Except FileError Files := do
  let place ← files.follow path (stepsBeforeSlash path)
  match files.node? place with
  | some _ => .error .alreadyExists
  | none => .ok (files.put place .directory)

/-- Whether a path leads to a directory. -/
def isDirectory (files : Files) (path : String) : Bool :=
  match files.locate path with
  | .ok place => files.node? place == some .directory
  | .error _ => false

/-- A working directory with some files, by their paths. -/
def ofList (entries : List (String × String)) : Files :=
  entries.foldl
    (fun files (path, text) =>
      let place := (pathSteps path).filter fun step => !staysInPlace step
      let above := (List.range place.length).drop 1
      (above.foldl (fun files depth => files.put (place.take depth) .directory) files).put place
        (.file text))
    empty

/-- What an operation on the files gives: the files as they were when it failed. -/
def attempt (operation : Files → Except FileError Files) :
    StateM Files (Except FileError Unit) := fun files =>
  match operation files with
  | .ok changed => (.ok (), changed)
  | .error error => (.error error, files)

instance : FileAccess (StateM Files) where
  read path := fun files => (files.read path, files)
  write path text := attempt fun files => files.write path text
  makeDirectory path := attempt fun files => files.makeDirectory path
  isDirectory path := fun files => (files.isDirectory path, files)

end Files

end Legible.CommandLine
