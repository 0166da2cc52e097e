/-!
# Access to files

A command reads and writes files and creates directories through `FileAccess`. Its
operations are those of an operating system, which creates one directory at a time;
`makeDirectories` creates a directory together with those it stands in.
-/

namespace Legible.CommandLine

/-- Why a file operation failed. -/
inductive FileError where
  /-- The operating system refused it for a reason with a number. -/
  | refused (reason : String) (code : Nat)
  /-- A file that was read holds no Unicode text. -/
  | notUnicode
  deriving DecidableEq, Repr

namespace FileError

/-- A file or directory on the way does not exist. -/
def notFound : FileError := .refused "No such file or directory" 2

/-- The system keeps the program out. -/
def permissionDenied : FileError := .refused "Permission denied" 13

/-- Something of that name exists already. -/
def alreadyExists : FileError := .refused "File exists" 17

/-- A file stands where a directory has to be. -/
def notADirectory : FileError := .refused "Not a directory" 20

/-- A directory stands where a file has to be. -/
def isADirectory : FileError := .refused "Is a directory" 21

/-- A name on the way or the whole path is longer than can be. -/
def nameTooLong : FileError := .refused "File name too long" 36

/-- The message of an error. -/
def message : FileError → String
  | .refused reason code => reason ++ " (os error " ++ toString code ++ ")"
  | .notUnicode => "stream did not contain valid UTF-8"

/-- The number of an error. -/
def code? : FileError → Option Nat
  | .refused _ code => some code
  | .notUnicode => none

/-- Whether something on the way is missing. -/
def isNotFound (error : FileError) : Bool :=
  error.code? == notFound.code?

/-- The error with a number; `reason` words one without a wording of its own. -/
def ofCode (reason : String) (code : Nat) : FileError :=
  let known := [notFound, permissionDenied, alreadyExists, notADirectory, isADirectory, nameTooLong]
  (known.find? fun error => error.code? == some code).getD (.refused reason code)

end FileError

/-- The file operations of a program. -/
class FileAccess (m : Type → Type) where
  read : (path : String) → m (Except FileError String)
  /-- Writes a whole file, in place of what it held. -/
  write : (path text : String) → m (Except FileError Unit)
  /-- Creates a directory; the one it stands in has to exist. -/
  makeDirectory : (path : String) → m (Except FileError Unit)
  /-- Whether a path leads to a directory. -/
  isDirectory : (path : String) → m Bool

/-! ## Paths -/

/-- The steps of a path: the texts between its slashes. -/
def pathSteps (path : String) : List String :=
  path.splitOn "/"

/-- Whether a step stays where it is. -/
def staysInPlace (step : String) : Bool :=
  step == "" || step == "."

/-- Whether a path starts at the root of all directories. -/
def isAbsolute (path : String) : Bool :=
  path.toList.head? == some '/'

/-- Whether a path ends in a slash, and so asks for a directory. -/
def endsInSlash (path : String) : Bool :=
  path.toList.getLast? == some '/'

/-- The path of a file in a directory. -/
def joinPath (directory file : String) : String :=
  if directory = "" ∨ endsInSlash directory then directory ++ file
  else directory ++ "/" ++ file

/-- The paths above a path, the nearest first, without the place where it starts. Steps
that stay in place do not count, so that `a/b/.` stands in `a`. -/
def parentPaths (path : String) : List String :=
  let names := (pathSteps path).filter fun step => !staysInPlace step
  let root := if isAbsolute path then "/" else ""
  ((List.range names.length).drop 1).reverse.map fun depth =>
    root ++ String.intercalate "/" (names.take depth)

/-! ## Directories within directories -/

section

variable {m : Type → Type} [Monad m] [FileAccess m]

/-- Creates a directory. -/
def createDirectory (path : String) : ExceptT FileError m Unit :=
  ExceptT.mk (FileAccess.makeDirectory path)

/-- Passes a failure on, unless a directory is there all the same. -/
def unlessDirectory (path : String) (error : FileError) : ExceptT FileError m Unit := do
  if ← (FileAccess.isDirectory path : m Bool) then pure () else throw error

/-- Creates the first of some directories, each of which stands in the next one. Only
where that one is missing does it come first. -/
def makeInnermost : List String → ExceptT FileError m Unit
  | [] => pure ()
  | path :: above =>
      tryCatch (createDirectory path) fun error =>
        if error.isNotFound then do
          makeInnermost above
          tryCatch (createDirectory path) (unlessDirectory path)
        else
          unlessDirectory path error

/-- Creates a directory and those it stands in, where they do not exist. The empty path
names none. -/
def makeDirectories (path : String) : ExceptT FileError m Unit :=
  if path = "" then pure () else makeInnermost (path :: parentPaths path)

end

end Legible.CommandLine
