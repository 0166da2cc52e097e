import Legible.CommandLine.Run

/-!
# The program

Runs a command on the files of the system, prints, and exits.
-/

namespace Legible.CommandLine

/-- The error behind a number of the system, which some of its parts give negated. -/
def FileError.ofNumber (reason : String) (number : UInt32) : FileError :=
  .ofCode reason (if number < 0x80000000 then number else -number).toNat

/-- What an operation of the system failed of. -/
def FileError.ofSystem : IO.Error → FileError
  | .noFileOrDirectory _ number reason => .ofNumber reason number
  | .alreadyExists _ number reason => .ofNumber reason number
  | .inappropriateType _ number reason => .ofNumber reason number
  | .permissionDenied _ number reason => .ofNumber reason number
  | .invalidArgument _ number reason => .ofNumber reason number
  | .noSuchThing _ number reason => .ofNumber reason number
  | .resourceExhausted _ number reason => .ofNumber reason number
  | .resourceBusy number reason => .ofNumber reason number
  | .illegalOperation number reason => .ofNumber reason number
  | .otherError number reason => .ofNumber reason number
  | _ => .notUnicode

/-- An operation on the system's files, its failure as a value. -/
def onSystem {α : Type} (operation : IO α) : IO (Except FileError α) := do
  match ← operation.toBaseIO with
  | .ok value => pure (.ok value)
  | .error error => pure (.error (.ofSystem error))

/-- Whether a path leads to a directory: only from there does one more step that stays in
place lead anywhere. -/
def leadsToDirectory (path : String) : IO Bool := do
  match ← (IO.FS.Handle.mk (path ++ "/.") .read).toBaseIO with
  | .ok _ => pure true
  | .error _ => pure false

instance : FileAccess IO where
  read path := onSystem (IO.FS.readFile path)
  write path text := onSystem (IO.FS.writeFile path text)
  makeDirectory path := onSystem (IO.FS.createDir path)
  isDirectory path := leadsToDirectory path

end Legible.CommandLine

/-- Runs the command that the arguments spell. -/
def main (arguments : List String) : IO UInt32 := do
  let outcome : Legible.CommandLine.Outcome ← Legible.CommandLine.run arguments
  IO.print outcome.output
  IO.eprint outcome.errors
  pure (UInt32.ofNat outcome.code)
