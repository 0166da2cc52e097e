import Legible.CommandLine.Command
import Legible.CommandLine.FileAccess
import Legible.Preset
import Legible.Watch.FixPass

/-!
# Running a command

A run reads its files, computes, and gives what is to be printed with an exit code: 0
when all is well, 1 after a failure or when a report has errors that matter, and 2 for
arguments that make no command.
-/

namespace Legible.CommandLine

/-- The name under which the program speaks. -/
def programName : String := "n-tone"

/-- The version of the program. -/
def programVersion : String := "0.1.0"

/-- How a run ends. -/
structure Outcome where
  code : Nat := 0
  output : String := ""
  errors : String := ""
  deriving DecidableEq, Repr

namespace Outcome

/-- The end after a failure; `said` has been printed before. -/
def failed (said message : String) : Outcome :=
  { code := 1, errors := said ++ programName ++ ": " ++ message ++ "\n" }

/-- How the program is used. -/
def usage : String :=
  "Usage: " ++ programName ++ " [OPTIONS] <COMMAND>\n\n" ++
    "Commands:\n" ++
    "  build   Compute, validate, and write the stylesheet\n" ++
    "  check   Compute and validate only\n" ++
    "  preset  Write a preset's documents, or list the presets\n"

/-- The end of a run without a command. -/
def ofStop : Stop → Outcome
  | .misuse => { code := 2, errors := usage }
  | .help => { output := usage }
  | .version => { output := programName ++ " " ++ programVersion ++ "\n" }

end Outcome

variable {m : Type → Type} [Monad m] [FileAccess m]

/-- Reads a file; a failure is told with its cause at the end once more. -/
def readFile (path : String) : ExceptT String m String := do
  match ← (FileAccess.read path : m _) with
  | .ok text => pure text
  | .error error =>
      throw ("failed to read " ++ path ++ ": " ++ error.message ++ ": " ++ error.message)

/-- Writes a file. -/
def writeFile (path text : String) : ExceptT String m Unit := do
  match ← (FileAccess.write path text : m _) with
  | .ok () => pure ()
  | .error error => throw ("writing " ++ path ++ ": " ++ error.message)

/-- Reads a document; its name is the path. -/
def readDocument (path : String) : ExceptT String m Document := do
  match Document.read path (← readFile path) with
  | .ok document => pure document
  | .error error => throw error.message

/-- The options file, and the switches on top of it. -/
def readOptions (inputs : Inputs) : ExceptT String m Options := do
  let base : Options ←
    match inputs.options with
    | none => pure {}
    | some path =>
        match Options.read path (← readFile path) with
        | .ok options => pure options
        | .error error => throw error.message
  pure
    { base with
      textEmphasis := inputs.textEmphasis.orElse fun _ => base.textEmphasis
      maxReferenceDepth := inputs.maxReferenceDepth.getD base.maxReferenceDepth
      uiKitMode := inputs.uiKitMode.getD base.uiKitMode }

/-- The preset with a name. -/
def findPreset (name : String) : Except String Preset :=
  match Preset.find? name with
  | some preset => .ok preset
  | none =>
      .error ("unknown preset " ++ Text.quote name ++ " (available: " ++
        String.intercalate ", " Preset.names ++ ")")

/-- The configuration that inputs name. -/
def readConfiguration (inputs : Inputs) : ExceptT String m Configuration := do
  let options ← readOptions inputs
  match inputs.source with
  | .preset name =>
      let preset ← ExceptT.mk (pure (findPreset name))
      pure (preset.configuration options)
  | .documents tokens theme uiKit =>
      let tokens ← readDocument tokens
      let theme ← readDocument theme
      let uiKit ←
        match uiKit with
        | some path => readDocument path
        | none => pure (Document.empty "ui-kit")
      pure (Configuration.ofDocuments tokens theme uiKit options)

/-- The stylesheet of a configuration, and the report about it: the map is applied to
an empty registry and validated. -/
def evaluate (configuration : Configuration) : String × Report :=
  let (watcher, outcome) := (Watcher.start configuration .empty).attach 0
  (watcher.registry.stylesheet, outcome.report)

/-- Writes a report to its file, or gives what is to be printed of it. -/
def tell (inputs : Inputs) (report : Report) : ExceptT String m String := do
  let text :=
    match inputs.form with
    | .text => report.text
    | .json => report.jsonText ++ "\n"
  match inputs.reportFile with
  | none => pure text
  | some path => do
      writeFile path text
      pure ""

/-- Builds a stylesheet. The report comes first, whatever happens then. -/
def buildStylesheet (inputs : Inputs) (destination : Option String) (allowErrors : Bool) :
    ExceptT String m Outcome := do
  let (stylesheet, report) := evaluate (← readConfiguration inputs)
  let said ← tell inputs report
  if report.hasErrors && !allowErrors then
    pure (.failed said
      "validation found errors; stylesheet not written (use --allow-errors to write anyway)")
  else
    match destination with
    | none => pure { output := stylesheet, errors := said }
    | some path =>
        tryCatch
          (do
            writeFile path stylesheet
            pure { errors := said })
          fun message => pure (.failed said message)

/-- Reports on a configuration. -/
def checkInputs (inputs : Inputs) : ExceptT String m Outcome := do
  let (_, report) := evaluate (← readConfiguration inputs)
  let said ← tell inputs report
  pure { code := if report.hasErrors then 1 else 0, errors := said }

/-- Writes the documents of a preset into a directory. -/
def savePreset (name directory : String) : ExceptT String m Outcome := do
  let preset ← ExceptT.mk (pure (findPreset name))
  match ← (makeDirectories directory : ExceptT FileError m Unit).run with
  | .ok () => pure ()
  | .error error => throw ("creating " ++ directory ++ ": " ++ error.message)
  for document in [preset.tokens, preset.theme, preset.uiKit] do
    writeFile (joinPath directory (document.name ++ ".json")) (document.root.renderPretty ++ "\n")
  pure {}

/-- Runs a command. -/
def Command.run : Command → ExceptT String m Outcome
  | .build inputs destination allowErrors => buildStylesheet inputs destination allowErrors
  | .check inputs => checkInputs inputs
  | .listPresets => pure { output := String.join (Preset.names.map fun name => name ++ "\n") }
  | .writePreset name directory => savePreset name directory

/-- Runs the program with some arguments. -/
def run (arguments : List String) : m Outcome := do
  match Command.read arguments with
  | .error stop => pure (.ofStop stop)
  | .ok command =>
      match ← command.run.run with
      | .ok outcome => pure outcome
      | .error message => pure (.failed "" message)

end Legible.CommandLine
