import Legible.CommandLine.Arguments
import Legible.Numeric.Decimal
import Legible.Theme.Mode

/-!
# Commands

`build` computes a stylesheet, `check` only reports, and `preset` writes the documents
of a preset or lists the presets. The first two read three documents, or take a preset
in their place.
-/

namespace Legible.CommandLine

/-- Where the documents come from. -/
inductive Source where
  | preset (name : String)
  | documents (tokens theme : String) (uiKit : Option String)
  deriving DecidableEq, Repr

/-- The form of a report. -/
inductive ReportForm where
  | text
  | json
  deriving DecidableEq, Repr

/-- What is computed, and how it is reported. -/
structure Inputs where
  source : Source
  /-- The options file. -/
  options : Option String
  textEmphasis : Option String
  maxReferenceDepth : Option Nat
  uiKitMode : Option Mode
  form : ReportForm
  /-- The file of the report, in place of the standard error. -/
  reportFile : Option String
  deriving DecidableEq, Repr

/-- A command. -/
inductive Command where
  /-- Writes the stylesheet to a file or the standard output, with `allowErrors` also
  when the report has errors. -/
  | build (inputs : Inputs) (destination : Option String) (allowErrors : Bool)
  | check (inputs : Inputs)
  | listPresets
  | writePreset (name directory : String)
  deriving DecidableEq, Repr

/-- The settings of `build` and `check` as they are given. -/
structure InputSettings where
  tokens : Option String := none
  theme : Option String := none
  uiKit : Option String := none
  preset : Option String := none
  options : Option String := none
  textEmphasis : Option String := none
  maxReferenceDepth : Option Nat := none
  uiKitMode : Option Mode := none
  form : ReportForm := .text
  reportFile : Option String := none
  destination : Option String := none
  allowErrors : Bool := false

/-- The settings of `preset` as they are given. -/
structure PresetSettings where
  name : Option String := none
  directory : String := "."
  isList : Bool := false

/-- A file path, which is not empty. -/
def path? (text : String) : Option String :=
  if text.isEmpty then none else some text

/-- A count of at most 64 bits; a plus sign may stand before it. -/
def count? (text : String) : Option Nat :=
  let digits :=
    match text.toList with
    | '+' :: digits => digits
    | digits => digits
  if digits.isEmpty || !digits.all Char.isDigit then none
  else
    let value := Numeric.Decimal.ofDigits digits
    if value < UInt64.size then some value else none

/-- The form of a report with a name. -/
def ReportForm.read? : String → Option ReportForm
  | "text" => some .text
  | "json" => some .json
  | _ => none

/-- The switches that every command takes. -/
def commonSwitches (σ : Type) : List (Switch σ) :=
  [{ long := "verbose", short := some 'v', effect := .flag id },
    { long := "help", short := some 'h', effect := .stop .help }]

/-- A switch that takes a value of some kind. -/
def valueSwitch {σ α : Type} (long : String) (read? : String → Option α) (set : α → σ → σ) :
    Switch σ :=
  { long, effect := .value fun text settings => (read? text).map fun value => set value settings }

namespace InputSettings

/-- The switches of `check`. -/
def switches : List (Switch InputSettings) :=
  [valueSwitch "tokens" path? fun path settings => { settings with tokens := some path },
    valueSwitch "theme" path? fun path settings => { settings with theme := some path },
    valueSwitch "ui-kit" path? fun path settings => { settings with uiKit := some path },
    valueSwitch "preset" some fun name settings => { settings with preset := some name },
    valueSwitch "options" path? fun path settings => { settings with options := some path },
    valueSwitch "text-emphasis" some fun text settings =>
      { settings with textEmphasis := some text },
    valueSwitch "max-reference-depth" count? fun depth settings =>
      { settings with maxReferenceDepth := some depth },
    valueSwitch "ui-kit-mode" Mode.read? fun mode settings =>
      { settings with uiKitMode := some mode },
    valueSwitch "report" ReportForm.read? fun form settings => { settings with form },
    valueSwitch "report-out" path? fun path settings =>
      { settings with reportFile := some path }]

/-- The further switches of `build`. -/
def buildSwitches : List (Switch InputSettings) :=
  [{ valueSwitch "out" path? fun path settings =>
        ({ settings with destination := some path } : InputSettings) with
      short := some 'o' },
    { long := "allow-errors"
      effect := .flag fun settings => { settings with allowErrors := true } }]

/-- The arguments of `check`, or with further switches of `build`. -/
def grammar (further : List (Switch InputSettings)) : Grammar InputSettings :=
  ⟨switches ++ further ++ commonSwitches InputSettings, fun _ _ => none⟩

/-- The documents that are meant: either a preset, or at least tokens and theme. -/
def source? (settings : InputSettings) : Option Source :=
  match settings.preset, settings.tokens, settings.theme, settings.uiKit with
  | some name, none, none, none => some (.preset name)
  | none, some tokens, some theme, uiKit => some (.documents tokens theme uiKit)
  | _, _, _, _ => none

/-- The inputs that the settings make. -/
def inputs (settings : InputSettings) : Except Stop Inputs :=
  match settings.source? with
  | some source =>
      .ok
        { source
          options := settings.options
          textEmphasis := settings.textEmphasis
          maxReferenceDepth := settings.maxReferenceDepth
          uiKitMode := settings.uiKitMode
          form := settings.form
          reportFile := settings.reportFile }
  | none => .error .misuse

end InputSettings

namespace PresetSettings

/-- The arguments of `preset`. -/
def grammar : Grammar PresetSettings :=
  { switches :=
      [valueSwitch "out-dir" path? fun directory settings => { settings with directory },
        { long := "list", effect := .flag fun settings => { settings with isList := true } }] ++
        commonSwitches PresetSettings
    operand? := fun text settings =>
      if settings.name.isNone then some { settings with name := some text } else none }

/-- The command that the settings make. -/
def command (settings : PresetSettings) : Except Stop Command :=
  if settings.isList then .ok .listPresets
  else
    match settings.name with
    | some name => .ok (.writePreset name settings.directory)
    | none => .error .misuse

end PresetSettings

namespace Command

/-- The switches before the name of a command. -/
def topGrammar : Grammar Unit :=
  ⟨{ long := "version", short := some 'V', effect := .stop .version } :: commonSwitches Unit,
    fun _ _ => none⟩

/-- The names of the commands. -/
def names : List String := ["build", "check", "preset", "help"]

/-- The command with a name and its arguments. -/
def ofName (name : String) (arguments : List String) : Except Stop Command :=
  match name with
  | "build" => do
      let settings ← (InputSettings.grammar InputSettings.buildSwitches).read {} arguments
      pure (.build (← settings.inputs) settings.destination settings.allowErrors)
  | "check" => do
      let settings ← (InputSettings.grammar []).read {} arguments
      pure (.check (← settings.inputs))
  | "preset" => do
      let settings ← PresetSettings.grammar.read {} arguments
      settings.command
  | "help" =>
      .error (if arguments.length ≤ 1 && arguments.all names.contains then .help else .misuse)
  | _ => .error .misuse

/-- The command that arguments spell: switches, the name, and its arguments. -/
def read (arguments : List String) : Except Stop Command := do
  let isSwitch (text : String) : Bool := !(Argument.ofText text).isOperand
  topGrammar.read () (arguments.takeWhile isSwitch)
  match arguments.dropWhile isSwitch with
  | name :: rest =>
      if "--" ∈ arguments.takeWhile isSwitch then .error .misuse else ofName name rest
  | [] => .error .misuse

end Command

end Legible.CommandLine
