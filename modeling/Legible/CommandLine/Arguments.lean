/-!
# Switches and operands

The arguments of a command are switches and operands. A switch has a long form and
perhaps a short one; it is a flag, or it takes a value, attached to it or as the
argument that follows. Short flags may share one dash. Every switch may be given
once, and after `--` everything is an operand.
-/

namespace Legible.CommandLine

/-- Why the arguments give no command: they are refused, or they ask for
information. -/
inductive Stop where
  | misuse
  | help
  | version
  deriving DecidableEq, Repr

/-- What a switch does to the settings. -/
inductive Effect (σ : Type) where
  | flag (set : σ → σ)
  /-- Takes a value, unless the value is refused. -/
  | value (set? : String → σ → Option σ)
  | stop (reason : Stop)

/-- A switch. -/
structure Switch (σ : Type) where
  long : String
  short : Option Char := none
  effect : Effect σ

/-- The arguments that a command takes. -/
structure Grammar (σ : Type) where
  switches : List (Switch σ)
  /-- What an operand does to the settings, if it is accepted. -/
  operand? : String → σ → Option σ

/-- The form of an argument. -/
inductive Argument where
  | terminator
  | long (name : List Char) (attached : Option (List Char))
  | shorts (letters : List Char)
  | operand (text : String)
  deriving DecidableEq, Repr

namespace Argument

/-- The long form with the value after its first equals sign. -/
def ofLong (characters : List Char) : Argument :=
  match characters.dropWhile (· != '=') with
  | [] => .long characters none
  | _ :: attached => .long (characters.takeWhile (· != '=')) (some attached)

/-- The form of a written argument. A lone dash is an operand. -/
def ofText (text : String) : Argument :=
  match text.toList with
  | ['-', '-'] => .terminator
  | '-' :: '-' :: rest => ofLong rest
  | '-' :: letter :: rest => .shorts (letter :: rest)
  | _ => .operand text

/-- Whether an argument is an operand, when no switch waits for a value. -/
def isOperand : Argument → Bool
  | .operand _ => true
  | _ => false

end Argument

/-- How far the arguments of a command have been read. -/
structure Reading (σ : Type) where
  settings : σ
  /-- The long forms of the switches given so far. -/
  given : List String := []
  /-- The effect of the value that has to follow. -/
  waiting : Option (String → σ → Option σ) := none
  isTerminated : Bool := false

namespace Reading

variable {σ : Type}

/-- Takes the outcome of an effect over. -/
def accept (reading : Reading σ) (settings : Option σ) : Except Stop (Reading σ) :=
  match settings with
  | some settings => .ok { reading with settings, waiting := none }
  | none => .error .misuse

/-- Notes that a switch is given; none may be given twice. -/
def mark (reading : Reading σ) (switch : Switch σ) : Except Stop (Reading σ) :=
  if switch.long ∈ reading.given then .error .misuse
  else .ok { reading with given := switch.long :: reading.given }

/-- Takes a long switch, with the value attached to it if there is one. -/
def takeLong (grammar : Grammar σ) (reading : Reading σ) (name : List Char)
    (attached : Option (List Char)) : Except Stop (Reading σ) :=
  match grammar.switches.find? fun switch => switch.long.toList == name with
  | none => .error .misuse
  | some switch =>
      match switch.effect, attached with
      | .stop reason, none => .error reason
      | .flag set, none => (reading.mark switch).map fun reading =>
          { reading with settings := set reading.settings }
      | .value set?, some value => (reading.mark switch).bind fun reading =>
          reading.accept (set? (String.ofList value) reading.settings)
      | .value set?, none => (reading.mark switch).map fun reading =>
          { reading with waiting := some set? }
      | _, some _ => .error .misuse

/-- Takes short switches behind one dash. What follows one that takes a value is its
value, without a leading equals sign. -/
def takeShorts (grammar : Grammar σ) (reading : Reading σ) :
    List Char → Except Stop (Reading σ)
  | [] => .ok reading
  | letter :: rest =>
      match grammar.switches.find? fun switch => switch.short == some letter with
      | none => .error .misuse
      | some switch =>
          match switch.effect with
          | .stop reason => .error reason
          | .flag set =>
              match reading.mark switch with
              | .ok reading =>
                  takeShorts grammar { reading with settings := set reading.settings } rest
              | .error reason => .error reason
          | .value set? => (reading.mark switch).bind fun reading =>
              match rest with
              | [] => .ok { reading with waiting := some set? }
              | '=' :: value => reading.accept (set? (String.ofList value) reading.settings)
              | value => reading.accept (set? (String.ofList value) reading.settings)

/-- Takes an argument in its form. A switch that waits for a value is only content
with an operand. -/
def take (grammar : Grammar σ) (reading : Reading σ) (argument : Argument) :
    Except Stop (Reading σ) :=
  match reading.waiting, argument with
  | some set?, .operand text => reading.accept (set? text reading.settings)
  | some _, _ => .error .misuse
  | none, .operand text => reading.accept (grammar.operand? text reading.settings)
  | none, .terminator => .ok { reading with isTerminated := true }
  | none, .long name attached => reading.takeLong grammar name attached
  | none, .shorts letters => reading.takeShorts grammar letters

/-- Takes the next written argument. -/
def next (grammar : Grammar σ) (reading : Reading σ) (text : String) :
    Except Stop (Reading σ) :=
  reading.take grammar (if reading.isTerminated then .operand text else .ofText text)

end Reading

/-- The settings that arguments make, starting from `settings`. -/
def Grammar.read {σ : Type} (grammar : Grammar σ) (settings : σ) (arguments : List String) :
    Except Stop σ :=
  (arguments.foldlM (Reading.next grammar) { settings }).bind fun reading =>
    if reading.waiting.isSome then .error .misuse else .ok reading.settings

end Legible.CommandLine
