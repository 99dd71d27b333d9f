import ViewTree.Text.Split

/-!
# The command line

The options are `--config` (or `-c`) with the path of a configuration, `--abort-on-error`, and
`--help` (or `-h`).  The value of an option may follow it or be attached to it.
-/

namespace ViewTree.Terminal

/-- What the command line asks for. -/
structure Arguments where
  config : Option String := none
  abortOnError : Bool := false
deriving DecidableEq, Repr

/-- Why a command line is not carried out. -/
inductive UsageError where
  | invalidValue
  /-- An option that is given twice. -/
  | argumentConflict
  | unknownArgument
  /-- A value attached to an option that takes none. -/
  | tooManyValues
  /-- Help is asked for. -/
  | displayHelp
deriving DecidableEq, Repr

/-- The name of an error. -/
def UsageError.name : UsageError → String
  | invalidValue => "InvalidValue"
  | argumentConflict => "ArgumentConflict"
  | unknownArgument => "UnknownArgument"
  | tooManyValues => "TooManyValues"
  | displayHelp => "DisplayHelp"

namespace CommandLine

/-- A value that is still to be taken up. -/
inductive Pending where
  | nothing
  /-- The path of a configuration is due. -/
  | awaited
  /-- The path of a configuration. -/
  | given (path : String)
deriving DecidableEq, Repr

/-- A command line as far as it has been read. -/
structure Progress where
  arguments : Arguments := {}
  pending : Pending := .nothing
deriving DecidableEq, Repr

/-- Takes up the path of a configuration. -/
def setConfig (arguments : Arguments) (path : String) : Except UsageError Arguments :=
  if arguments.config.isSome then .error .argumentConflict
  else if path.isEmpty then .error .invalidValue
  else .ok { arguments with config := some path }

/-- Takes up what is pending. -/
def settle (progress : Progress) : Except UsageError Arguments :=
  match progress.pending with
  | .nothing => .ok progress.arguments
  | .awaited => .error .invalidValue
  | .given path => setConfig progress.arguments path

/-- Reads `--config` with a value attached to it, or none. -/
def takeConfig (progress : Progress) (attached : Option String) : Except UsageError Progress := do
  let arguments ← settle progress
  match attached with
  | none => return { arguments, pending := .awaited }
  | some path => return { arguments := ← setConfig arguments path }

/-- Reads `--abort-on-error`. -/
def takeAbort (progress : Progress) : Except UsageError Progress := do
  let arguments ← settle progress
  if arguments.abortOnError then .error .argumentConflict
  else return { arguments := { arguments with abortOnError := true } }

/-- Reads `--help`. -/
def takeHelp (progress : Progress) : Except UsageError Progress := do
  let _ ← settle progress
  .error .displayHelp

/-- Reads a long option, the text after its two hyphens. -/
def takeLong (progress : Progress) (option : List Char) : Except UsageError Progress :=
  let (name, attached) :=
    match Text.cut '=' option with
    | some (name, value) => (name, some (String.ofList value))
    | none => (option, none)
  if name = "config".toList then takeConfig progress attached
  else if name = "abort-on-error".toList then
    if attached.isSome then .error .tooManyValues else takeAbort progress
  else if name = "help".toList then
    if attached.isSome then .error .tooManyValues else takeHelp progress
  else .error .unknownArgument

/-- Reads a short option, the text after its hyphen. -/
def takeShort (progress : Progress) : List Char → Except UsageError Progress
  | 'c' :: '=' :: value => takeConfig progress (some (String.ofList value))
  | 'c' :: [] => takeConfig progress none
  | 'c' :: value => takeConfig progress (some (String.ofList value))
  | 'h' :: _ => takeHelp progress
  | _ => .error .unknownArgument

/-- Reads what is no option. -/
def takeValue (progress : Progress) (value : String) : Except UsageError Progress :=
  match progress.pending with
  | .awaited => .ok { progress with pending := .given value }
  | _ => .error .unknownArgument

/-- Reads the arguments in order.  After two hyphens nothing may follow, as there are no arguments
that are no options. -/
def readAll (progress : Progress) : List String → Except UsageError Arguments
  | [] => settle progress
  | arg :: rest =>
    match arg.toList with
    | ['-', '-'] => if rest.isEmpty then settle progress else .error .unknownArgument
    | '-' :: '-' :: option => do readAll (← takeLong progress option) rest
    | '-' :: c :: option => do readAll (← takeShort progress (c :: option)) rest
    | _ => do readAll (← takeValue progress arg) rest

/-- Reads a command line, the name of the program left out. -/
def read (args : List String) : Except UsageError Arguments :=
  readAll {} args

/-- The lines of the help. -/
def helpLines : List String :=
  ["A terminal host for ui-dispatch component trees",
   "",
   "Usage: user-directory [OPTIONS]",
   "",
   "Options:",
   "  -c, --config <CONFIG>  Component tree to run (defaults to the bundled user directory)",
   "      --abort-on-error   Stop mount-time fetches after the first failure",
   "  -h, --help             Print help"]

end CommandLine

end ViewTree.Terminal
