import ForeignBindings.Build.Json
import ForeignBindings.Entry.Dialect
import ForeignBindings.Host.World

/-!
# Arguments of the command line

A command line has two parts: options for every command up to the name of a command, and then the
options and the input of that command. Each part is read from left to right.

* An option that takes a value takes it from behind an equals sign, from the rest of a cluster of
  short options, or from the next argument. The value is only checked once the next option or the
  end of the part is reached, so an earlier fault of another kind wins.
* After a double dash every argument is an input.
* `Arguments.parse` reads the whole line.
-/

namespace ForeignBindings

/-- Why a command line is not carried out. The names are those that the program reports. -/
inductive UsageError where
  | invalidValue
  | unknownArgument
  | invalidSubcommand
  | tooManyValues
  | argumentConflict
  | missingRequiredArgument
  | missingSubcommand
  | displayHelp
  | displayVersion
  | displayHelpOnMissing
deriving Repr, DecidableEq

namespace UsageError

/-- The name of the kind of error. -/
def name : UsageError → String
  | invalidValue => "InvalidValue"
  | unknownArgument => "UnknownArgument"
  | invalidSubcommand => "InvalidSubcommand"
  | tooManyValues => "TooManyValues"
  | argumentConflict => "ArgumentConflict"
  | missingRequiredArgument => "MissingRequiredArgument"
  | missingSubcommand => "MissingSubcommand"
  | displayHelp => "DisplayHelp"
  | displayVersion => "DisplayVersion"
  | displayHelpOnMissing => "DisplayHelpOnMissingArgumentOrSubcommand"

/-- The exit code: only help and version that were asked for are a success. -/
def exitCode : UsageError → Nat
  | displayHelp | displayVersion => 0
  | _ => 2

end UsageError

/-- What is asked for: a command with its input, and options. -/
structure Arguments where
  mode : Mode
  input : String
  output : Option String
  config : Option String
  /-- How often more messages were asked for. -/
  verbose : Nat
  /-- How often fewer messages were asked for. -/
  quiet : Nat
deriving Repr, DecidableEq

namespace Arguments

/-! ## Options -/

/-- Arguments that have a value. -/
inductive Slot where
  | config
  | output
  | input
deriving Repr, DecidableEq

/-- The options of the command line. -/
inductive Switch where
  | value (s : Slot)
  | verbose
  | quiet
  | help
  | version
deriving Repr, DecidableEq

/-- The two parts of a command line. -/
inductive Part where
  | general
  | command
deriving Repr, DecidableEq

/-- The option with the given long name in a part. -/
def longSwitch? : Part → String → Option Switch
  | _, "config" => some (.value .config)
  | _, "verbose" => some .verbose
  | _, "quiet" => some .quiet
  | _, "help" => some .help
  | .general, "version" => some .version
  | .command, "output" => some (.value .output)
  | _, _ => none

/-- The option with the given short name in a part. -/
def shortSwitch? : Part → Char → Option Switch
  | _, 'v' => some .verbose
  | _, 'q' => some .quiet
  | _, 'h' => some .help
  | .general, 'V' => some .version
  | .command, 'o' => some (.value .output)
  | _, _ => none

/-- The command with the given name. -/
def command? : String → Option Mode
  | "grovel" => some .probe
  | "wrap" => some .wrapper
  | _ => none

/-- The name of the command that explains the others. -/
def helpCommand : String := "help"

/-- The name of a command, that of the one that explains the others included. -/
def isCommandName (name : String) : Bool :=
  (command? name).isSome || name == helpCommand

/-! ## Reading one part -/

/-- What a part has set so far. -/
structure Settings where
  config : Option String := none
  output : Option String := none
  input : Option String := none
  verbose : Nat := 0
  quiet : Nat := 0
deriving Repr, DecidableEq

namespace Settings

/-- The value of a slot. -/
def get? (s : Settings) : Slot → Option String
  | .config => s.config
  | .output => s.output
  | .input => s.input

/-- Sets the value of a slot. -/
def set (s : Settings) (slot : Slot) (value : String) : Settings :=
  match slot with
  | .config => { s with config := some value }
  | .output => { s with output := some value }
  | .input => { s with input := some value }

/-- Takes the value of an argument. There must be one, only one, and it must not be empty. -/
def assign (s : Settings) (slot : Slot) (value : Option String) : Except UsageError Settings :=
  match value with
  | none => .error .invalidValue
  | some value =>
    if (s.get? slot).isSome then .error .argumentConflict
    else if value.isEmpty then .error .invalidValue
    else .ok (s.set slot value)

/-- Nothing has been set. -/
def isUnset (s : Settings) : Bool :=
  s == {}

end Settings

/-- The state of reading a part: what is set, an argument whose value is not yet checked, whether
the next argument is that value, and whether a double dash has come. -/
structure Scan where
  settings : Settings := {}
  pending : Option (Slot × Option String) := none
  awaiting : Bool := false
  trailing : Bool := false

namespace Scan

/-- Checks the value of the argument before. -/
def flush (s : Scan) : Except UsageError Scan :=
  match s.pending with
  | none => .ok s
  | some (slot, value) =>
    (s.settings.assign slot value).map fun settings => { s with settings, pending := none }

/-- Takes an option that has no value. -/
def flag (s : Scan) (switch : Switch) : Except UsageError Scan := do
  let s ← s.flush
  let set := s.settings
  match switch with
  | .verbose =>
    return { s with settings := { set with verbose := set.verbose + 1 }, awaiting := false }
  | .quiet => return { s with settings := { set with quiet := set.quiet + 1 }, awaiting := false }
  | .help => throw .displayHelp
  | .version => throw .displayVersion
  | .value _ => return s

/-- Takes an option that has a value, which may be attached to it. -/
def option (s : Scan) (slot : Slot) (attached : Option String) : Except UsageError Scan := do
  let s ← s.flush
  match attached with
  | some value =>
    let settings ← s.settings.assign slot (some value)
    return { s with settings, awaiting := false }
  | none => return { s with pending := some (slot, none), awaiting := true }

/-- Takes a value for the option before. -/
def fill (s : Scan) (value : String) : Scan :=
  { s with
    pending := s.pending.map fun (slot, _) => (slot, some value)
    awaiting := false }

/-- The name and the attached value of a long option. -/
def splitAttached (cs : List Char) : String × Option String :=
  let name := String.ofList (cs.takeWhile (· != '='))
  match cs.dropWhile (· != '=') with
  | _ :: value => (name, some (String.ofList value))
  | [] => (name, none)

/-- Takes a long option. -/
def long (s : Scan) (part : Part) (cs : List Char) : Except UsageError Scan :=
  let (name, attached) := splitAttached cs
  match longSwitch? part name with
  | none => .error .unknownArgument
  | some (.value slot) => s.option slot attached
  | some switch => if attached.isSome then .error .tooManyValues else s.flag switch

/-- Takes a cluster of short options. One that has a value takes the rest of the cluster. -/
def short (s : Scan) (part : Part) : List Char → Except UsageError Scan
  | [] => .ok s
  | c :: cs =>
    match shortSwitch? part c with
    | none => .error .unknownArgument
    | some (.value slot) =>
      match cs with
      | [] => s.option slot none
      | '=' :: value => s.option slot (some (String.ofList value))
      | value => s.option slot (some (String.ofList value))
    | some switch => do
      let s ← s.flag switch
      short s part cs

/-- Takes an argument that is no option: the input of a command, of which there is one. -/
def positional (s : Scan) (part : Part) (value : String) : Except UsageError Scan :=
  let taken := s.settings.input.isSome || (s.pending.map Prod.fst == some .input)
  match part, taken with
  | .command, false => do
    let s ← s.flush
    return { s with pending := some (.input, some value), awaiting := false }
  | .command, true => .error .unknownArgument
  | .general, _ =>
    if s.trailing && isCommandName value then .error .unknownArgument
    else .error .invalidSubcommand

/-- Takes an argument that is not the name of a command. -/
def argument (s : Scan) (part : Part) (arg : String) : Except UsageError Scan :=
  if s.trailing then s.positional part arg
  else
    match arg.toList with
    | ['-', '-'] => .ok { s with trailing := true }
    | '-' :: '-' :: cs => s.long part cs
    | '-' :: c :: cs => s.short part (c :: cs)
    | _ => if s.awaiting then .ok (s.fill arg) else s.positional part arg

/-- Checks what is left at the end of a part. Asking for more and for fewer messages in one part is
a conflict. -/
def finish (s : Scan) : Except UsageError Settings := do
  let s ← s.flush
  if s.settings.verbose ≠ 0 && s.settings.quiet ≠ 0 then throw .argumentConflict
  return s.settings

end Scan

/-! ## The whole line -/

/-- Reads the part of a command. -/
def readCommand (s : Scan) : List String → Except UsageError Settings
  | [] => do
    let settings ← s.finish
    if settings.input.isNone then throw .missingRequiredArgument
    return settings
  | arg :: rest => do
    let s ← s.argument .command arg
    readCommand s rest

/-- What is shown when commands are to be explained. -/
def explain : List String → UsageError
  | [] => .displayHelp
  | [name] => if isCommandName name then .displayHelp else .invalidSubcommand
  | _ => .invalidSubcommand

/-- What is missing when no command has been named. -/
def withoutCommand (s : Scan) : UsageError :=
  match s.flush with
  | .error e => e
  | .ok s => if s.settings.isUnset then .displayHelpOnMissing else .missingSubcommand

/-- The arguments that the two parts set together. What the part of the command sets counts. -/
def combine (mode : Mode) (general command : Settings) (input : String) : Arguments :=
  { mode, input
    output := command.output
    config := command.config.or general.config
    verbose := if command.verbose ≠ 0 then command.verbose else general.verbose
    quiet := if command.quiet ≠ 0 then command.quiet else general.quiet }

/-- Reads the general part, and the part of the command after it. -/
def readGeneral (s : Scan) : List String → Except UsageError Arguments
  | [] => .error (withoutCommand s)
  | arg :: rest =>
    let named := !s.trailing && !s.awaiting
    if named && arg == helpCommand then .error (explain rest)
    else match if named then command? arg else none with
      | some mode => do
        let command ← readCommand {} rest
        let general ← s.finish
        match command.input with
        | some input => return combine mode general command input
        | none => throw .missingRequiredArgument
      | none => do
        let s ← s.argument .general arg
        readGeneral s rest

/-- Reads a command line, without the name of the program. -/
def parse (args : List String) : Except UsageError Arguments :=
  readGeneral {} args

/-! ## Messages -/

/-- The levels of messages, the most important first. -/
def levels : List Level :=
  [.error, .warn, .info, .debug, .trace]

/-- The levels of the messages that are shown. Errors and warnings are shown unless the options
ask for more or fewer, each of them up to 255 times. -/
def shownLevels (a : Arguments) : List Level :=
  levels.take (2 + min a.verbose 255 - min a.quiet 255)

end Arguments

end ForeignBindings
