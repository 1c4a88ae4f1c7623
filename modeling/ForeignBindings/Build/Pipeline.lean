import ForeignBindings.Bindings.Render
import ForeignBindings.Build.Outputs
import ForeignBindings.Build.Compiler
import ForeignBindings.Source.Program
import ForeignBindings.Spec.Group

/-!
# Runs

What is done for one specification, from reading it to its bindings.

* `Pipeline.probe` compiles a program and runs it; the program writes the bindings. Definitions it
  does not find are logged and returned, and are no failure.
* `Pipeline.wrapper` compiles a library and writes its bindings.

Nothing is started or written before the whole specification has been read and understood.
-/

namespace ForeignBindings

/-- Why a run fails. -/
inductive RunError where
  | host (path : String) (cause : HostError)
  | read (path : String) (cause : Spec.SyntaxError)
  | generate (cause : GenerationError)
  | build (cause : CommandError)
deriving Repr

/-- The wording of a run error. -/
def RunError.message : RunError → String
  | host path cause => "I/O error on " ++ path ++ ": " ++ cause.message
  | read path cause => "reading " ++ path ++ ": " ++ cause.message
  | generate cause => cause.message
  | build cause => cause.message

/-- What a probe run has made and found. -/
structure ProbeReport where
  outputs : Outputs
  /-- The required definitions that were not found, in the order of the probe. -/
  missing : List String
deriving Repr, DecidableEq

/-- What a wrapper run has made. -/
structure LibraryReport where
  outputs : Outputs
  /-- The number of functions in the library. -/
  functions : Nat
deriving Repr, DecidableEq

namespace Pipeline

/-- The part of the program that runs are logged by. -/
def logOrigin : String := "cgrovel"

/-- Logs a message about a run. -/
def log (level : Level) (message : String) : Action RunError Unit :=
  Action.log level logOrigin message

/-- The directives in a file. -/
def directivesIn (input : String) : Action RunError (List Spec.Directive) := do
  let text ← Action.mapError (.host input) (Action.ofLook fun w => w.readText input)
  match Spec.directivesOf text with
  | .ok directives => return directives
  | .error cause => throw (.read input cause)

/-- Writes text to a file, instead of one that may be there. -/
def saveText (path text : String) : Action HostError Unit :=
  Action.ofChange fun w => w.write ⟨path, text.toUTF8, false⟩

/-- A text with a newline at its end. -/
def endLine (text : String) : String :=
  if text.toList.getLast? == some '\n' then text else text ++ "\n"

/-- Writes C source to a file. Its last line is ended. -/
def saveSource (path source : String) : Action HostError Unit :=
  saveText path (endLine source)

/-- Writes the source of a run, in a directory that is created if it is missing. -/
def saveProgram (outputs : Outputs) (source : String) : Action RunError Unit := do
  Action.mapError (.host outputs.directory)
    (Action.ofSteps fun w => w.createDirectories outputs.directory)
  Action.mapError (.host outputs.source) (saveSource outputs.source source)

/-- Reads a specification and writes the source that is generated for it. -/
def prepare (mode : Mode) (input : String) (output : Option String) :
    Action RunError (Generated × Outputs) := do
  let directives ← directivesIn input
  let generated ← Action.mapError .generate (Generated.ofDirectives mode directives)
  let outputs ← match Outputs.ofInput input output mode with
    | .ok outputs => pure outputs
    | .error cause => throw (.host input cause)
  saveProgram outputs generated.source
  return (generated, outputs)

/-- Logs each definition that a probe has not found. -/
def logMissing (input : String) : List String → Action RunError Unit
  | [] => return ()
  | name :: rest => do
    log .warn (input ++ ": missing definition: " ++ name)
    logMissing input rest

/-- Compiles and runs a probe for a specification. -/
def probe (input : String) (output : Option String) (compiler : Compiler) :
    Action RunError ProbeReport := do
  let (generated, outputs) ← prepare .probe input output
  log .info ("compiling probe " ++ outputs.binary)
  Action.mapError .build
    (compiler.compile outputs.source outputs.binary generated.flags .executable)
  log .info ("running probe, writing " ++ outputs.bindings)
  let missing ← Action.mapError .build (Command.probe outputs.binary outputs.bindings)
  logMissing input missing
  return { outputs, missing }

/-- Compiles the library for a specification and writes its bindings. -/
def wrapper (input : String) (output : Option String) (compiler : Compiler) :
    Action RunError LibraryReport := do
  let (generated, outputs) ← prepare .wrapper input output
  log .info ("linking " ++ outputs.binary)
  Action.mapError .build
    (compiler.compile outputs.source outputs.binary generated.flags .sharedLibrary)
  let searchPath ← Action.mapError (.host outputs.directory)
    (Action.ofLook fun w => w.canonical? outputs.directory)
  let library : Library :=
    { name := outputs.stem, searchPath, file := libraryFile outputs.stem }
  Action.mapError (.host outputs.bindings)
    (saveText outputs.bindings (Bindings.render generated.declarations library))
  let functions := generated.declarations.countP Declaration.isFunction
  log .info ("wrote " ++ toString functions ++ " wrappers to " ++ outputs.bindings)
  return { outputs, functions }

end Pipeline

end ForeignBindings
