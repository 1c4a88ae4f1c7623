import ForeignBindings.CommandLine.Arguments
import ForeignBindings.CommandLine.Report

/-!
# The program as a whole

A run of the program from its command line: the configuration is loaded, the command is carried
out, and the log and the error that may have ended it are shown.
-/

namespace ForeignBindings

/-- Why a command was not carried out, with what the program was doing. -/
structure Failure where
  context : String
  causes : List String
deriving Repr, DecidableEq

/-- What a run shows and how it ends. -/
structure Outcome where
  code : Nat
  stdout : String
  stderr : String
deriving Repr, DecidableEq

namespace Arguments

/-- The configuration that is asked for. -/
def configuration (a : Arguments) : Action Failure Configuration :=
  match a.config with
  | none => return {}
  | some path =>
    Action.mapError (fun e => ⟨"Loading configuration", e.causes⟩) (Configuration.ofFile path)

/-- Carries out the command. -/
def execute (a : Arguments) (compiler : Compiler) : Action Failure Unit :=
  match a.mode with
  | .probe => do
    let report ← Action.mapError (fun e => ⟨"Groveling " ++ a.input, e.causes⟩)
      (Pipeline.probe a.input a.output compiler)
    if !report.missing.isEmpty then
      Action.log .warn Pipeline.logOrigin
        (toString report.missing.length ++ " missing definition(s)")
    Action.log .info Pipeline.logOrigin ("bindings written to " ++ report.outputs.bindings)
  | .wrapper => do
    let _ ← Action.mapError (fun e => ⟨"Wrapping " ++ a.input, e.causes⟩)
      (Pipeline.wrapper a.input a.output compiler)

/-- Loads the configuration and carries out the command. -/
def perform (a : Arguments) : Action Failure Unit := do
  let config ← a.configuration
  a.execute (Compiler.ofConfiguration config (← get).environment)

/-- A run with arguments that have been understood. The log of the run is what the world has
logged since its start. -/
def run (a : Arguments) : StateM World Outcome := do
  let before := (← get).log.length
  let result ← (perform a).run
  let logged := Report.logText a.shownLevels ((← get).log.drop before)
  match result with
  | .ok () => return ⟨0, "", logged⟩
  | .error f => return ⟨1, "", logged ++ Report.errorText f.context f.causes⟩

end Arguments

/-- A run of the program with the given arguments, the name of the program not among them. -/
def run (args : List String) : StateM World (Except UsageError Outcome) :=
  match Arguments.parse args with
  | .ok a => Except.ok <$> a.run
  | .error e => return .error e

end ForeignBindings
