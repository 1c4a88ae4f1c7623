import ForeignBindings.Host.World
import ForeignBindings.Text.Blank

/-!
# Commands

Starting other programs. A program that cannot be started and one that ends with anything but
success are failures, and the message of either shows the whole command.
-/

namespace ForeignBindings

/-- Why a command failed. -/
inductive CommandError where
  | spawn (command : String) (cause : HostError)
  | failed (command : String) (exit : Exit) (stdout : String) (stderr : String)
deriving Repr, DecidableEq

/-- How a message says that a program ended. -/
def Exit.description : Exit → String
  | code n => "exit code " ++ toString n
  | signal => "no exit code (terminated by signal)"

/-- The wording of a build error. -/
def CommandError.message : CommandError → String
  | spawn command cause => "failed to spawn `" ++ command ++ "`: " ++ cause.message
  | failed command exit stdout stderr =>
    "`" ++ command ++ "` exited with " ++ exit.description ++
      "\n--- stdout ---\n" ++ stdout ++ "\n--- stderr ---\n" ++ stderr

namespace Command

/-- One word of a command as a message shows it. A word that no program can be given is not
shown. -/
def shownWord (word : String) : String :=
  if isPassable word then word else "<string-with-nul>"

/-- A command as a message shows it. -/
def line (call : Invocation) : String :=
  " ".intercalate (call.map shownWord)

/-- Runs a command and asks for success. -/
def run (call : Invocation) : Action CommandError Response := do
  let response ← Action.mapError (.spawn (line call)) (Action.start call)
  if response.exit = .code 0 then return response
  throw (.failed (line call) response.exit response.stdout response.stderr)

/-- The flags that the compiler needs for some packages, as the program that knows them prints
them. -/
def packageFlags (packages : List String) : Action CommandError (List String) := do
  let tool := (← get).environment.packageTool.getD "pkg-config"
  let response ← run (tool :: "--cflags" :: packages)
  return Text.words response.stdout

end Command

end ForeignBindings
