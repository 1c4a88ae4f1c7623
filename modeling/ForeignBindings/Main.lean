import ForeignBindings.CommandLine.Run

/-!
# The command

A run on the files of the host it is started on.

* `Main.survey` looks at the places that the paths of a command line pass.
* `Main.settle` does on the host what the run has done to the world it was given.

Compilers and other programs are not started from here. A run that asks for one is told that there
is none, so it ends once the generated source is written.
-/

namespace ForeignBindings.Main

/-! ## Paths of a command line -/

/-- The paths at which a run reads or writes. -/
def pathsOf (a : Arguments) : List String :=
  let made := match Outputs.ofInput a.input a.output a.mode with
    | .ok made => [made.source, made.binary, made.bindings]
    | .error _ => []
  a.input :: a.config.toList ++ made

/-- The places on the way from one place by some steps, the last one included. -/
def passed (place : Location) : List String → List Location
  | [] => []
  | step :: rest =>
    let next :=
      if step == "." then place
      else if step == ".." then place.dropLast
      else place ++ [step]
    next :: passed next rest

/-- The places that a path passes in a world. -/
def passedBy (w : World) (path : String) : List Location :=
  passed (w.startOf path) (Path.steps path)

/-! ## The host -/

/-- What is at a place of the host, if it can be read. -/
def look (place : Location) : IO (Option Node) := do
  let path := World.absolutePath place
  try
    let _ ← IO.FS.realPath (path ++ "/.")
    return some .directory
  catch _ =>
    try
      return some (.file (← IO.FS.readBinFile path) false)
    catch _ => return none

/-- A world without files and programs, in the working directory of the host. -/
def vacant : IO World := do
  let here ← IO.FS.realPath "."
  return {
    nodes := []
    workingDirectory := Path.steps here.toString
    environment :=
      { compiler := ← IO.getEnv "CC"
        packageTool := ← IO.getEnv "PKG_CONFIG"
        supportDirectory := "/usr/local/share/foreign-bindings" }
    programs := fun _ => none
    built := { respond := fun _ _ => ⟨.code 0, "", "", []⟩ }
    calls := []
    log := [] }

/-- The world that a run with some arguments can see. -/
def survey (a : Arguments) : IO World := do
  let mut w ← vacant
  let places := passed [] w.workingDirectory ++ (pathsOf a).flatMap (passedBy w)
  for place in places do
    match ← look place with
    | some node => w := w.put place node
    | none => pure ()
  return w

/-- Does on the host what makes one world the other. -/
def settle (before after : World) : IO Unit := do
  for (place, node) in after.nodes.reverse do
    match node, before.node? place with
    | .directory, some .directory => pure ()
    | .directory, _ => IO.FS.createDirAll (World.absolutePath place)
    | .file content _, some (.file old _) =>
      if content != old then IO.FS.writeBinFile (World.absolutePath place) content
    | .file content _, _ => IO.FS.writeBinFile (World.absolutePath place) content
  for (place, _) in before.nodes do
    if (after.node? place).isNone then IO.FS.removeFile (World.absolutePath place)

/-- Runs with arguments that have been understood, and gives the exit code. -/
def perform (a : Arguments) : IO UInt32 := do
  let before ← survey a
  let (outcome, after) := a.run.run before
  settle before after
  IO.print outcome.stdout
  IO.eprint outcome.stderr
  return outcome.code.toUInt32

end ForeignBindings.Main

/-- The command, without the name of the program among its arguments. -/
def main (args : List String) : IO UInt32 := do
  match ForeignBindings.Arguments.parse args with
  | .ok a => ForeignBindings.Main.perform a
  | .error e =>
    IO.eprintln ("error: " ++ e.name)
    return e.exitCode.toUInt32
