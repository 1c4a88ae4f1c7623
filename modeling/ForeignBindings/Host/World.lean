import ForeignBindings.Host.Error
import ForeignBindings.Host.Path

/-!
# The world around a run

Everything a run can see or change: a tree of files, the programs that can be started, the
environment, the programs that have been started or could not be, and the messages that have been
logged.

* `World.readText`, `World.write`, `World.createDirectories`, `World.remove`, `World.canonical?`
  are the file operations.
* `World.start` starts a program and waits for it. What it does is a function of its arguments and
  of all programs started before it.
* `Action` is a computation that changes the world and may fail; a failure keeps the changes made
  before it.
-/

namespace ForeignBindings

/-- A place in the tree: the names on the way down from the root. -/
abbrev Location := List String

/-- What may be at a place. -/
inductive Node where
  | directory
  | file (content : ByteArray) (executable : Bool)
deriving Inhabited

/-- How a program ends. -/
inductive Exit where
  | code (n : Nat)
  | signal
deriving Repr, DecidableEq, Inhabited

/-- A file that a program writes. -/
structure Written where
  path : String
  content : ByteArray
  executable : Bool

/-- What a program does when it is started. -/
structure Response where
  exit : Exit
  stdout : String
  stderr : String
  /-- The files it tries to write, in order. -/
  writes : List Written

/-- The arguments a program is started with, the name it is started by first. -/
abbrev Invocation := List String

/-- A program can be given the word: it has no NUL character. -/
def isPassable (word : String) : Bool :=
  !word.toList.contains (Char.ofNat 0)

/-- A program: what it does when it is started with the given arguments, after other programs
have been started. -/
structure Program where
  respond : List Invocation → List String → Response

/-- How important a log message is. -/
inductive Level where
  | error
  | warn
  | info
  | debug
  | trace
deriving Repr, DecidableEq, Inhabited

/-- A log message and the part of the program that it comes from. -/
structure LogEntry where
  level : Level
  origin : String
  message : String
deriving Repr, DecidableEq, Inhabited

/-- What the environment tells a run. -/
structure Environment where
  /-- The compiler to use. -/
  compiler : Option String
  /-- The program that knows the flags of packages. -/
  packageTool : Option String
  /-- Where the helpers of a probe are installed. -/
  supportDirectory : String

/-- Everything a run can see or change. -/
structure World where
  nodes : List (Location × Node)
  workingDirectory : Location
  environment : Environment
  /-- The programs that are found by their name. -/
  programs : String → Option Program
  /-- What an executable file does. -/
  built : Program
  calls : List Invocation
  log : List LogEntry
  /-- The calls, and among them those whose program could not be started. -/
  attempts : List Invocation := []
  /-- Why the file at a place cannot be removed after some calls, if it cannot: it may be in use, or
  its directory may be protected. -/
  retained : List Invocation → Location → Option HostError := fun _ _ => none

/-- A computation that changes the world and may fail. -/
abbrev Action (ε α : Type) := ExceptT ε (StateM World) α

namespace World

/-! ## Places -/

/-- The absolute path of a place. -/
def absolutePath (place : Location) : String :=
  "/" ++ "/".intercalate place

/-- What is at a place. The root is always a directory. -/
def node? (w : World) : Location → Option Node
  | [] => some .directory
  | place => w.nodes.lookup place

/-- Puts something at a place, instead of what was there. -/
def put (w : World) (place : Location) (node : Node) : World :=
  { w with nodes := (place, node) :: w.nodes.filter fun entry => entry.1 != place }

/-- Takes away what is at a place. -/
def delete (w : World) (place : Location) : World :=
  { w with nodes := w.nodes.filter fun entry => entry.1 != place }

/-- The place is a directory. -/
def isDirectoryAt (w : World) (place : Location) : Bool :=
  match w.node? place with
  | some .directory => true
  | _ => false

/-- No directory has room for the name. -/
def isLongName (name : String) : Bool :=
  255 < name.utf8ByteSize

/-- The place that some steps lead to. Each of them starts from a directory. -/
def walk (w : World) (place : Location) : List String → Except HostError Location
  | [] => .ok place
  | step :: rest =>
    if !w.isDirectoryAt place then .error .notADirectory
    else if step == "." then walk w place rest
    else if step == ".." then walk w place.dropLast rest
    else if isLongName step then .error .nameTooLong
    else if (w.node? (place ++ [step])).isNone then .error .notFound
    else walk w (place ++ [step]) rest

/-- Where a path starts. -/
def startOf (w : World) (path : String) : Location :=
  if Path.isAbsolute path then [] else w.workingDirectory

/-- Refuses paths that no file can have. -/
def checkPath (path : String) : Except HostError Unit :=
  if path.toList.contains (Char.ofNat 0) then .error .nulInPath
  else if path.isEmpty then .error .notFound
  else if 4096 ≤ path.utf8ByteSize then .error .nameTooLong
  else .ok ()

/-- The place of what a path names. A slash at the end of the path asks for a directory. -/
def resolve (w : World) (path : String) : Except HostError Location := do
  checkPath path
  w.walk (w.startOf path) (Path.steps path ++ if Path.endsWithSlash path then ["."] else [])

/-- Where something new would be put: a directory and the name in it, or nothing if the path ends
in a dot, a double dot or the root, which always exist. The directory may have no room for the
name. -/
def resolveNew (w : World) (path : String) : Except HostError (Option (Location × String)) := do
  checkPath path
  match (Path.steps path).getLast? with
  | none => .ok none
  | some name =>
    let place ← w.walk (w.startOf path) (Path.steps path).dropLast
    if !w.isDirectoryAt place then .error .notADirectory
    else if name == "." || name == ".." then .ok none
    else .ok (some (place, name))

/-! ## Files -/

/-- Something is at the path. -/
def pathExists (w : World) (path : String) : Bool :=
  (w.resolve path).isOk

/-- A directory is at the path. -/
def isDirectory (w : World) (path : String) : Bool :=
  match w.resolve path with
  | .ok place => w.isDirectoryAt place
  | .error _ => false

/-- The text of the file at a path. -/
def readText (w : World) (path : String) : Except HostError String := do
  let place ← w.resolve path
  match w.node? place with
  | some (.file content _) =>
    match String.fromUTF8? content with
    | some text => .ok text
    | none => .error .notText
  | some .directory => .error .isADirectory
  | none => .error .notFound

/-- Writes a file, instead of one that may be there. A slash at the end of the path asks for a
directory, whatever stands before it. -/
def write (w : World) (file : Written) : Except HostError World := do
  match ← w.resolveNew file.path with
  | none => .error .isADirectory
  | some (place, name) =>
    if Path.endsWithSlash file.path then .error .isADirectory
    else if isLongName name then .error .nameTooLong
    else if w.isDirectoryAt (place ++ [name]) then .error .isADirectory
    else .ok (w.put (place ++ [name]) (.file file.content file.executable))

/-- Creates one directory. -/
def createDirectory (w : World) (path : String) : Except HostError World := do
  match ← w.resolveNew path with
  | none => .error .alreadyExists
  | some (place, name) =>
    if isLongName name then .error .nameTooLong
    else if (w.node? (place ++ [name])).isSome then .error .alreadyExists
    else .ok (w.put (place ++ [name]) .directory)

/-- Creates the directory at the first of some paths, each of which lies in the next, and those of
the others that are missing. The empty path is the working directory. Directories created before
a failure stay. -/
def createChain (w : World) : List String → Except HostError Unit × World
  | [] => (.error .noParent, w)
  | path :: above =>
    if path.isEmpty then (.ok (), w)
    else match w.createDirectory path with
      | .ok w => (.ok (), w)
      | .error .notFound =>
        match createChain w above with
        | (.error e, w) => (.error e, w)
        | (.ok (), w) =>
          match w.createDirectory path with
          | .ok w => (.ok (), w)
          | .error e => (if w.isDirectory path then .ok () else .error e, w)
      | .error e => (if w.isDirectory path then .ok () else .error e, w)

/-- Creates a directory and those above it, where they are missing. -/
def createDirectories (w : World) (path : String) : Except HostError Unit × World :=
  w.createChain (path :: Path.ancestors path)

/-- Removes a file, unless the host keeps it. -/
def remove (w : World) (path : String) : Except HostError World := do
  let place ← w.resolve path
  match w.node? place with
  | some (.file ..) =>
    match w.retained w.calls place with
    | some cause => .error cause
    | none => .ok (w.delete place)
  | some .directory => .error .isADirectory
  | none => .error .notFound

/-- The absolute path without detours of what a path names. -/
def canonical? (w : World) (path : String) : Except HostError String := do
  let place ← w.resolve path
  .ok (absolutePath place)

/-! ## Programs -/

/-- The program that a name stands for: the executable file at a path if the name has a slash, and
else one that is found by its name. A dot or a double dot finds a directory, which cannot be
started. -/
def program? (w : World) (name : String) : Except HostError Program :=
  if name.toList.contains '/' then do
    let place ← w.resolve name
    match w.node? place with
    | some (.file _ true) => .ok w.built
    | _ => .error .permissionDenied
  else if name == "." || name == ".." then .error .permissionDenied
  else if isLongName name then .error .nameTooLong
  else
    match w.programs name with
    | some p => .ok p
    | none => .error .notFound

/-- Does what a program wants to write, as far as that is possible. -/
def applyWrites (w : World) (writes : List Written) : World :=
  writes.foldl (fun w file => (w.write file).toOption.getD w) w

/-- Makes a note that a program is about to be started. -/
def attempt (w : World) (call : Invocation) : World :=
  { w with attempts := w.attempts ++ [call] }

/-- Starts a program and waits for it. -/
def start (w : World) (call : Invocation) : Except HostError Response × World :=
  let w := w.attempt call
  if !call.all isPassable then (.error .nulInArgument, w)
  else
    match w.program? (call.headD "") with
    | .error e => (.error e, w)
    | .ok p =>
      let response := p.respond w.calls call.tail
      (.ok response, { w with calls := w.calls ++ [call] }.applyWrites response.writes)

/-- Logs a message. -/
def record (w : World) (entry : LogEntry) : World :=
  { w with log := w.log ++ [entry] }

end World

namespace Action

/-- A change of the world that is done as a whole or refused. -/
def ofChange (change : World → Except HostError World) : Action HostError Unit := do
  match change (← get) with
  | .ok w => set w
  | .error e => throw e

/-- A change of the world that may stop halfway. -/
def ofSteps {α : Type} (steps : World → Except HostError α × World) : Action HostError α := do
  let (outcome, w) := steps (← get)
  set w
  match outcome with
  | .ok a => return a
  | .error e => throw e

/-- A look at the world that may be refused. -/
def ofLook {α : Type} (look : World → Except HostError α) : Action HostError α := do
  match look (← get) with
  | .ok a => return a
  | .error e => throw e

/-- Starts a program and waits for it. -/
def start (call : Invocation) : Action HostError Response :=
  ofSteps fun w => w.start call

/-- Logs a message. -/
def log {ε : Type} (level : Level) (origin : String) (message : String) : Action ε Unit :=
  modify fun w => w.record ⟨level, origin, message⟩

/-- Gives a failure another form. -/
def mapError {ε ε' α : Type} (f : ε → ε') (a : Action ε α) : Action ε' α :=
  ExceptT.mk do
    match ← a.run with
    | .ok x => return .ok x
    | .error e => return .error (f e)

end Action

end ForeignBindings
