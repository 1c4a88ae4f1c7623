import ForeignBindings.Build.Command
import ForeignBindings.Entry.Dialect
import ForeignBindings.Source.Definition
import ForeignBindings.Source.Items

/-!
# Drafts

A draft takes entries one after the other and collects what they ask for: lines of C, flags for
the compiler, and declarations of the bindings. It also knows the module that is open, from which
the names of types are spelled.

* `Draft.absorb` takes an entry that needs nothing from outside.
* `Draft.accept` takes any entry. Only flags of packages can fail; a failed entry leaves the
  draft as it was.
* `Draft.closeModule` ends the module that is open.
-/

namespace ForeignBindings

/-- What has been collected so far. -/
structure Draft where
  mode : Mode
  lines : List SourceLine
  flags : List String
  declarations : List Declaration
  /-- The module that is open. -/
  current : Option String
deriving Repr, DecidableEq

/-- Why no program can be generated. -/
inductive GenerationError where
  | interpret (e : InterpretError)
  /-- The flags of packages that are not optional could not be found. -/
  | packages (line : Nat) (names : List String) (cause : CommandError)
deriving Repr

/-- The wording of a generation error. -/
def GenerationError.message : GenerationError → String
  | interpret e => e.message
  | packages line names cause =>
    "line " ++ toString line ++ ": pkg-config failed for " ++ " ".intercalate names ++ ": " ++
      cause.message

namespace Draft

/-- The draft that has collected nothing. -/
def start (mode : Mode) : Draft :=
  { mode, lines := [], flags := [], declarations := [], current := none }

/-- Adds lines. -/
def write (s : Draft) (lines : List SourceLine) : Draft :=
  { s with lines := s.lines ++ lines }

/-- Adds flags. -/
def withFlags (s : Draft) (flags : List String) : Draft :=
  { s with flags := s.flags ++ flags }

/-- Adds a declaration. -/
def declare (s : Draft) (d : Declaration) : Draft :=
  { s with declarations := s.declarations ++ [d] }

/-- The lines that end the module that is open. -/
def closingLines (s : Draft) : List SourceLine :=
  if s.current.isSome then [.call .namespaceEnd] else []

/-- Ends the module that is open, in the lines only. -/
def closeModule (s : Draft) : Draft :=
  s.write s.closingLines

/-- Goes into a module. A probe prints it, with the end of the one before it; the bindings of
wrappers declare it. -/
def openModule (s : Draft) (name : String) : Draft :=
  match s.mode with
  | .probe =>
    { s.write (s.closingLines ++ [.call (.namespaceBegin name)]) with current := some name }
  | .wrapper => { s.declare (.inNamespace name) with current := some name }

/-- The line that defines a macro. -/
def defineLine (name : String) : Option String → SourceLine
  | some value => .plain ("#define " ++ name ++ " " ++ value)
  | none => .plain ("#define " ++ name)

/-- Takes an entry that needs nothing from outside; one that does changes nothing here. -/
def absorb (s : Draft) : Entry → Draft
  | .verbatim lines => s.write (lines.map .plain)
  | .headers names => s.write (names.map fun name => .plain ("#include <" ++ name ++ ">"))
  | .define name value => s.write [defineLine name value]
  | .typedef base name => s.write [.plain ("typedef " ++ base ++ " " ++ name ++ ";")]
  | .flags flags => s.withFlags flags
  | .packages .. => s
  | .inNamespace name => s.openModule name
  | .constant c => s.write c.lines
  | .intAlias a => s.write a.lines
  | .record r => s.write (r.lines s.current)
  | .enumeration e => s.write (e.lines s.current)
  | .wrapper w =>
    (s.write w.definition.lines).declare (.function (w.declaration s.current))

/-- The part of the program that skipped packages are logged by. -/
def logOrigin : String := "cgrovel::processor::emit"

/-- Takes an entry for the flags of packages. Optional ones that cannot be found are skipped. -/
def addPackages (s : Draft) (line : Nat) (names : List String) (optional : Bool) :
    StateM World (Except GenerationError Unit × Draft) := do
  match ← (Command.packageFlags names).run with
  | .ok flags => return (.ok (), s.withFlags flags)
  | .error cause =>
    if optional then
      modify fun w => w.record ⟨.warn, logOrigin,
        "skipping optional pkg-config packages " ++ " ".intercalate names ++ ": " ++ cause.message⟩
      return (.ok (), s)
    else return (.error (.packages line names cause), s)

/-- Takes an entry. -/
def accept (s : Draft) (p : Placed) : StateM World (Except GenerationError Unit × Draft) :=
  match p.entry with
  | .packages names optional => s.addPackages p.line names optional
  | entry => return (.ok (), s.absorb entry)

/-- Takes entries up to the first that fails. -/
def acceptAll (s : Draft) : List Placed → StateM World (Except GenerationError Unit × Draft)
  | [] => return (.ok (), s)
  | p :: rest => do
    match ← s.accept p with
    | (.ok (), s) => acceptAll s rest
    | (.error e, s) => return (.error e, s)

end Draft

end ForeignBindings
