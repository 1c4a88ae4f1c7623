import ForeignBindings.Entry.Dialect
import ForeignBindings.Host.Error
import ForeignBindings.Host.Path

/-!
# Outputs

The files that a run makes, named after its input: the generated C source, the program or library
it is compiled to, and the bindings. They lie in the output directory, or beside the input.
-/

namespace ForeignBindings

/-- The files that a run makes. -/
structure Outputs where
  stem : String
  directory : String
  source : String
  binary : String
  bindings : String
deriving Repr, DecidableEq, Inhabited

/-- The file name of the library for a stem. -/
def libraryFile (stem : String) : String :=
  "lib" ++ stem ++ ".so"

/-- The file name of what a source is compiled to. -/
def binaryFile (stem : String) : Mode → String
  | .probe => stem
  | .wrapper => libraryFile stem

namespace Outputs

/-- The directory of the outputs: the output directory, or that of the input; the working
directory by name if that is the empty path. -/
def directoryFor (input : String) (output : Option String) : String :=
  match output.or (Path.parent? input) with
  | some directory => if directory.isEmpty then "." else directory
  | none => "."

/-- The outputs for an input. An input without a file name has none. -/
def ofInput (input : String) (output : Option String) (mode : Mode) :
    Except HostError Outputs :=
  match Path.stem? input with
  | none => .error .noFileName
  | some stem =>
    let directory := directoryFor input output
    .ok
      { stem, directory
        source := Path.join directory (stem ++ ".c")
        binary := Path.join directory (binaryFile stem mode)
        bindings := Path.join directory (stem ++ ".rs") }

end Outputs

end ForeignBindings
