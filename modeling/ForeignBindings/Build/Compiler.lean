import ForeignBindings.Build.Command
import ForeignBindings.Build.Configuration
import ForeignBindings.Build.Missing

/-!
# Compilers

The compiler that a run uses and how it is called. The environment decides which compiler it is,
then the configuration, then the host, a Linux system of 64-bit words.

* `Compiler.command` is the command that compiles a source file, and `Compiler.compile` runs it.
* `Command.probe` starts a program that has been compiled, which writes the bindings.
-/

namespace ForeignBindings

/-- A compiler and the flags it is called with. -/
structure Compiler where
  program : String
  wordSizeFlags : List String
  sharedLibraryFlags : List String
  extraFlags : List String
  supportDirectory : String
deriving Repr, DecidableEq, Inhabited

/-- What the compiler makes. -/
inductive Product where
  | executable
  | sharedLibrary
deriving Repr, DecidableEq

namespace Compiler

/-- The compiler that the environment asks for. An empty name asks for none. -/
def environmentCompiler? (env : Environment) : Option String :=
  env.compiler.filter fun name => !name.isEmpty

/-- The compiler for a configuration. -/
def ofConfiguration (config : Configuration) (env : Environment) : Compiler :=
  { program := ((environmentCompiler? env).or config.compiler).getD "cc"
    wordSizeFlags := config.wordSizeFlags.getD ["-m64"]
    sharedLibraryFlags := config.sharedLibraryFlags.getD ["-shared", "-fPIC"]
    extraFlags := config.extraFlags
    supportDirectory := config.supportDirectory.getD env.supportDirectory }

/-- The flags that only some products need. -/
def productFlags (c : Compiler) : Product → List String
  | .executable => []
  | .sharedLibrary => c.sharedLibraryFlags

/-- The command that compiles a source file. -/
def command (c : Compiler) (source output : String) (flags : List String)
    (product : Product) : Invocation :=
  [c.program] ++ c.wordSizeFlags ++ c.extraFlags ++ flags ++ ["-I" ++ c.supportDirectory] ++
    c.productFlags product ++ ["-o", output, source]

/-- Removes a file if that is possible. -/
def discard (path : String) : Action CommandError Unit :=
  modify fun w => (w.remove path).toOption.getD w

/-- Compiles a source file. A library of an earlier run is removed first. If it is in use, the host
can refuse to remove it, and what that comes to is left to the compiler. -/
def compile (c : Compiler) (source output : String) (flags : List String) (product : Product) :
    Action CommandError Unit := do
  if product = .sharedLibrary then discard output
  let _ ← Command.run (c.command source output flags product)

end Compiler

/-- Runs a probe, which writes the bindings, and gives the definitions it reports as missing. -/
def Command.probe (executable bindings : String) : Action CommandError (List String) := do
  let response ← Command.run [executable, bindings]
  return Missing.names response.stderr

end ForeignBindings
