import ForeignBindings.Build.Json
import ForeignBindings.Host.World

/-!
# Configurations

What a user may set about the compiler, in a JSON file. Members may be left out; others than the
known ones are refused, and so is one that is given twice. A list of the values in the order of the
fields is read too.
-/

namespace ForeignBindings

/-- What a user may set about the compiler. -/
structure Configuration where
  compiler : Option String := none
  /-- Flags instead of those that the host asks for. -/
  wordSizeFlags : Option (List String) := none
  /-- Flags that make a shared library instead of those of the host. -/
  sharedLibraryFlags : Option (List String) := none
  /-- Flags for every call of the compiler. -/
  extraFlags : List String := []
  /-- Where the helpers of a probe are. -/
  supportDirectory : Option String := none
deriving Repr, DecidableEq, Inhabited

/-- Why a configuration cannot be used. -/
inductive ConfigurationError where
  | unreadable (path : String) (cause : HostError)
  | malformed (path : String) (fault : Json.Fault)
deriving Repr, DecidableEq

/-- The wording of a configuration error. -/
def ConfigurationError.message : ConfigurationError → String
  | unreadable path cause => "failed to read config " ++ path ++ ": " ++ cause.message
  | malformed path fault => "invalid config " ++ path ++ ": " ++ fault.name

namespace Configuration

/-- The members of a configuration. -/
inductive Field where
  | compiler
  | wordSizeFlags
  | sharedLibraryFlags
  | extraFlags
  | supportDirectory
deriving Repr, DecidableEq

/-- All fields, in the order of a list of their values. -/
def Field.all : List Field :=
  [compiler, wordSizeFlags, sharedLibraryFlags, extraFlags, supportDirectory]

/-- The key of a field. -/
def Field.key : Field → String
  | compiler => "compiler"
  | wordSizeFlags => "word_size_flags"
  | sharedLibraryFlags => "shared_library_flags"
  | extraFlags => "extra_flags"
  | supportDirectory => "support_dir"

/-- The field with the given key. -/
def Field.ofKey? (key : String) : Option Field :=
  all.find? fun f => f.key == key

/-- Reads the value of a field. -/
def readField (c : Configuration) : Field → Json.Reader Configuration
  | .compiler, cs => (Json.readOptional Json.readString cs).map fun (v, rest) =>
    ({ c with compiler := v }, rest)
  | .wordSizeFlags, cs => (Json.readOptional Json.readStrings cs).map fun (v, rest) =>
    ({ c with wordSizeFlags := v }, rest)
  | .sharedLibraryFlags, cs => (Json.readOptional Json.readStrings cs).map fun (v, rest) =>
    ({ c with sharedLibraryFlags := v }, rest)
  | .extraFlags, cs => (Json.readStrings cs).map fun (v, rest) =>
    ({ c with extraFlags := v }, rest)
  | .supportDirectory, cs => (Json.readOptional Json.readString cs).map fun (v, rest) =>
    ({ c with supportDirectory := v }, rest)

/-- Reads the values of some fields from a list, as many as it has. -/
def readElements (c : Configuration) (first : Bool) : List Field → Json.Reader Configuration
  | [], cs => do
    let ((), cs) ← Json.endList cs
    return (c, cs)
  | field :: fields, cs => do
    let (more, cs) ← Json.nextElement first cs
    if more then
      let (c, cs) ← c.readField field cs
      readElements c false fields cs
    else
      let ((), cs) ← Json.endList cs
      return (c, cs)

/-- Reads what is left of an object after the members already read. The first argument bounds the
number of members. -/
def readMembers : Nat → Configuration → List Field → Json.Reader Configuration
  | 0, _, _, _ => .error .malformed
  | bound + 1, c, seen, cs => do
    let (more, cs) ← Json.nextMember seen.isEmpty cs
    if more then
      let (key, cs) ← Json.readString cs
      let some field := Field.ofKey? key | throw .unsuitable
      if seen.contains field then throw .unsuitable
      let ((), cs) ← Json.readColon cs
      let (c, cs) ← c.readField field cs
      readMembers bound c (field :: seen) cs
    else
      let ((), cs) ← Json.endObject cs
      return (c, cs)

/-- The configuration that a JSON text writes. -/
def ofText (text : String) : Except Json.Fault Configuration := do
  match Json.skipSpace text.toList with
  | '[' :: cs =>
    let (c, cs) ← readElements {} true Field.all cs
    Json.finish c cs
  | '\x7b' :: cs =>
    let (c, cs) ← readMembers (cs.length + 1) {} [] cs
    Json.finish c cs
  | cs => throw (Json.otherValue cs)

/-- The configuration in a file. -/
def ofFile (path : String) : Action ConfigurationError Configuration := do
  let text ← Action.mapError (.unreadable path) (Action.ofLook fun w => w.readText path)
  match ofText text with
  | .ok c => return c
  | .error fault => throw (.malformed path fault)

end Configuration

end ForeignBindings
