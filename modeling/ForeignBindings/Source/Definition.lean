import ForeignBindings.Source.Line
import ForeignBindings.Bindings.Declaration

/-!
# Wrapper functions

A wrapper is compiled as a C function, and the bindings declare that function. The two agree on
its name and on the names and the order of its parameters.
-/

namespace ForeignBindings

/-- A function definition in C. -/
structure Definition where
  result : String
  name : String
  /-- Types and names. -/
  parameters : List (String × String)
  /-- The statements of the body. -/
  body : List String
deriving Repr, DecidableEq

namespace Definition

/-- The parameter list. An empty one says so. -/
def parameterList (d : Definition) : String :=
  if d.parameters.isEmpty then "void"
  else ", ".intercalate (d.parameters.map fun (type, name) => type ++ " " ++ name)

/-- The lines of the definition, with an empty one after it. -/
def lines (d : Definition) : List SourceLine :=
  ([d.result ++ " " ++ d.name ++ "(" ++ d.parameterList ++ ")", "\x7b"] ++
    d.body.map ("  " ++ ·) ++ ["\x7d", ""]).map .plain

end Definition

namespace Wrapper

/-- The call of the native function with the arguments of the wrapper. -/
def forwardingCall (w : Wrapper) : String :=
  w.native ++ "(" ++ ", ".intercalate (w.parameters.map Prod.fst) ++ ");"

/-- The statements of the body. A native function without a result is only called. -/
def statements (w : Wrapper) : List String :=
  match w.body with
  | .forward => [if w.result.isVoid then w.forwardingCall else "return " ++ w.forwardingCall]
  | .statements lines => lines

/-- The C function that a wrapper is compiled as. -/
def definition (w : Wrapper) : Definition :=
  { result := w.result.cSpelling
    name := w.symbol
    parameters := w.parameters.map fun (name, type) => (type.cSpelling, name)
    body := w.statements }

/-- The declaration of that function, inside the module `current` or at the root. -/
def declaration (w : Wrapper) (current : Option String) : DeclaredFunction :=
  { name := w.name
    symbol := w.symbol
    abi := w.convention.abi
    parameters := w.parameters.map fun (name, type) => (name, type.path current)
    result := if w.result.isVoid then none else some (w.result.path current)
    documentation := w.documentation }

end Wrapper

end ForeignBindings
