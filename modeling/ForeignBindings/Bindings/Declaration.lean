/-!
# Declarations

What the bindings of a wrapper library declare, in order: functions, and the modules that they
are put into.
-/

namespace ForeignBindings

/-- A function of the library, as the bindings declare it. -/
structure DeclaredFunction where
  name : String
  /-- The name of the function in the library. -/
  symbol : String
  abi : String
  /-- Names and types, as they are spelled in the module of the function. -/
  parameters : List (String × String)
  result : Option String
  documentation : Option String
deriving Repr, DecidableEq, Inhabited

/-- An entry of the bindings. -/
inductive Declaration where
  /-- The functions from here on belong to the module of this name. -/
  | inNamespace (name : String)
  | function (f : DeclaredFunction)
deriving Repr, DecidableEq, Inhabited

/-- The declaration is a function. -/
def Declaration.isFunction : Declaration → Bool
  | inNamespace _ => false
  | function _ => true

end ForeignBindings
