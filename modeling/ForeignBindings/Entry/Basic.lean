import ForeignBindings.ForeignType

/-!
# Entries

What a directive asks for once its arguments have the right shape. An entry names things twice: by
the name that the bindings declare, and by the native text of the C program.
-/

namespace ForeignBindings

open Spec

/-- The type of a constant. -/
inductive NumberType where
  | integer
  | double
deriving Repr, DecidableEq, Inhabited

/-- A constant whose value is that of a macro. -/
structure Constant where
  name : String
  /-- Macros tried in order; the first one defined gives the value. -/
  candidates : List String
  documentation : Option String
  /-- Whether it may be left out when no candidate is defined. -/
  optional : Bool
  type : NumberType
deriving Repr, DecidableEq, Inhabited

/-- A type of the bindings with the size and sign of a native one. -/
structure Alias where
  name : String
  native : String
  documentation : Option String
deriving Repr, DecidableEq, Inhabited

/-- How many elements a slot has. -/
inductive ElementCount where
  | fixed (count : Nat)
  /-- The value of a C expression. -/
  | named (expression : String)
  /-- As many as fit between the start of the slot and the end of the record. -/
  | auto
deriving Repr, DecidableEq, Inhabited

/-- A field of a record. -/
structure Slot where
  name : String
  native : String
  type : ForeignType
  count : ElementCount
deriving Repr, DecidableEq, Inhabited

/-- Whether the fields of a record follow each other or overlap. -/
inductive Layout where
  | struct
  | union
deriving Repr, DecidableEq, Inhabited

/-- A record with some of its fields. -/
structure Record where
  kind : Layout
  name : String
  native : String
  documentation : Option String
  slots : List Slot
deriving Repr, DecidableEq, Inhabited

/-- A member of an enumeration. -/
structure Member where
  name : String
  /-- Native names, tried in order where the members are macros. -/
  candidates : List String
  documentation : Option String
  optional : Bool
deriving Repr, DecidableEq, Inhabited

/-- The native name of a member that has only one. -/
def Member.native? (m : Member) : Option String :=
  m.candidates.head?

/-- An enumeration with its members. -/
structure Enumeration where
  name : String
  base : ForeignType
  documentation : Option String
  /-- Whether the members are macros, which can be tested for, or plain enumerators. -/
  macroMembers : Bool
  /-- Whether each member is declared as a constant too. -/
  defineConstants : Bool
  members : List Member
deriving Repr, DecidableEq, Inhabited

/-- How a function is called. -/
inductive CallingConvention where
  | c
  | system
deriving Repr, DecidableEq, Inhabited

/-- The name of a calling convention in the bindings. -/
def CallingConvention.abi : CallingConvention → String
  | c => "C"
  | system => "system"

/-- What a wrapper does. -/
inductive Body where
  /-- It calls the native function with its own arguments. -/
  | forward
  /-- It runs the given C statements. -/
  | statements (lines : List String)
deriving Repr, DecidableEq, Inhabited

/-- A C function to be compiled, and declared in the bindings. -/
structure Wrapper where
  name : String
  native : String
  convention : CallingConvention
  documentation : Option String
  result : ForeignType
  parameters : List (String × ForeignType)
  body : Body
deriving Repr, DecidableEq, Inhabited

/-- The name of the compiled function. -/
def Wrapper.symbol (w : Wrapper) : String :=
  w.native ++ "_wrap"

/-- What a directive asks for. -/
inductive Entry where
  /-- Lines of C text. -/
  | verbatim (lines : List String)
  /-- Headers to include. -/
  | headers (names : List String)
  | define (name : String) (value : Option String)
  | typedef (base : String) (name : String)
  /-- Flags for the compiler. -/
  | flags (flags : List String)
  /-- Packages whose flags the compiler needs. -/
  | packages (names : List String) (optional : Bool)
  /-- A new module of the bindings. -/
  | inNamespace (name : String)
  | constant (c : Constant)
  | intAlias (a : Alias)
  | record (r : Record)
  | enumeration (e : Enumeration)
  | wrapper (w : Wrapper)
deriving Repr, DecidableEq, Inhabited

/-- An entry with the kind and the line of its directive. -/
structure Placed where
  kind : Kind
  line : Nat
  entry : Entry
deriving Repr, DecidableEq, Inhabited

end ForeignBindings
