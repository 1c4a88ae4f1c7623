import ForeignBindings.Identifier
import ForeignBindings.Spec.Directive

/-!
# Foreign types

A type as a specification refers to it: a primitive type, a named one, or a pointer to another.
Each has two spellings.

* `ForeignType.cSpelling` is the spelling in C.
* `ForeignType.path` is the spelling in the bindings, seen from the module it is written in. Modules
  are siblings under one root, so a name of another module is reached through `super`.
* `ForeignType.ofForm` reads a type from an argument.
-/

namespace ForeignBindings

open Spec

/-- The primitive types. -/
inductive Primitive where
  | char
  | uchar
  | short
  | ushort
  | int
  | uint
  | long
  | ulong
  | llong
  | ullong
  | int8
  | uint8
  | int16
  | uint16
  | int32
  | uint32
  | int64
  | uint64
  | size
  | ssize
  | float
  | double
  | pointer
  | string
  | void
deriving Repr, DecidableEq, Inhabited

namespace Primitive

/-- All primitive types. -/
def all : List Primitive :=
  [char, uchar, short, ushort, int, uint, long, ulong, llong, ullong, int8, uint8, int16, uint16,
    int32, uint32, int64, uint64, size, ssize, float, double, pointer, string, void]

/-- The keyword that stands for the type in a specification. -/
def keyword : Primitive → String
  | char => "char"
  | uchar => "uchar"
  | short => "short"
  | ushort => "ushort"
  | int => "int"
  | uint => "uint"
  | long => "long"
  | ulong => "ulong"
  | llong => "llong"
  | ullong => "ullong"
  | int8 => "int8"
  | uint8 => "uint8"
  | int16 => "int16"
  | uint16 => "uint16"
  | int32 => "int32"
  | uint32 => "uint32"
  | int64 => "int64"
  | uint64 => "uint64"
  | size => "size"
  | ssize => "ssize"
  | float => "float"
  | double => "double"
  | pointer => "pointer"
  | string => "string"
  | void => "void"

/-- The spelling in C. -/
def cSpelling : Primitive → String
  | char => "char"
  | uchar => "unsigned char"
  | short => "short"
  | ushort => "unsigned short"
  | int => "int"
  | uint => "unsigned int"
  | long => "long"
  | ulong => "unsigned long"
  | llong => "long long"
  | ullong => "unsigned long long"
  | int8 => "int8_t"
  | uint8 => "uint8_t"
  | int16 => "int16_t"
  | uint16 => "uint16_t"
  | int32 => "int32_t"
  | uint32 => "uint32_t"
  | int64 => "int64_t"
  | uint64 => "uint64_t"
  | size => "size_t"
  | ssize => "ssize_t"
  | float => "float"
  | double => "double"
  | pointer => "void *"
  | string => "char *"
  | void => "void"

/-- The spelling in the bindings. -/
def path : Primitive → String
  | char => "::core::ffi::c_char"
  | uchar => "::core::ffi::c_uchar"
  | short => "::core::ffi::c_short"
  | ushort => "::core::ffi::c_ushort"
  | int => "::core::ffi::c_int"
  | uint => "::core::ffi::c_uint"
  | long => "::core::ffi::c_long"
  | ulong => "::core::ffi::c_ulong"
  | llong => "::core::ffi::c_longlong"
  | ullong => "::core::ffi::c_ulonglong"
  | int8 => "i8"
  | uint8 => "u8"
  | int16 => "i16"
  | uint16 => "u16"
  | int32 => "i32"
  | uint32 => "u32"
  | int64 => "i64"
  | uint64 => "u64"
  | size => "usize"
  | ssize => "isize"
  | float => "f32"
  | double => "f64"
  | pointer => "*mut ::core::ffi::c_void"
  | string => "*mut ::core::ffi::c_char"
  | void => "()"

/-- The primitive type that a keyword stands for. -/
def ofKeyword? (keyword : String) : Option Primitive :=
  all.find? fun p => p.keyword == keyword

/-- Every primitive type is found by its own keyword. -/
theorem ofKeyword?_keyword (p : Primitive) : ofKeyword? p.keyword = some p := by
  cases p <;> decide

end Primitive

/-- A type as a slot, an enumeration or a signature refers to it. -/
inductive ForeignType where
  | primitive (p : Primitive)
  | named (s : Symbol)
  | pointer (target : ForeignType)
deriving Repr, DecidableEq, Inhabited

/-- Why an argument is no type. -/
inductive TypeFault where
  | unknownPrimitive (keyword : String)
  | malformedPointer
  | notAType (found : Form)
deriving Repr, Inhabited

/-- The wording of a type fault. -/
def TypeFault.message : TypeFault → String
  | unknownPrimitive keyword => "unknown primitive type `:" ++ keyword ++ "`"
  | malformedPointer => "type list must look like (:pointer TYPE)"
  | notAType found => "expected a type, found " ++ found.description

/-- The spelling of a symbol in the bindings, inside the module `current` or at the root. -/
def Spec.Symbol.pathFrom (s : Symbol) (current : Option String) : String :=
  let name := Identifier.typeName s.name
  match s.scope, current with
  | none, none => name
  | none, some _ => "super::" ++ name
  | some target, none => target ++ "::" ++ name
  | some target, some here =>
    if target == here then name else "super::" ++ target ++ "::" ++ name

namespace ForeignType

/-- The type that an argument refers to: a keyword names a primitive type, a symbol a type of that
name, and `(:pointer T)` a pointer. -/
def ofForm : Form → Except TypeFault ForeignType
  | .keyword name =>
    match Primitive.ofKeyword? name with
    | some p => .ok (primitive p)
    | none => .error (.unknownPrimitive name)
  | .symbol s => .ok (named s)
  | .list [.keyword name, target] =>
    if name == "pointer" then (ofForm target).map pointer else .error .malformedPointer
  | .list _ => .error .malformedPointer
  | found => .error (.notAType found)

/-- The type of no value. -/
def isVoid : ForeignType → Bool
  | primitive .void => true
  | _ => false

/-- The spelling in C. -/
def cSpelling : ForeignType → String
  | primitive p => p.cSpelling
  | named s => Identifier.typeName s.name
  | pointer target => target.cSpelling ++ " *"

/-- The spelling in the bindings, inside the module `current` or at the root. A pointer
to no value is one to data of unknown type. -/
def path (current : Option String) : ForeignType → String
  | primitive p => p.path
  | named s => s.pathFrom current
  | pointer (primitive .void) => "*mut ::core::ffi::c_void"
  | pointer target => "*mut " ++ target.path current

end ForeignType

end ForeignBindings
