import ForeignBindings.Number.Significant
import ForeignBindings.Number.Word
import ForeignBindings.Text.Lines

/-!
# Output of a probe

What a probe prints when it runs: each helper that it calls, as a function from its arguments to the
text.

* `ProbeOutput.documentation` is the lines of a documentation text.
* `ProbeOutput.integer` is an integer of either sign type, and `ProbeOutput.constant` a constant of
  the narrowest of the two 64-bit types that hold its value.
* `ProbeOutput.missing` is a note in the bindings and `ProbeOutput.missingLine` the line for the
  caller, which `Missing.names` reads back.

Texts that a helper is given end at their first NUL character.
-/

namespace ForeignBindings

/-- A number that a macro stands for, by the type it has in C. -/
inductive NativeValue where
  | signed (v : Int)
  | unsigned (v : Nat)
  | real (x : Binary64)
deriving Repr, DecidableEq

namespace NativeValue

/-- The value is at most the largest signed 64-bit integer, as the types of C compare them. The
bound itself becomes `2 ^ 63` when it is compared with a floating-point value. -/
def fitsSigned : NativeValue → Bool
  | signed v => v < Word.half
  | unsigned v => v < Word.half
  | real .nan => false
  | real (.infinite negative) => negative
  | real (.finite negative m e) => negative || Binary64.isAtMost m e Word.half

/-- The value as a signed 64-bit integer. A floating-point value loses its fraction, and one out
of range gives the least integer. -/
def toSigned : NativeValue → Int
  | signed v => v
  | unsigned v => (v : Int).bmod Word.count
  | real (.finite negative m e) =>
    let v : Int := if negative then -(Binary64.truncated m e : Int) else Binary64.truncated m e
    if -(Word.half : Int) ≤ v && v < Word.half then v else -Word.half
  | real _ => -Word.half

/-- The value as an unsigned 64-bit integer. A floating-point value loses its fraction; one that
is too large gives zero, and one below `2 ^ 63` goes through the signed integers. -/
def toUnsigned : NativeValue → Nat
  | unsigned v => v
  | real (.infinite false) => 0
  | real (.finite false m e) =>
    let v := Binary64.truncated m e
    if v < Word.count then v else 0
  | v => (v.toSigned % Word.count).toNat

/-- The value as a floating-point number. -/
def toReal : NativeValue → Binary64
  | signed v => Binary64.ofInt v
  | unsigned v => Binary64.ofInt v
  | real x => x

end NativeValue

namespace ProbeOutput

/-- A text up to its first NUL character. -/
def upToNul (s : String) : String :=
  String.ofList (s.toList.takeWhile (· != Char.ofNat 0))

/-- One line of documentation. -/
def documentationLine (indent : String) (row : List Char) : String :=
  indent ++ "///" ++ (if row.isEmpty then "" else " " ++ String.ofList row) ++ "\n"

/-- The lines of a documentation text. The helper counts the bytes of a line as an `int` of C, so
this is what it prints as long as no line has `2 ^ 31` bytes or more. -/
def documentation (indent : String) : Option String → String
  | none => ""
  | some text =>
    String.join ((Text.rowsOf (upToNul text).toList).map (documentationLine (upToNul indent)))

/-- The first lines of all bindings. -/
def banner : String :=
  "// This file has been automatically generated by cgrovel.\n// Do not edit it by hand.\n\n"

/-- What stands before the name in a line about a missing definition. -/
def missingNotice : String := "cgrovel: missing-definition: "

/-- What a missing definition adds to the bindings. -/
def missing (name : String) : String :=
  "// missing definition: " ++ upToNul name ++ "\n\n"

/-- The line about a missing definition for the caller. -/
def missingLine (name : String) : String :=
  missingNotice ++ upToNul name ++ "\n"

/-- An integer in decimal digits. -/
def integer (v : NativeValue) : String :=
  if v.fitsSigned then toString v.toSigned else toString v.toUnsigned

/-- An integer constant, signed if its value fits. -/
def constant (name : String) (v : NativeValue) (doc : Option String) : String :=
  documentation "" doc ++ "pub const " ++ upToNul name ++ ": " ++
    (if v.fitsSigned then "i64 = " ++ toString v.toSigned
      else "u64 = " ++ toString v.toUnsigned) ++ ";\n\n"

/-- A floating-point number. -/
def double (v : NativeValue) : String :=
  v.toReal.text

/-- A floating-point constant. -/
def constantDouble (name : String) (v : NativeValue) (doc : Option String) : String :=
  documentation "" doc ++ "pub const " ++ upToNul name ++ ": f64 = " ++ double v ++ ";\n\n"

/-- The type with the size and sign of a native integer type, or that many bytes if there is
none. -/
def aliasTarget (size : Nat) (isSigned : Bool) : String :=
  if size == 1 || size == 2 || size == 4 || size == 8 then
    (if isSigned then "i" else "u") ++ toString (size * 8)
  else "[u8; " ++ toString size ++ "]"

/-- A type of the given size and sign. -/
def intAlias (name : String) (size : Nat) (isSigned : Bool) (doc : Option String) : String :=
  documentation "" doc ++ "pub type " ++ upToNul name ++ " = " ++ aliasTarget size isSigned ++
    ";\n\n"

/-- The start of a record of the given size and alignment, up to its slots. -/
def recordBegin (name : String) (size align : Nat) (doc : Option String) : String :=
  let name := upToNul name
  documentation "" doc ++
    "#[repr(C, align(" ++ toString align ++ "))]\n" ++
    "#[derive(Clone, Copy)]\n" ++
    "pub struct " ++ name ++ " \x7b\n" ++
    "    _data: [u8; " ++ toString size ++ "],\n" ++
    "\x7d\n\n" ++
    "impl " ++ name ++ " \x7b\n" ++
    "    pub const SIZE: usize = " ++ toString size ++ ";\n" ++
    "    pub const ALIGN: usize = " ++ toString align ++ ";\n"

/-- What a record says of a slot: the type of its elements, where it starts unless all slots start
at the same place, and how many elements it has. -/
def slotInfo (name type : String) (offset : Option Nat) (count : Int) : String :=
  let name := upToNul name
  "    /// Element type `" ++ upToNul type ++ "`.\n" ++
    (match offset with
      | some n => "    pub const " ++ name ++ "_OFFSET: usize = " ++ toString n ++ ";\n"
      | none => "") ++
    "    pub const " ++ name ++ "_COUNT: usize = " ++ toString count ++ ";\n"

/-- The end of a record, an enumeration or a module. -/
def blockEnd : String := "\x7d\n\n"

/-- The start of an enumeration, up to its members. -/
def enumBegin (name base : String) (doc : Option String) : String :=
  let name := upToNul name
  documentation "" doc ++
    "#[repr(transparent)]\n" ++
    "#[derive(Clone, Copy, Debug, PartialEq, Eq, Hash)]\n" ++
    "pub struct " ++ name ++ "(pub " ++ upToNul base ++ ");\n\n" ++
    "impl " ++ name ++ " \x7b\n"

/-- A member of an enumeration. -/
def enumMember (name : String) (v : NativeValue) (doc : Option String) : String :=
  documentation "    " doc ++ "    pub const " ++ upToNul name ++ ": Self = Self(" ++ integer v ++
    ");\n"

/-- The start of a module. -/
def namespaceBegin (name : String) : String :=
  "pub mod " ++ upToNul name ++ " \x7b\n\n"

end ProbeOutput

end ForeignBindings
