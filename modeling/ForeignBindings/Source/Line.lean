import ForeignBindings.Entry.Basic
import ForeignBindings.Text.Quoted

/-!
# Lines of C

A generated C program is a list of lines: plain text, conditionals of the preprocessor, and calls
of the helpers that print the bindings when the program runs.

* `ProbeCall` is a helper call and `ProbeCall.text` its spelling.
* `Conditional` is a preprocessor line that depends on whether a macro is defined.
* `SourceLine.render` is the text of a whole program.
-/

namespace ForeignBindings

/-- A call of a helper, which prints some of the bindings. -/
inductive ProbeCall where
  | constant (type : NumberType) (name : String) (native : String)
      (documentation : Option String)
  | missing (name : String)
  | intAlias (name : String) (native : String) (documentation : Option String)
  | recordBegin (kind : Layout) (name : String) (native : String)
      (documentation : Option String)
  | slot (kind : Layout) (record : String) (field : String) (name : String) (type : String)
      (count : ElementCount)
  | recordEnd
  | enumBegin (name : String) (base : String) (documentation : Option String)
  | enumMember (name : String) (native : String) (documentation : Option String)
  | enumEnd
  | namespaceBegin (name : String)
  | namespaceEnd
deriving Repr, DecidableEq

namespace ProbeCall

/-- The name of the helper. -/
def helper : ProbeCall → String
  | constant .integer .. => "cgrovel_constant"
  | constant .double .. => "cgrovel_constant_double"
  | missing .. => "cgrovel_missing"
  | intAlias .. => "cgrovel_ctype"
  | recordBegin .struct .. => "cgrovel_struct_begin"
  | recordBegin .union .. => "cgrovel_union_begin"
  | slot .struct _ _ _ _ .auto => "cgrovel_slot_auto"
  | slot .struct .. => "cgrovel_slot"
  | slot .union _ _ _ _ .auto => "cgrovel_union_slot_auto"
  | slot .union .. => "cgrovel_union_slot"
  | recordEnd => "cgrovel_record_end"
  | enumBegin .. => "cgrovel_enum_begin"
  | enumMember .. => "cgrovel_enum_member"
  | enumEnd => "cgrovel_enum_end"
  | namespaceBegin .. => "cgrovel_namespace_begin"
  | namespaceEnd => "cgrovel_namespace_end"

/-- Documentation as an argument: a literal, or the null pointer. -/
def documentationArgument : Option String → String
  | some text => Text.cLiteral text
  | none => "NULL"

/-- The count of a slot as an argument, if it is one. -/
def countArguments : ElementCount → List String
  | .fixed n => [toString n]
  | .named expression => ["(" ++ expression ++ ")"]
  | .auto => []

/-- The arguments after the output file. -/
def arguments : ProbeCall → List String
  | constant _ name native doc => [Text.cLiteral name, native, documentationArgument doc]
  | missing name => [Text.cLiteral name]
  | intAlias name native doc => [Text.cLiteral name, native, documentationArgument doc]
  | recordBegin _ name native doc => [Text.cLiteral name, native, documentationArgument doc]
  | slot _ record field name type count =>
    [record, field, Text.cLiteral name, Text.cLiteral type] ++ countArguments count
  | recordEnd => []
  | enumBegin name base doc =>
    [Text.cLiteral name, Text.cLiteral base, documentationArgument doc]
  | enumMember name native doc => [Text.cLiteral name, native, documentationArgument doc]
  | enumEnd => []
  | namespaceBegin name => [Text.cLiteral name]
  | namespaceEnd => []

/-- The call as a statement of the program. -/
def text (c : ProbeCall) : String :=
  "  " ++ c.helper ++ "(" ++ ", ".intercalate ("output" :: c.arguments) ++ ");"

end ProbeCall

/-- A preprocessor line that depends on whether a macro is defined. -/
inductive Conditional where
  | ifDefined (name : String)
  | elifDefined (name : String)
  | otherwise
  | ifdef (name : String)
  | endif
deriving Repr, DecidableEq

/-- The spelling of a conditional. -/
def Conditional.text : Conditional → String
  | ifDefined name => "#if defined(" ++ name ++ ")"
  | elifDefined name => "#elif defined(" ++ name ++ ")"
  | otherwise => "#else"
  | ifdef name => "#ifdef " ++ name
  | endif => "#endif"

/-- A line of a generated program. -/
inductive SourceLine where
  /-- Text as it stands, which may itself be several lines. -/
  | plain (text : String)
  | conditional (c : Conditional)
  | call (c : ProbeCall)
deriving Repr, DecidableEq

namespace SourceLine

/-- The spelling of a line, without the newline at its end. -/
def text : SourceLine → String
  | plain text => text
  | conditional c => c.text
  | call c => c.text

/-- The text of some lines. -/
def render (ls : List SourceLine) : String :=
  String.join (ls.map fun l => l.text ++ "\n")

end SourceLine

end ForeignBindings
