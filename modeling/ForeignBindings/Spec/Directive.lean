import ForeignBindings.Spec.Token
import ForeignBindings.Text.Quoted

/-!
# Directives

A specification is a sequence of directives: a tag, the arguments after it, and the line it stands
on. Arguments are forms: symbols, keywords, strings, integers, and lists of forms. `Kind` lists
the directives that have a meaning.
-/

namespace ForeignBindings.Spec

open ForeignBindings

/-- A name, and the namespace it belongs to if there is one. -/
structure Symbol where
  scope : Option String
  name : String
deriving Repr, DecidableEq, Inhabited

/-- A symbol as it may be written: the namespace and the name with `::` between them. -/
def Symbol.text (s : Symbol) : String :=
  match s.scope with
  | some scope => scope ++ "::" ++ s.name
  | none => s.name

/-- An argument of a directive. -/
inductive Form where
  | symbol (s : Symbol)
  | keyword (name : String)
  | string (text : String)
  | integer (n : Integer)
  | list (items : List Form)
deriving Repr, Inhabited

namespace Form

/-- What a message says that it found in place of this form. -/
def description : Form → String
  | symbol s => "symbol `" ++ s.text ++ "`"
  | keyword name => "keyword `:" ++ name ++ "`"
  | string text => "string " ++ Text.quoted text
  | integer n => "integer " ++ n.spelling
  | list items => "list of " ++ toString items.length ++ " elements"

/-- The symbol, if the form is one. -/
def symbol? : Form → Option Symbol
  | symbol s => some s
  | _ => none

/-- The text, if the form is a string. -/
def string? : Form → Option String
  | string text => some text
  | _ => none

/-- The name, if the form is a keyword. -/
def keyword? : Form → Option String
  | keyword name => some name
  | _ => none

/-- The elements, if the form is a list. -/
def list? : Form → Option (List Form)
  | list items => some items
  | _ => none

@[simp] theorem keyword?_keyword (name : String) : (keyword name).keyword? = some name := rfl

@[simp] theorem list?_list (items : List Form) : (list items).list? = some items := rfl

theorem eq_list_of_list? {f : Form} {items : List Form} (h : f.list? = some items) :
    f = list items := by
  cases f with
  | list _ =>
    cases h
    rfl
  | _ => cases h

end Form

/-- One entry of a specification. -/
structure Directive where
  tag : String
  arguments : List Form
  line : Nat
deriving Repr, Inhabited

/-! ## Kinds -/

/-- The directives that have a meaning. -/
inductive Kind where
  | verbatim
  | header
  | define
  | typedef
  | flag
  | compilerFlags
  | packageFlags
  | inNamespace
  | constant
  | ctype
  | struct
  | union
  | enum
  | constantEnum
  | wrapper
  | wrapperWithBody
deriving Repr, DecidableEq, Inhabited

namespace Kind

/-- All kinds. -/
def all : List Kind :=
  [verbatim, header, define, typedef, flag, compilerFlags, packageFlags, inNamespace, constant,
    ctype, struct, union, enum, constantEnum, wrapper, wrapperWithBody]

/-- The tag that a directive of this kind starts with. -/
def tag : Kind → String
  | verbatim => "c"
  | header => "include"
  | define => "define"
  | typedef => "typedef"
  | flag => "flag"
  | compilerFlags => "cc-flags"
  | packageFlags => "pkg-config-cflags"
  | inNamespace => "in-namespace"
  | constant => "constant"
  | ctype => "ctype"
  | struct => "cstruct"
  | union => "cunion"
  | enum => "cenum"
  | constantEnum => "constantenum"
  | wrapper => "defwrapper"
  | wrapperWithBody => "defwrapper*"

/-- The kind with the given tag. -/
def ofTag? (tag : String) : Option Kind :=
  all.find? fun k => k.tag == tag

/-- The kinds whose text stands in front of the program that a probe is. -/
def isHeader : Kind → Bool
  | verbatim | header | define | typedef => true
  | _ => false

theorem mem_all (k : Kind) : k ∈ all := by
  cases k <;> decide

/-- Every kind is found by its own tag. -/
theorem ofTag?_tag (k : Kind) : ofTag? k.tag = some k := by
  cases k <;> decide

/-- A kind found by a tag has that tag. -/
theorem tag_of_ofTag? {t : String} {k : Kind} (h : ofTag? t = some k) : k.tag = t := by
  simpa using List.find?_some h

end Kind

/-- The words that introduce a complaint about the shape of a directive. -/
def malformed (line : Nat) (tag : String) (complaint : String) : String :=
  "line " ++ toString line ++ ": malformed `" ++ tag ++ "`: " ++ complaint

end ForeignBindings.Spec
