import ForeignBindings.Bindings.Declaration
import ForeignBindings.Text.Lines
import ForeignBindings.Text.Quoted

/-!
# Bindings of a wrapper library

The text of the bindings: a module that says where the library is, and one block for each
function. A namespace opens a module, which ends where the next one starts or the text ends.
-/

namespace ForeignBindings

/-- Where the library is. -/
structure Library where
  /-- The name to link with. -/
  name : String
  searchPath : String
  file : String
deriving Repr, DecidableEq, Inhabited

namespace Bindings

/-- The first lines of all bindings. -/
def banner : List String :=
  ["// This file has been automatically generated by cgrovel.", "// Do not edit it by hand.", ""]

/-- One line of documentation. -/
def documentationLine (line : String) : String :=
  if line.isEmpty then "///" else "/// " ++ line

/-- The lines of documentation. -/
def documentationLines : Option String → List String
  | none => []
  | some text => (Text.lines text).map documentationLine

/-- A constant of the library module. -/
def libraryConstant (name : String) (value : String) : String :=
  "    pub const " ++ name ++ ": &str = " ++ Text.quoted value ++ ";"

/-- The module that says where the library is. -/
def libraryLines (library : Library) : List String :=
  ["pub mod library \x7b",
    libraryConstant "NAME" library.name,
    libraryConstant "SEARCH_PATH" library.searchPath,
    libraryConstant "FILE" library.file,
    "\x7d"]

/-- The signature of a function. -/
def signature (f : DeclaredFunction) : String :=
  let parameters := ", ".intercalate (f.parameters.map fun (name, type) => name ++ ": " ++ type)
  let result := match f.result with
    | some type => " -> " ++ type
    | none => ""
  "pub fn " ++ f.name ++ "(" ++ parameters ++ ")" ++ result ++ ";"

/-- The block that declares a function of the library with the given link name. -/
def blockLines (link : String) (f : DeclaredFunction) : List String :=
  ["#[link(name = " ++ Text.quoted link ++ ")]",
    "unsafe extern " ++ Text.quoted f.abi ++ " \x7b"] ++
    (documentationLines f.documentation).map ("    " ++ ·) ++
    ["    #[link_name = " ++ Text.quoted f.symbol ++ "]",
      "    " ++ signature f,
      "\x7d"]

/-- The lines of some declarations, inside a module or at the root. -/
def declarationLines (link : String) : Bool → List Declaration → List String
  | inModule, [] => if inModule then ["\x7d"] else []
  | inModule, .inNamespace name :: rest =>
    (if inModule then ["\x7d"] else []) ++
      ["", "pub mod " ++ name ++ " \x7b"] ++ declarationLines link true rest
  | inModule, .function f :: rest =>
    let indent := if inModule then "    " else ""
    "" :: (blockLines link f).map (indent ++ ·) ++ declarationLines link inModule rest

/-- The bindings of a library with the given declarations. -/
def render (declarations : List Declaration) (library : Library) : String :=
  String.join ((banner ++ libraryLines library ++
    declarationLines library.name false declarations).map (· ++ "\n"))

end Bindings

end ForeignBindings
