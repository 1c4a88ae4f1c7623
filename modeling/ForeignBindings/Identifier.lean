/-!
# Identifiers

How the names of a specification become names of the bindings and of the C program.

* `typeName` writes a dash as an underscore.
* `constantName` also drops plus signs and stars around the name and takes capitals.
* `isIdentifier` and `isKeyword` say which names the bindings can declare.

All case and letter tests are on ASCII alone: a name with any other letter is no identifier.
-/

namespace ForeignBindings.Identifier

/-- Writes a dash as an underscore. -/
def undash (c : Char) : Char :=
  if c == '-' then '_' else c

/-- The name of a type, a namespace, a function or a parameter: `time-t` becomes `time_t`. -/
def typeName (name : String) : String :=
  String.ofList (name.toList.map undash)

/-- A mark that may surround the name of a constant. -/
def isMark (c : Char) : Bool :=
  c == '+' || c == '*'

/-- Drops the marks at both ends. -/
def trimMarks (cs : List Char) : List Char :=
  ((cs.dropWhile isMark).reverse.dropWhile isMark).reverse

/-- The name of a constant, a slot or a member: `+sock-stream+` becomes `SOCK_STREAM`. -/
def constantName (name : String) : String :=
  String.ofList ((trimMarks name.toList).map fun c => (undash c).toUpper)

/-- A character that an identifier may start with. -/
def isStart (c : Char) : Bool :=
  c == '_' || c.isAlpha

/-- A character that an identifier may go on with. -/
def isContinue (c : Char) : Bool :=
  c == '_' || c.isAlphanum

/-- A name that both C and the bindings accept as an identifier, keywords included: letters,
digits and underscores, no digit first, and not a lone underscore. -/
def isIdentifier (name : String) : Bool :=
  match name.toList with
  | [] => false
  | c :: cs => isStart c && name != "_" && cs.all isContinue

/-- The keywords of the language of the bindings, those kept for later use included. -/
def keywords : List String :=
  ["abstract", "as", "async", "await", "become", "box", "break", "const", "continue", "crate",
    "do", "dyn", "else", "enum", "extern", "false", "final", "fn", "for", "gen", "if", "impl",
    "in", "let", "loop", "macro", "match", "mod", "move", "mut", "override", "priv", "pub", "ref",
    "return", "self", "Self", "static", "struct", "super", "trait", "true", "try", "type",
    "typeof", "unsafe", "unsized", "use", "virtual", "where", "while", "yield"]

/-- The name is a keyword of the language of the bindings. -/
def isKeyword (name : String) : Bool :=
  keywords.contains name

end ForeignBindings.Identifier
