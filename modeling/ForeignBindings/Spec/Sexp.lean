import ForeignBindings.Spec.Lexeme
import ForeignBindings.Spec.Directive

/-!
# Nested lists

The tokens of a specification form nested lists, and at the outermost level only lists may stand.

* `Sexp.ofLexemes` reads the lexemes from left to right over a stack of lists still open, and
  stops at the first lexeme that cannot be.
* `Sexp.ofText` does so for a text.
-/

namespace ForeignBindings.Spec

/-- A word, string or integer, or a list with the line of its opening parenthesis. -/
inductive Sexp where
  | word (text : String)
  | string (text : String)
  | integer (n : Integer)
  | list (items : List Sexp) (line : Nat)
deriving Repr, Inhabited

/-- Why a text is no specification. -/
inductive SyntaxError where
  /-- A lexeme that is no token. -/
  | lexical (line : Nat) (fault : LexicalFault)
  /-- A list that is never closed. -/
  | unclosed (line : Nat)
  /-- A closing parenthesis without an open list. -/
  | unexpectedClose (line : Nat)
  /-- Something other than a list with a tag where a directive belongs. -/
  | notADirective (line : Nat)
  /-- A namespace switch that does not name one plain namespace. -/
  | malformedNamespace (line : Nat)
deriving Repr, DecidableEq

/-- The wording of a read error. -/
def SyntaxError.message : SyntaxError → String
  | lexical line fault => "line " ++ toString line ++ ": " ++ fault.message
  | unclosed line => "line " ++ toString line ++ ": unbalanced `(`"
  | unexpectedClose line => "line " ++ toString line ++ ": unexpected `)`"
  | notADirective line =>
    "line " ++ toString line ++ ": top-level form must be a list headed by a directive name"
  | malformedNamespace line =>
    malformed line Kind.inNamespace.tag "expected exactly one bare namespace name"

namespace Sexp

/-- A list whose closing parenthesis has not come yet: its elements so far, last one first, and
the line it was opened on. -/
structure OpenList where
  items : List Sexp
  line : Nat

/-- The lists still open, innermost first, and the finished top-level lists, last one first. -/
structure Reading where
  pending : List OpenList
  finished : List Sexp

namespace Reading

/-- Adds an element to the innermost open list. A list may also stand outside all others. -/
def add (r : Reading) (line : Nat) (s : Sexp) : Except SyntaxError Reading :=
  match r.pending, s with
  | inner :: outer, _ => .ok ⟨⟨s :: inner.items, inner.line⟩ :: outer, r.finished⟩
  | [], list .. => .ok ⟨[], s :: r.finished⟩
  | [], _ => .error (.notADirective line)

/-- Takes in one token. -/
def token (r : Reading) (line : Nat) : Token → Except SyntaxError Reading
  | .open => .ok ⟨⟨[], line⟩ :: r.pending, r.finished⟩
  | .close =>
    match r.pending with
    | [] => .error (.unexpectedClose line)
    | inner :: outer =>
      add ⟨outer, r.finished⟩ line (list inner.items.reverse inner.line)
  | .string text => r.add line (string text)
  | .integer n => r.add line (integer n)
  | .word text => r.add line (word text)

/-- Takes in one lexeme. -/
def lexeme (r : Reading) (l : Lexeme) : Except SyntaxError Reading :=
  match l.token with
  | .ok t => r.token l.line t
  | .error fault => .error (.lexical l.line fault)

/-- What has been read when the text ends. -/
def close (r : Reading) : Except SyntaxError (List Sexp) :=
  match r.pending with
  | [] => .ok r.finished.reverse
  | inner :: _ => .error (.unclosed inner.line)

end Reading

/-- The lists that a sequence of lexemes writes. -/
def ofLexemes (ls : List Lexeme) : Except SyntaxError (List Sexp) :=
  (ls.foldlM Reading.lexeme ⟨[], []⟩).bind Reading.close

/-- The lists that a text writes. -/
def ofText (text : String) : Except SyntaxError (List Sexp) :=
  ofLexemes (lexemes text)

end Sexp

end ForeignBindings.Spec
