import ForeignBindings.Number.Word
import ForeignBindings.Text.Blank

/-!
# Tokens of a specification

What a specification text is made of: parentheses, strings, integers and words.

* `Integer.ofWord?` reads a word as an integer in C's radix rules: an optional sign, then `0x` and
  hexadecimal digits, or `0` and octal digits, or decimal digits. Only values that fit a signed or
  an unsigned 64-bit integer are accepted.
* `Token.ofWord` decides what a run of word characters is: an integer, a malformed integer (it
  starts with a digit after its signs), or a plain word.
-/

namespace ForeignBindings.Spec

/-- An integer as written: the value C reads and the spelling it had. -/
structure Integer where
  value : Int
  spelling : String
deriving Repr, DecidableEq, Inhabited

/-- The smallest token of the language. -/
inductive Token where
  | open
  | close
  | string (text : String)
  | integer (n : Integer)
  | word (text : String)
deriving Repr, DecidableEq, Inhabited

/-- Why a piece of text is no token. -/
inductive LexicalFault where
  /-- A string that runs to the end of the text. -/
  | unclosedString
  /-- A word that starts like a number and is none. -/
  | malformedInteger (word : String)
deriving Repr, DecidableEq, Inhabited

/-- The wording of a lexical fault. -/
def LexicalFault.message : LexicalFault → String
  | unclosedString => "string literal is never closed"
  | malformedInteger word => "malformed integer `" ++ word ++ "`"

/-! ## Integers -/

/-- The value of a digit character in a radix up to sixteen. -/
def digitValue? (radix : Nat) (c : Char) : Option Nat :=
  let v :=
    if '0' ≤ c && c ≤ '9' then c.toNat - '0'.toNat
    else if 'a' ≤ c && c ≤ 'f' then c.toNat - 'a'.toNat + 10
    else if 'A' ≤ c && c ≤ 'F' then c.toNat - 'A'.toNat + 10
    else radix
  if v < radix then some v else none

/-- The number that a list of digits denotes after those already read, or nothing if one of the
characters is no digit. -/
def magnitudeFrom (radix : Nat) : Nat → List Char → Option Nat
  | n, [] => some n
  | n, c :: cs => (digitValue? radix c).bind fun d => magnitudeFrom radix (n * radix + d) cs

/-- The number that a non-empty list of digits denotes. -/
def magnitude? (radix : Nat) : List Char → Option Nat
  | [] => none
  | cs => magnitudeFrom radix 0 cs

/-- The radix and the digits of an unsigned spelling: `0x` starts hexadecimal digits, any other
leading zero octal ones. -/
def radixOf : List Char → Nat × List Char
  | '0' :: 'x' :: cs => (16, cs)
  | '0' :: 'X' :: cs => (16, cs)
  | '0' :: c :: cs => (8, c :: cs)
  | cs => (10, cs)

/-- The sign of a spelling and what follows it. -/
def signOf : List Char → Bool × List Char
  | '-' :: cs => (true, cs)
  | '+' :: cs => (false, cs)
  | cs => (false, cs)

/-- The value that a word denotes, of any size. -/
def integerValue? (word : List Char) : Option Int :=
  let (negative, unsigned) := signOf word
  let (radix, digits) := radixOf unsigned
  (magnitude? radix digits).map fun n => if negative then -(n : Int) else n

/-- The values that a signed or an unsigned 64-bit integer can hold. -/
def fitsWord (v : Int) : Bool :=
  -(Word.half : Int) ≤ v && v < Word.count

/-- A word read as an integer that fits 64 bits. -/
def Integer.ofWord? (word : List Char) : Option Integer :=
  (integerValue? word).bind fun v => if fitsWord v then some ⟨v, String.ofList word⟩ else none

/-! ## Words -/

/-- A character that a word may contain. -/
def isWordPart (c : Char) : Bool :=
  !Text.isBlank c && c != '(' && c != ')' && c != '"' && c != ';'

/-- The word starts with a decimal digit after all its leading signs. -/
def startsLikeNumber (word : List Char) : Bool :=
  match word.dropWhile fun c => c == '-' || c == '+' with
  | [] => false
  | c :: _ => c.isDigit

/-- What a maximal run of word characters is. -/
def Token.ofWord (word : List Char) : Except LexicalFault Token :=
  match Integer.ofWord? word with
  | some n => .ok (.integer n)
  | none =>
    if startsLikeNumber word then .error (.malformedInteger (String.ofList word))
    else .ok (.word (String.ofList word))

end ForeignBindings.Spec
