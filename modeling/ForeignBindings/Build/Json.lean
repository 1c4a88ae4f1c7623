import ForeignBindings.Number.Binary64
import ForeignBindings.Number.Word

/-!
# JSON, as far as a configuration needs it

Reading strings and lists of strings from JSON text, and telling apart three ways in which a text
is wrong: it is not JSON, it is JSON of another shape, or it ends too early. A reader stops at the
first fault, so what stands behind it does not matter.

* `Json.readString`, `Json.readStrings` and `Json.readOptional` read values.
* `Json.otherValue` says what is wrong with a value of another type. Such a value still has to
  start like JSON to be a fault of shape.
* `Json.numberFault` does so for a number, which is a fault of shape only if it is not too large.
-/

namespace ForeignBindings.Json

/-- What is wrong with a text. -/
inductive Fault where
  /-- The text is not JSON. -/
  | malformed
  /-- The text is JSON of another shape. -/
  | unsuitable
  /-- The text ends too early. -/
  | unfinished
deriving Repr, DecidableEq

/-- The name of a fault in messages. -/
def Fault.name : Fault → String
  | malformed => "syntax"
  | unsuitable => "data"
  | unfinished => "eof"

/-- A reader takes something from the front of a text and gives it with the rest. -/
abbrev Reader (α : Type) := List Char → Except Fault (α × List Char)

/-- Drops the white space of JSON. -/
def skipSpace (cs : List Char) : List Char :=
  cs.dropWhile fun c => c == ' ' || c == '\n' || c == '\t' || c == '\r'

/-! ## Strings -/

/-- The value of a hexadecimal digit. -/
def hexValue? (c : Char) : Option Nat :=
  if '0' ≤ c && c ≤ '9' then some (c.toNat - '0'.toNat)
  else if 'a' ≤ c && c ≤ 'f' then some (c.toNat - 'a'.toNat + 10)
  else if 'A' ≤ c && c ≤ 'F' then some (c.toNat - 'A'.toNat + 10)
  else none

/-- The number that four hexadecimal digits write. -/
def hexUnit? (a b c d : Char) : Option Nat := do
  let a ← hexValue? a
  let b ← hexValue? b
  let c ← hexValue? c
  let d ← hexValue? d
  return ((a * 16 + b) * 16 + c) * 16 + d

/-- What a code unit in an escape is, after the first half of a pair or not. -/
inductive EscapedUnit where
  | character (c : Char)
  | firstHalf (unit : Nat)

/-- Joins a code unit to the first half of a pair that may stand before it. -/
def joinUnit (lead : Option Nat) (unit : Nat) : Except Fault EscapedUnit :=
  let isSecond := 0xdc00 ≤ unit && unit ≤ 0xdfff
  match lead with
  | some first =>
    if isSecond then
      .ok (.character (Char.ofNat ((first - 0xd800) * 0x400 + (unit - 0xdc00) + 0x10000)))
    else .error .malformed
  | none =>
    if isSecond then .error .malformed
    else if 0xd800 ≤ unit && unit ≤ 0xdbff then .ok (.firstHalf unit)
    else .ok (.character (Char.ofNat unit))

/-- The character that an escape of one character stands for. -/
def simpleEscape? (c : Char) : Option Char :=
  if c == '"' || c == '\\' || c == '/' then some c
  else if c == 'b' then some (Char.ofNat 8)
  else if c == 'f' then some (Char.ofNat 12)
  else if c == 'n' then some '\n'
  else if c == 'r' then some '\r'
  else if c == 't' then some '\t'
  else none

/-- The size of some characters in bytes. -/
def byteCount (cs : List Char) : Nat :=
  (String.ofList cs).utf8ByteSize

/-- Reads a string from behind its opening quote, or from behind the first half of a pair. -/
def stringBody : Option Nat → Reader (List Char)
  | _, [] => .error .unfinished
  | lead, '\\' :: 'u' :: a :: b :: c :: d :: cs =>
    match hexUnit? a b c d with
    | none => .error .malformed
    | some unit =>
      match joinUnit lead unit with
      | .error e => .error e
      | .ok (.firstHalf first) => stringBody (some first) cs
      | .ok (.character ch) => (stringBody none cs).map fun (text, rest) => (ch :: text, rest)
  | _, '\\' :: 'u' :: cs => .error (if byteCount cs < 4 then .unfinished else .malformed)
  | _, ['\\'] => .error .unfinished
  | some _, _ => .error .malformed
  | none, '"' :: cs => .ok ([], cs)
  | none, '\\' :: c :: cs =>
    match simpleEscape? c with
    | some ch => (stringBody none cs).map fun (text, rest) => (ch :: text, rest)
    | none => .error .malformed
  | none, c :: cs =>
    if c.toNat < 32 then .error .malformed
    else (stringBody none cs).map fun (text, rest) => (c :: text, rest)

/-! ## Numbers

A configuration has no place for a number, so a number is a fault in any case. Which one depends on
its size: a number beyond the floating-point numbers is not JSON, any other one is. -/

/-- The number `significand * 10 ^ exponent`. -/
structure Numeral where
  significand : Nat
  exponent : Int
deriving Repr, DecidableEq

/-- Writes digits behind a number for as long as it stays a word, and gives the digits that are
left over. -/
def appendDigits (n : Nat) : List Char → Nat × List Char
  | [] => (n, [])
  | d :: ds =>
    let longer := n * 10 + (d.toNat - '0'.toNat)
    if longer < Word.count then appendDigits longer ds else (n, d :: ds)

namespace Numeral

/-- The number that the digits before a point write. A digit that is left over counts as a zero. -/
def ofDigits (ds : List Char) : Numeral :=
  let (significand, left) := appendDigits 0 ds
  ⟨significand, left.length⟩

/-- The number with more digits behind the point. Digits that are left over do not count. -/
def withFraction (x : Numeral) (ds : List Char) : Numeral :=
  let (significand, left) := appendDigits x.significand ds
  ⟨significand, x.exponent - (ds.length - left.length : Nat)⟩

/-- The number times a power of ten. -/
def timesPower (x : Numeral) (exponent : Int) : Numeral :=
  ⟨x.significand, x.exponent + exponent⟩

/-- The exponent of the largest power of ten that is a floating-point number. -/
def largestPower : Nat := 308

/-- The number is beyond the floating-point numbers. It is computed as a product of floating-point
numbers, so the significand and the power of ten are rounded before they are multiplied. -/
def isOutOfRange (x : Numeral) : Bool :=
  match x.exponent with
  | .negSucc _ => false
  | .ofNat e =>
    x.significand != 0 && (largestPower < e ||
      Binary64.overflow ≤ Binary64.nearest x.significand * Binary64.nearest (Nat.pow 10 e))

/-- What is wrong with a number of which nothing is left to read. -/
def fault (x : Numeral) : Fault :=
  if x.isOutOfRange then .malformed else .unsuitable

end Numeral

/-- The number that some digits write. -/
def digitsValue (ds : List Char) : Nat :=
  ds.foldl (fun n d => n * 10 + (d.toNat - '0'.toNat)) 0

/-- What is wrong with a number in front, of which the digits before the exponent are known. -/
def exponentFault (x : Numeral) : List Char → Fault
  | [] => x.fault
  | c :: cs =>
    if c == 'e' || c == 'E' then
      let (negative, cs) := match cs with
        | '-' :: cs => (true, cs)
        | '+' :: cs => (false, cs)
        | cs => (false, cs)
      match cs with
      | [] => .unfinished
      | d :: _ =>
        if !d.isDigit then .malformed
        else
          let exponent : Int := digitsValue (cs.takeWhile Char.isDigit)
          (x.timesPower (if negative then -exponent else exponent)).fault
    else x.fault

/-- What is wrong with a number in front, of which the digits before the point are known. -/
def fractionFault (x : Numeral) : List Char → Fault
  | '.' :: cs =>
    let ds := cs.takeWhile Char.isDigit
    match ds, cs with
    | [], [] => .unfinished
    | [], _ => .malformed
    | _, _ => exponentFault (x.withFraction ds) (cs.dropWhile Char.isDigit)
  | cs => exponentFault x cs

/-- What is wrong with a number in front, where none should be. -/
def numberFault : List Char → Fault
  | [] => .unfinished
  | '0' :: cs =>
    match cs with
    | c :: _ => if c.isDigit then .malformed else fractionFault ⟨0, 0⟩ cs
    | [] => fractionFault ⟨0, 0⟩ []
  | c :: cs =>
    if c.isDigit then
      fractionFault (.ofDigits (c :: cs.takeWhile Char.isDigit)) (cs.dropWhile Char.isDigit)
    else .malformed

/-! ## Values of another type -/

/-- What is wrong with a text that should go on with the given word. -/
def wordFault : List Char → List Char → Fault
  | [], _ => .unsuitable
  | _ :: _, [] => .unfinished
  | p :: ps, c :: cs => if p == c then wordFault ps cs else .malformed

/-- What is wrong with a value in front, where one of another type should be. -/
def otherValue : List Char → Fault
  | [] => .unfinished
  | 'n' :: cs => wordFault ['u', 'l', 'l'] cs
  | 't' :: cs => wordFault ['r', 'u', 'e'] cs
  | 'f' :: cs => wordFault ['a', 'l', 's', 'e'] cs
  | '-' :: cs => numberFault cs
  | '"' :: cs =>
    match stringBody none cs with
    | .ok _ => .unsuitable
    | .error e => e
  | c :: cs =>
    if c.isDigit then numberFault (c :: cs)
    else if c == '[' || c == '\x7b' then .unsuitable
    else .malformed

/-! ## Values -/

/-- Reads a string. -/
def readString : Reader String := fun cs =>
  match skipSpace cs with
  | '"' :: cs => (stringBody none cs).map fun (text, rest) => (String.ofList text, rest)
  | cs => .error (otherValue cs)

/-- Whether another element follows in a list, and the text from there on. -/
def nextElement (first : Bool) : Reader Bool := fun cs =>
  match skipSpace cs with
  | [] => .error .unfinished
  | ']' :: cs => .ok (false, ']' :: cs)
  | c :: cs =>
    if first then .ok (true, c :: cs)
    else if c == ',' then
      match skipSpace cs with
      | [] => .error .unfinished
      | ']' :: _ => .error .malformed
      | cs => .ok (true, cs)
    else .error .malformed

/-- Reads the end of a list. -/
def endList : Reader Unit := fun cs =>
  match skipSpace cs with
  | [] => .error .unfinished
  | ']' :: cs => .ok ((), cs)
  | _ => .error .malformed

/-- Reads what is left of a list of strings. The first argument bounds the number of elements. -/
def readStringsFrom : Nat → Bool → Reader (List String)
  | 0, _, _ => .error .malformed
  | bound + 1, first, cs => do
    let (more, cs) ← nextElement first cs
    if more then
      let (text, cs) ← readString cs
      let (others, cs) ← readStringsFrom bound false cs
      return (text :: others, cs)
    else
      let ((), cs) ← endList cs
      return ([], cs)

/-- Reads a list of strings. -/
def readStrings : Reader (List String) := fun cs =>
  match skipSpace cs with
  | '[' :: cs => readStringsFrom (cs.length + 1) true cs
  | cs => .error (otherValue cs)

/-- Reads a value or `null`. -/
def readOptional {α : Type} (read : Reader α) : Reader (Option α) := fun cs =>
  match skipSpace cs with
  | 'n' :: cs =>
    match wordFault ['u', 'l', 'l'] cs with
    | .unsuitable => .ok (none, cs.drop 3)
    | e => .error e
  | cs => (read cs).map fun (a, rest) => (some a, rest)

/-- Whether another member follows in an object, and the text from its key on. -/
def nextMember (first : Bool) : Reader Bool := fun cs =>
  match skipSpace cs with
  | [] => .error .unfinished
  | '\x7d' :: cs => .ok (false, '\x7d' :: cs)
  | '"' :: cs => if first then .ok (true, '"' :: cs) else .error .malformed
  | ',' :: cs =>
    if first then .error .malformed
    else match skipSpace cs with
      | [] => .error .unfinished
      | '"' :: cs => .ok (true, '"' :: cs)
      | _ => .error .malformed
  | _ => .error .malformed

/-- Reads the end of an object. -/
def endObject : Reader Unit := fun cs =>
  match skipSpace cs with
  | [] => .error .unfinished
  | '\x7d' :: cs => .ok ((), cs)
  | _ => .error .malformed

/-- Reads the colon after a key. -/
def readColon : Reader Unit := fun cs =>
  match skipSpace cs with
  | [] => .error .unfinished
  | ':' :: cs => .ok ((), cs)
  | _ => .error .malformed

/-- Nothing may follow a value at the end of the text. -/
def finish {α : Type} (a : α) (cs : List Char) : Except Fault α :=
  if (skipSpace cs).isEmpty then .ok a else .error .malformed

end ForeignBindings.Json
