import ForeignBindings.Text.Printable

/-!
# Quoted text

The two quotations that the generated files use.

* `quoted` is a string literal of the bindings: a character stands for itself if it is printable
  and extends nothing, the common controls have short escapes, and any other character is
  written as its code point in hexadecimal digits between braces.
* `cLiteral` is a C string literal over the bytes of the text: printable ASCII stands for itself,
  and every other byte is an octal escape of exactly three digits, so the character after an
  escape never belongs to it. A question mark is escaped, so no trigraph can arise.
-/

namespace ForeignBindings.Text

/-! ## Literals of the bindings -/

/-- How one character is written between the quotes of a literal of the bindings. -/
def quoteChar (c : Char) : List Char :=
  if c = Char.ofNat 0 then ['\\', '0']
  else if c = '\t' then ['\\', 't']
  else if c = '\r' then ['\\', 'r']
  else if c = '\n' then ['\\', 'n']
  else if c = '\\' then ['\\', '\\']
  else if c = '"' then ['\\', '"']
  else if isPrintable c && !extendsGrapheme c then [c]
  else ['\\', 'u', '\x7b'] ++ Nat.toDigits 16 c.toNat ++ ['\x7d']

/-- A text as a string literal of the bindings. -/
def quoted (s : String) : String :=
  String.ofList (['"'] ++ s.toList.flatMap quoteChar ++ ['"'])

/-! ## C literals -/

/-- The last three octal digits of a number. -/
def octalDigits (n : Nat) : List Char :=
  [Nat.digitChar (n / 64 % 8), Nat.digitChar (n / 8 % 8), Nat.digitChar (n % 8)]

/-- How one byte is written between the quotes of a C literal. -/
def cByte (b : UInt8) : List Char :=
  if b = 34 then ['\\', '"']
  else if b = 92 then ['\\', '\\']
  else if b = 10 then ['\\', 'n']
  else if b = 9 then ['\\', 't']
  else if b = 63 then ['\\', '?']
  else if 32 ≤ b && b ≤ 126 then [Char.ofNat b.toNat]
  else '\\' :: octalDigits b.toNat

/-- A text as a C string literal of its UTF-8 bytes. -/
def cLiteral (s : String) : String :=
  String.ofList (['"'] ++ s.toUTF8.data.toList.flatMap cByte ++ ['"'])

end ForeignBindings.Text
