import ForeignBindings.Number.Binary64

/-!
# Decimals of seventeen significant digits

The text of a floating-point value in seventeen significant digits, the fewest that tell any two
values apart. Zeros at the end are left out; very large and very small values have an exponent.

* `Significant.ofFraction` is the nearest decimal of seventeen digits, a tie going to the even one.
* `Significant.text` writes it, positionally for exponents from -4 to 16.
-/

namespace ForeignBindings

/-- The number of digits that are kept. -/
def significantDigits : Nat := 17

/-- The decimal `digits * 10 ^ (exponent - 16)`, where `digits` has seventeen digits. -/
structure Significant where
  digits : Nat
  exponent : Int
deriving Repr, DecidableEq

/-- The number of decimal digits. -/
def decimalCount (n : Nat) : Nat :=
  (Nat.toDigits 10 n).length

namespace Significant

/-- Places that every positive value has before its first digit other than zero. -/
def guardPlaces : Nat := 324

/-- The exponent of the leading digit of a positive fraction not below `10 ^ (-324)`. -/
def leadingExponent (num den : Nat) : Int :=
  (decimalCount (num * Nat.pow 10 guardPlaces / den) : Int) - 1 - guardPlaces

/-- A fraction times a power of ten, rounded to an integer. -/
def scaled (num den : Nat) : Int → Nat
  | .ofNat places => roundHalfEven (num * Nat.pow 10 places) den
  | .negSucc places => roundHalfEven num (den * Nat.pow 10 (places + 1))

/-- The decimal of seventeen digits nearest to a positive fraction. -/
def ofFraction (num den : Nat) : Significant :=
  let exponent := leadingExponent num den
  let digits := scaled num den (significantDigits - 1 - exponent)
  if digits == Nat.pow 10 significantDigits then
    ⟨Nat.pow 10 (significantDigits - 1), exponent + 1⟩
  else ⟨digits, exponent⟩

/-- Drops the zeros at the end of some digits. -/
def dropTrailingZeros (ds : List Char) : List Char :=
  (ds.reverse.dropWhile (· == '0')).reverse

/-- Digits after a point, or nothing if only zeros would stand there. -/
def afterPoint (ds : List Char) : List Char :=
  match dropTrailingZeros ds with
  | [] => []
  | ds => '.' :: ds

/-- An exponent with its sign and at least two digits. -/
def exponentText (e : Int) : List Char :=
  let ds := Nat.toDigits 10 e.natAbs
  (if e < 0 then '-' else '+') :: (if ds.length < 2 then '0' :: ds else ds)

/-- The decimal as text, without zeros at the end. -/
def text (s : Significant) : List Char :=
  let ds := Nat.toDigits 10 s.digits
  if s.exponent < -4 || (significantDigits : Int) ≤ s.exponent then
    ds.take 1 ++ afterPoint (ds.drop 1) ++ 'e' :: exponentText s.exponent
  else if s.exponent < 0 then
    '0' :: afterPoint (List.replicate (s.exponent.natAbs - 1) '0' ++ ds)
  else
    ds.take (s.exponent.toNat + 1) ++ afterPoint (ds.drop (s.exponent.toNat + 1))

end Significant

namespace Binary64

/-- The digits of the absolute value of a finite number. -/
def magnitudeText (significand : Nat) (exponent : Int) : List Char :=
  if significand == 0 then ['0']
  else
    let (num, den) := fraction significand exponent
    (Significant.ofFraction num den).text

/-- The value as an expression of the bindings. A text that could be read as an integer gets a
point and a zero. -/
def text : Binary64 → String
  | nan => "f64::NAN"
  | infinite false => "f64::INFINITY"
  | infinite true => "f64::NEG_INFINITY"
  | finite negative significand exponent =>
    let body := magnitudeText significand exponent
    let isReal := body.any fun c => c == '.' || c == 'e'
    String.ofList ((if negative then ['-'] else []) ++ body ++ if isReal then [] else ['.', '0'])

end Binary64

end ForeignBindings
