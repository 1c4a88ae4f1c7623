/-!
# Binary floating-point numbers

The values of the 64-bit floating-point format, as exact numbers.

* `Binary64.ofBits` reads a bit pattern.
* `Binary64.ofInt` is the value nearest to an integer; of two that are equally near, the one with
  an even significand.
* `Binary64.nearest` is that value as a number, and `Binary64.overflow` is where it ends.
* `roundHalfEven` rounds a quotient the same way.
-/

namespace ForeignBindings

/-- A quotient rounded to the nearest integer; of two that are equally near, the even one. -/
def roundHalfEven (num den : Nat) : Nat :=
  let q := num / den
  let r := num % den
  if 2 * r < den || (2 * r == den && q % 2 == 0) then q else q + 1

/-- A floating-point value. -/
inductive Binary64 where
  | nan
  | infinite (negative : Bool)
  /-- The number `significand * 2 ^ exponent`, with a sign that zero has too. -/
  | finite (negative : Bool) (significand : Nat) (exponent : Int)
deriving Repr, DecidableEq, Inhabited

namespace Binary64

/-- The value of a bit pattern: a sign bit, eleven bits of exponent, and 52 bits of fraction. -/
def ofBits (bits : Nat) : Binary64 :=
  let negative := bits / Nat.pow 2 63 % 2 == 1
  let exponent : Nat := bits / Nat.pow 2 52 % Nat.pow 2 11
  let fraction : Nat := bits % Nat.pow 2 52
  if exponent == 2047 then (if fraction == 0 then infinite negative else nan)
  else if exponent == 0 then finite negative fraction (-1074)
  else finite negative (Nat.pow 2 52 + fraction) ((exponent : Int) - 1075)

/-- The number of binary digits. -/
def bitCount (n : Nat) : Nat :=
  if n == 0 then 0 else n.log2 + 1

/-- The value nearest to an integer of less than 1024 bits. -/
def ofInt (v : Int) : Binary64 :=
  let shift := bitCount v.natAbs - 53
  finite (v < 0) (roundHalfEven v.natAbs (Nat.pow 2 shift)) shift

/-- The value nearest to a natural number, however large, where the exponent has no bound. -/
def nearest (n : Nat) : Nat :=
  let unit := Nat.pow 2 (bitCount n - 53)
  roundHalfEven n unit * unit

/-- The least number that is rounded to infinity: it lies half a unit above the largest finite
value. -/
def overflow : Nat := Nat.pow 2 1024 - Nat.pow 2 970

/-- The absolute value of a finite number, as a fraction. -/
def fraction (significand : Nat) (exponent : Int) : Nat × Nat :=
  match exponent with
  | .ofNat e => (significand * Nat.pow 2 e, 1)
  | .negSucc e => (significand, Nat.pow 2 (e + 1))

/-- The absolute value of a finite number without its fractional part. -/
def truncated (significand : Nat) (exponent : Int) : Nat :=
  let (num, den) := fraction significand exponent
  num / den

/-- The absolute value of a finite number is at most the given bound. -/
def isAtMost (significand : Nat) (exponent : Int) (bound : Nat) : Bool :=
  let (num, den) := fraction significand exponent
  num ≤ bound * den

end Binary64

end ForeignBindings
