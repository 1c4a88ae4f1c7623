import Mathlib.Order.Monotone.Basic
import Mathlib.Tactic.LinearCombination
import ForeignBindings.Proofs.RealLiterals

/-!
# Floating-point constants

A floating-point value is a pattern of 64 bits. A probe prints it in decimal digits, and the literal
in the bindings is read as a pattern again, the one whose number is nearest.

* `Binary64.magnitude` is the number of a pattern without its sign, on a scale that goes up to
  infinity, and `Binary64.RoundsTo` is rounding to the nearest on this scale.
* `Binary64.gap` says how far two numbers are apart, and `Binary64.roundsTo_of_near` that seventeen
  digits tell them apart.
* `Binary64.compared` tells what is no number or infinite by comparisons, as C does.
* `Binary64.Evaluates` says which pattern a literal is read as.
* `doubles_read_back` puts these together.
-/

namespace ForeignBindings

open Spec

namespace Binary64

/-! ## Patterns -/

/-- The pattern of infinity. Without their sign, the patterns of finite values are those below it,
and those above it are no numbers. -/
def infinityPattern : Nat := 2047 * 2 ^ 52

/-- The significand of a pattern without a sign. -/
def significandOf (m : Nat) : Nat :=
  if m / 2 ^ 52 = 0 then m % 2 ^ 52 else 2 ^ 52 + m % 2 ^ 52

/-- The exponent of a pattern without a sign. -/
def exponentOf (m : Nat) : Int :=
  if m / 2 ^ 52 = 0 then -1074 else (m / 2 ^ 52 : Nat) - 1075

/-- The number that a pattern without a sign stands for. Infinity stands where the next number would
be, at `2 ^ 1024`. -/
def magnitude (m : Nat) : ℚ :=
  significandOf m * 2 ^ exponentOf m

/-- The pattern with a sign in front of the other 63 bits. -/
def pattern (negative : Bool) (m : Nat) : BitVec 64 :=
  BitVec.ofNat 64 ((if negative then 2 ^ 63 else 0) + m)

/-- A pattern without its sign. -/
def withoutSign (bits : BitVec 64) : Nat :=
  bits.toNat % 2 ^ 63

/-- Rounding to the nearest: of all numbers that have a pattern, infinity among them, none is
nearer, and of two that are equally near it is the one with an even significand, which is the one
with an even pattern. -/
structure RoundsTo (x : ℚ) (m : Nat) : Prop where
  le : m ≤ infinityPattern
  nearest : ∀ m' ≤ infinityPattern, |magnitude m - x| ≤ |magnitude m' - x|
  even : ∀ m' ≤ infinityPattern, m' ≠ m → |magnitude m - x| = |magnitude m' - x| → m % 2 = 0

variable {m m' : Nat} {x : ℚ}

theorem magnitude_zero : magnitude 0 = 0 := by
  have zero : significandOf 0 = 0 := rfl
  rw [magnitude, zero, Nat.cast_zero, zero_mul]

theorem magnitude_infinityPattern : magnitude infinityPattern = 2 ^ 1024 := by
  have parts : significandOf infinityPattern = 2 ^ 52 ∧
      exponentOf infinityPattern = (972 : Nat) := by decide
  rw [magnitude, parts.1, parts.2, zpow_natCast, Nat.cast_pow, Nat.cast_ofNat, ← pow_add]

theorem significandOf_lt (m : Nat) : significandOf m < 2 ^ 53 := by
  unfold significandOf
  split <;> omega

/-- The next pattern has the next significand, or half of it with the next exponent. -/
theorem succ_cases (m : Nat) :
    exponentOf (m + 1) = exponentOf m ∧ significandOf (m + 1) = significandOf m + 1 ∨
    exponentOf (m + 1) = exponentOf m + 1 ∧ 2 * significandOf (m + 1) = significandOf m + 1 := by
  unfold exponentOf significandOf
  split <;> split <;> omega

theorem magnitude_succ (m : Nat) : magnitude (m + 1) = magnitude m + 2 ^ exponentOf m := by
  unfold magnitude
  rcases succ_cases m with ⟨same, next⟩ | ⟨up, half⟩
  · rw [same, next]
    push_cast
    ring
  · -- all bits of the significand are carried into the exponent
    have half : (2 : ℚ) * significandOf (m + 1) = significandOf m + 1 := by exact_mod_cast half
    rw [up, zpow_add_one₀ (by norm_num)]
    linear_combination 2 ^ exponentOf m * half

theorem strictMono_magnitude : StrictMono magnitude := by
  apply strictMono_nat_of_lt_succ
  intro m
  have unit : (0 : ℚ) < 2 ^ exponentOf m := by positivity
  rw [magnitude_succ]
  linarith

/-- The gap behind a number is not small beside the numbers at its ends. -/
theorem magnitude_succ_le (m : Nat) : magnitude (m + 1) ≤ 2 ^ 53 * 2 ^ exponentOf m := by
  have small : (significandOf m : ℚ) + 1 ≤ 2 ^ 53 := by exact_mod_cast significandOf_lt m
  have unit : (0 : ℚ) < 2 ^ exponentOf m := by positivity
  rw [magnitude_succ, magnitude]
  nlinarith

theorem magnitude_nonneg (m : Nat) : 0 ≤ magnitude m := by
  unfold magnitude
  positivity

/-- **Gaps.** Two numbers differ by a part of either that is not too small. -/
theorem gap (h : m ≠ m') : magnitude m / 2 ^ 53 ≤ |magnitude m' - magnitude m| := by
  rw [div_le_iff₀ (by norm_num)]
  rcases Nat.lt_or_gt_of_ne h with less | greater
  · have next : magnitude (m + 1) ≤ magnitude m' := strictMono_magnitude.monotone less
    have succ := magnitude_succ m
    have bound := magnitude_succ_le m
    have unit : (0 : ℚ) < 2 ^ exponentOf m := by positivity
    rw [abs_of_pos (by linarith)]
    linarith
  · -- below a power of two the gap is half of the one above it, so it is that of the one before
    obtain ⟨k, rfl⟩ := Nat.exists_eq_succ_of_ne_zero (Nat.ne_zero_of_lt greater)
    have before : magnitude m' ≤ magnitude k :=
      strictMono_magnitude.monotone (Nat.le_of_lt_succ greater)
    have succ := magnitude_succ k
    have bound := magnitude_succ_le k
    have unit : (0 : ℚ) < 2 ^ exponentOf k := by positivity
    rw [Nat.succ_eq_add_one, abs_of_neg (by linarith)]
    linarith

/-- Between two numbers that are equally far from one, every number is nearer to it. -/
theorem nearer_between {a b c : ℚ} (hab : a < b) (hbc : b < c) (same : |a - x| = |c - x|) :
    |b - x| < |a - x| := by
  rw [abs_sub_lt_iff]
  constructor
  · calc b - x < c - x := by linarith
      _ ≤ |c - x| := le_abs_self _
      _ = |a - x| := same.symm
  · calc x - b < x - a := by linarith
      _ ≤ |x - a| := le_abs_self _
      _ = |a - x| := abs_sub_comm x a

/-- A number is rounded to one pattern only. -/
theorem RoundsTo.unique (h : RoundsTo x m) (h' : RoundsTo x m') : m = m' := by
  by_contra different
  wlog less : m < m' generalizing m m'
  · exact this h' h (Ne.symm different) (by omega)
  have same : |magnitude m - x| = |magnitude m' - x| :=
    le_antisymm (h.nearest m' h'.le) (h'.nearest m h.le)
  -- both are even, so another one is between them
  have even := h.even m' h'.le (Ne.symm different) same
  have even' := h'.even m h.le different same.symm
  have nearer := nearer_between (strictMono_magnitude (Nat.lt_succ_self m))
    (strictMono_magnitude (show m + 1 < m' by omega)) same
  exact absurd (h.nearest (m + 1) (Nat.le_trans less h'.le)) (not_le.2 nearer)

/-- **Seventeen digits.** A number that differs from the one of a pattern by no more than seventeen
digits leave out is rounded to that pattern, since all others are further away. -/
theorem roundsTo_of_near (hm : m ≤ infinityPattern)
    (near : |x - magnitude m| ≤ magnitude m / (2 * 10 ^ 16)) : RoundsTo x m := by
  by_cases hzero : m = 0
  · -- there is no gap in proportion to zero, but no digits of it are left out either
    subst hzero
    have exact_zero : x = 0 := by
      rw [magnitude_zero, sub_zero, zero_div] at near
      exact abs_nonpos_iff.1 near
    refine ⟨hm, ?_, fun _ _ _ _ => rfl⟩
    intro m' _
    rw [magnitude_zero, exact_zero, sub_zero, abs_zero]
    exact abs_nonneg _
  · have positive : 0 < magnitude m := by
      rw [← magnitude_zero]
      exact strictMono_magnitude (Nat.pos_of_ne_zero hzero)
    have further {m' : Nat} (hne : m' ≠ m) : |magnitude m - x| < |magnitude m' - x| := by
      -- what is left out is less than half of the gap, since `2 ^ 54 < 2 * 10 ^ 16`
      have apart := gap (Ne.symm hne)
      have triangle := abs_sub_le (magnitude m') x (magnitude m)
      rw [abs_sub_comm (magnitude m) x]
      linarith
    refine ⟨hm, ?_, ?_⟩
    · intro m' _
      by_cases hne : m' = m
      · rw [hne]
      · exact (further hne).le
    · intro m' _ hne same
      exact absurd same (further hne).ne

/-! ## Bits -/

/-- A pattern as a number: its highest bit and the others. -/
theorem toNat_eq (bits : BitVec 64) :
    bits.toNat = (if bits.msb then 2 ^ 63 else 0) + withoutSign bits := by
  have bound := bits.isLt
  rw [BitVec.msb_eq_decide, withoutSign]
  simp only [decide_eq_true_eq]
  split <;> omega

theorem withoutSign_lt (bits : BitVec 64) : withoutSign bits < 2 ^ 63 :=
  Nat.mod_lt _ (by decide)

theorem pattern_withoutSign (bits : BitVec 64) : pattern bits.msb (withoutSign bits) = bits := by
  rw [pattern, ← toNat_eq, BitVec.ofNat_toNat, BitVec.setWidth_eq]

/-- What a pattern stands for, by its sign and the other bits. -/
theorem ofBits_eq (bits : BitVec 64) :
    ofBits bits.toNat =
      if withoutSign bits < infinityPattern then
        finite bits.msb (significandOf (withoutSign bits)) (exponentOf (withoutSign bits))
      else if withoutSign bits = infinityPattern then infinite bits.msb else nan := by
  have number := toNat_eq bits
  have bound := withoutSign_lt bits
  have sign : (bits.toNat / Nat.pow 2 63 % 2 == 1) = bits.msb := by
    have highest : bits.toNat / 2 ^ 63 % 2 = if bits.msb then 1 else 0 := by
      rw [number]
      split <;> omega
    show (bits.toNat / 2 ^ 63 % 2 == 1) = bits.msb
    rw [highest]
    cases bits.msb <;> rfl
  have exponent : bits.toNat / Nat.pow 2 52 % Nat.pow 2 11 = withoutSign bits / 2 ^ 52 := by
    show bits.toNat / 2 ^ 52 % 2 ^ 11 = withoutSign bits / 2 ^ 52
    rw [number]
    split <;> omega
  have fraction : bits.toNat % Nat.pow 2 52 = withoutSign bits % 2 ^ 52 := by
    show bits.toNat % 2 ^ 52 = withoutSign bits % 2 ^ 52
    rw [number]
    split <;> omega
  have unit : Nat.pow 2 52 = 2 ^ 52 := rfl
  unfold ofBits
  dsimp only
  rw [sign, exponent, fraction, unit]
  simp only [beq_iff_eq]
  by_cases below : withoutSign bits < infinityPattern
  · have not_full : withoutSign bits / 2 ^ 52 ≠ 2047 := by
      unfold infinityPattern at below
      omega
    rw [if_neg not_full, if_pos below]
    unfold significandOf exponentOf
    split <;> rfl
  · have full : withoutSign bits / 2 ^ 52 = 2047 := by
      unfold infinityPattern at below
      omega
    have fraction_zero : withoutSign bits % 2 ^ 52 = 0 ↔ withoutSign bits = infinityPattern := by
      unfold infinityPattern at below ⊢
      omega
    rw [if_pos full, if_neg below]
    simp only [fraction_zero]

/-! ## Comparisons -/

/-- The number that a finite value is. -/
def rational (negative : Bool) (significand : Nat) (exponent : Int) : ℚ :=
  (if negative then -1 else 1) * (significand * 2 ^ exponent)

/-- Equality as C tests it, which is false of what is no number. -/
def equals : Binary64 → Binary64 → Bool
  | finite negative s e, finite negative' s' e' => rational negative s e = rational negative' s' e'
  | infinite negative, infinite negative' => negative == negative'
  | _, _ => false

/-- The comparison of C by which one value is greater than another one. -/
def exceeds : Binary64 → Binary64 → Bool
  | finite negative s e, finite negative' s' e' => rational negative' s' e' < rational negative s e
  | infinite false, infinite true => true
  | infinite false, finite .. => true
  | finite .., infinite true => true
  | _, _ => false

/-- The largest finite value, or its opposite. -/
def largest (negative : Bool) : Binary64 :=
  finite negative (2 ^ 53 - 1) 971

/-- A finite value in seventeen digits, with its sign. -/
def digits : Binary64 → List Char
  | finite negative significand exponent =>
    (if negative then ['-'] else []) ++ magnitudeText significand exponent
  | _ => []

/-- How a probe prints a value: it looks for what is not equal to itself and for what is beyond the
largest finite values. Otherwise it writes digits, which get a point if they would be an integer. -/
def compared (x : Binary64) : String :=
  if !x.equals x then "f64::NAN"
  else if x.exceeds (largest false) then "f64::INFINITY"
  else if (largest true).exceeds x then "f64::NEG_INFINITY"
  else String.ofList (marked x.digits)

theorem rational_magnitude (negative : Bool) (m : Nat) :
    rational negative (significandOf m) (exponentOf m) =
      (if negative then -1 else 1) * magnitude m := rfl

/-- No finite value is beyond the largest one. -/
theorem abs_rational_le (h : m < infinityPattern) (negative : Bool) :
    rational true (2 ^ 53 - 1) 971 ≤ rational negative (significandOf m) (exponentOf m) ∧
      rational negative (significandOf m) (exponentOf m) ≤ rational false (2 ^ 53 - 1) 971 := by
  have last : significandOf (infinityPattern - 1) = 2 ^ 53 - 1 ∧
      exponentOf (infinityPattern - 1) = 971 := by decide
  have below : magnitude m ≤ magnitude (infinityPattern - 1) :=
    strictMono_magnitude.monotone (by omega)
  have nonneg := magnitude_nonneg m
  rw [← last.1, ← last.2, rational_magnitude, rational_magnitude, rational_magnitude]
  cases negative
  · simp only [Bool.false_eq_true, if_true, if_false]
    constructor <;> linarith
  · simp only [Bool.false_eq_true, if_true, if_false]
    constructor <;> linarith

theorem text_finite (negative : Bool) (significand : Nat) (exponent : Int) :
    (finite negative significand exponent).text =
      String.ofList ((if negative then ['-'] else []) ++
        marked (magnitudeText significand exponent)) := by
  rw [marked, ← List.append_assoc]
  rfl

theorem marked_sign (negative : Bool) (cs : List Char) :
    marked ((if negative then ['-'] else []) ++ cs) =
      (if negative then ['-'] else []) ++ marked cs := by
  cases negative <;> rfl

/-- The comparisons find out what a pattern stands for. -/
theorem text_eq_compared (bits : BitVec 64) :
    (ofBits bits.toNat).text = (ofBits bits.toNat).compared := by
  rw [ofBits_eq]
  by_cases below : withoutSign bits < infinityPattern
  · obtain ⟨low, high⟩ := abs_rational_le below bits.msb
    rw [if_pos below, text_finite]
    simp only [compared, equals, exceeds, largest, digits, not_lt.2 low, not_lt.2 high,
      marked_sign, decide_true, decide_false, Bool.not_true, Bool.false_eq_true, if_false]
  · rw [if_neg below]
    split
    · cases bits.msb <;> rfl
    · rfl

/-! ## Digits -/

theorem fraction_spec (significand : Nat) (exponent : Int) :
    0 < (fraction significand exponent).2 ∧
      ((fraction significand exponent).1 : ℚ) / (fraction significand exponent).2 =
        significand * 2 ^ exponent := by
  cases exponent with
  | ofNat e =>
    refine ⟨Nat.one_pos, ?_⟩
    show ((significand * 2 ^ e : Nat) : ℚ) / (1 : Nat) = significand * 2 ^ (Int.ofNat e)
    rw [Int.ofNat_eq_natCast, zpow_natCast]
    push_cast
    exact div_one _
  | negSucc e =>
    refine ⟨Nat.two_pow_pos (e + 1), ?_⟩
    show (significand : ℚ) / (2 ^ (e + 1) : Nat) = significand * 2 ^ (Int.negSucc e)
    rw [zpow_negSucc, div_eq_mul_inv]
    push_cast
    rfl

/-- No positive value is too small for its first digit to be found. -/
theorem guard_le_magnitude (h : m ≠ 0) :
    (10 : ℚ) ^ (-(Significant.guardPlaces : Int)) ≤ magnitude m := by
  have least : (10 : ℚ) ^ (-(Significant.guardPlaces : Int)) ≤ magnitude 1 := by
    have one : magnitude 1 = 2 ^ (-(1074 : Nat) : Int) := by
      have first : significandOf 1 = 1 ∧ exponentOf 1 = -(1074 : Nat) := by decide
      rw [magnitude, first.1, first.2, Nat.cast_one, one_mul]
    have powers : 2 ^ 1074 ≤ 10 ^ Significant.guardPlaces := by decide +kernel
    have powers : ((2 ^ 1074 : Nat) : ℚ) ≤ (10 ^ Significant.guardPlaces : Nat) :=
      Nat.cast_le.2 powers
    rw [Nat.cast_pow, Nat.cast_pow] at powers
    rw [one, zpow_neg, zpow_neg, zpow_natCast, zpow_natCast]
    exact inv_anti₀ (by positivity) powers
  exact least.trans (strictMono_magnitude.monotone (Nat.pos_of_ne_zero h))

theorem magnitude_lt (h : m < infinityPattern) : magnitude m < 10 ^ (309 : Int) := by
  have powers : 2 ^ 1024 ≤ 10 ^ 309 := by decide +kernel
  have powers : ((2 ^ 1024 : Nat) : ℚ) ≤ (10 ^ 309 : Nat) := Nat.cast_le.2 powers
  rw [Nat.cast_pow, Nat.cast_pow] at powers
  have below := strictMono_magnitude h
  rw [magnitude_infinityPattern] at below
  exact below.trans_le powers

/-- The digits of a finite value are a literal of a number that is near to it, and they are few. -/
theorem magnitudeText_spec (h : m < infinityPattern) :
    (magnitudeText (significandOf m) (exponentOf m)).length ≤ 23 ∧
      ∃ x, IsRealLiteral (marked (magnitudeText (significandOf m) (exponentOf m))) x ∧
        |x - magnitude m| ≤ magnitude m / (2 * 10 ^ 16) := by
  by_cases hzero : m = 0
  · subst hzero
    have zero : IsMantissa ['0'] (positional 10 ['0']) :=
      .whole (by simp) (List.forall_mem_singleton.2 (by decide))
    refine ⟨by decide, _, zero.marked, ?_⟩
    rw [magnitude_zero, show positional 10 ['0'] = 0 by decide, Nat.cast_zero, sub_zero, abs_zero,
      zero_div]
  · have positive := guard_le_magnitude hzero
    obtain ⟨den_pos, value⟩ := fraction_spec (significandOf m) (exponentOf m)
    have nonzero : ¬ (significandOf m == 0) = true := by
      intro zero
      rw [magnitude, beq_iff_eq.1 zero, Nat.cast_zero, zero_mul] at positive
      exact absurd positive (not_le.2 (by positivity))
    have nearest := Significant.nearest_ofFraction den_pos (positive.trans_eq value.symm)
    rw [value] at nearest
    have layout : magnitudeText (significandOf m) (exponentOf m) =
        (Significant.ofFraction (fraction (significandOf m) (exponentOf m)).1
          (fraction (significandOf m) (exponentOf m)).2).text := if_neg nonzero
    rw [layout]
    -- all values have an exponent of at most three digits
    have ten : (1 : ℚ) < 10 := by norm_num
    have below := (zpow_lt_zpow_iff_right₀ ten).1 (nearest.low.trans_lt (magnitude_lt h))
    have above := (zpow_lt_zpow_iff_right₀ ten).1 (positive.trans_lt nearest.high)
    have guard_places : Significant.guardPlaces = 324 := rfl
    have place := nearest.place
    exact ⟨Significant.length_text_le nearest.digits_ge nearest.digits_lt (by omega), _,
      Significant.isRealLiteral_marked_text nearest.digits_ge nearest.digits_lt,
      nearest.error_le⟩

/-! ## Reading back -/

/-- What a literal evaluates to, with or without a minus sign in front: its number is rounded to the
nearest, and the minus sign becomes the sign of the pattern. -/
inductive Evaluates : List Char → BitVec 64 → Prop where
  | plain {cs : List Char} {x : ℚ} {m : Nat} (hx : IsRealLiteral cs x) (hm : RoundsTo x m) :
    Evaluates cs (pattern false m)
  | minus {cs : List Char} {x : ℚ} {m : Nat} (hx : IsRealLiteral cs x) (hm : RoundsTo x m) :
    Evaluates ('-' :: cs) (pattern true m)

theorem not_isRealLiteral_minus (cs : List Char) : ¬ IsRealLiteral ('-' :: cs) x := by
  intro literal
  obtain ⟨d, ds, same, digit⟩ := literal.head
  rw [← List.head_eq_of_cons_eq same] at digit
  exact absurd digit (by decide)

/-- A literal evaluates to one pattern, and the minus sign in front of it is not part of it. -/
theorem evaluates_iff {cs : List Char} (hx : IsRealLiteral cs x) (hm : RoundsTo x m)
    (negative : Bool) (bits : BitVec 64) :
    Evaluates ((if negative then ['-'] else []) ++ cs) bits ↔ bits = pattern negative m := by
  constructor
  · intro h
    cases negative with
    | false =>
      have h : Evaluates cs bits := h
      cases h with
      | plain hx' hm' =>
        rw [hx.unique hx'] at hm
        rw [hm.unique hm']
      | minus => exact absurd hx (not_isRealLiteral_minus _)
    | true =>
      have h : Evaluates ('-' :: cs) bits := h
      cases h with
      | plain hx' => exact absurd hx' (not_isRealLiteral_minus _)
      | minus hx' hm' =>
        rw [hx.unique hx'] at hm
        rw [hm.unique hm']
  · rintro rfl
    cases negative with
    | false => exact .plain hx hm
    | true => exact .minus hx hm

/-- The text of a finite value is a literal of a number that is rounded to it, behind its sign. -/
theorem toList_text {bits : BitVec 64} (h : withoutSign bits < infinityPattern) :
    ∃ cs x, (ofBits bits.toNat).text.toList = (if bits.msb then ['-'] else []) ++ cs ∧
      cs.length ≤ 25 ∧ IsRealLiteral cs x ∧ RoundsTo x (withoutSign bits) := by
  obtain ⟨short, x, literal, near⟩ := magnitudeText_spec h
  refine ⟨_, x, ?_, ?_, literal, roundsTo_of_near h.le near⟩
  · rw [ofBits_eq, if_pos h, text_finite, String.toList_ofList]
  · exact (length_marked_le _).trans (Nat.add_le_add_right short 2)

end Binary64

open Binary64

/-- **Floating-point values.** A probe finds out by comparisons which patterns are no numbers or
infinite, and prints these by name. Any other pattern stands for a number, which is printed in less
than 64 characters, with a point or an exponent: a literal that evaluates to this pattern and to no
other one, also for a zero with a minus sign. A constant is declared with this expression. -/
theorem doubles_read_back (bits : BitVec 64) :
    let text := ProbeOutput.double (.real (ofBits bits.toNat))
    (∀ name doc, ProbeOutput.constantDouble name (.real (ofBits bits.toNat)) doc =
      ProbeOutput.documentation "" doc ++ "pub const " ++ ProbeOutput.upToNul name ++ ": f64 = " ++
        text ++ ";\n\n") ∧
    text = (ofBits bits.toNat).compared ∧
    if withoutSign bits < infinityPattern then
      (∃ s e, ofBits bits.toNat = finite bits.msb s e ∧ s * 2 ^ e = magnitude (withoutSign bits)) ∧
      text.length < 64 ∧ ('.' ∈ text.toList ∨ 'e' ∈ text.toList) ∧
      ∀ bits', Evaluates text.toList bits' ↔ bits' = bits
    else text =
      if infinityPattern < withoutSign bits then "f64::NAN"
      else if bits.msb then "f64::NEG_INFINITY" else "f64::INFINITY" := by
  intro text
  refine ⟨fun _ _ => rfl, text_eq_compared bits, ?_⟩
  by_cases below : withoutSign bits < infinityPattern
  · rw [if_pos below]
    have value := ofBits_eq bits
    rw [if_pos below] at value
    obtain ⟨cs, x, written, short, literal, rounded⟩ := toList_text below
    have written : text.toList = (if bits.msb then ['-'] else []) ++ cs := written
    refine ⟨⟨_, _, value, rfl⟩, ?_, ?_, ?_⟩
    · have sign : (if bits.msb then ['-'] else []).length ≤ 1 := by
        cases bits.msb <;> decide
      rw [← String.length_toList, written, List.length_append]
      omega
    · rw [written]
      exact literal.mark_mem.imp (List.mem_append_right _) (List.mem_append_right _)
    · intro bits'
      rw [written, evaluates_iff literal rounded, pattern_withoutSign]
  · rw [if_neg below]
    show (ofBits bits.toNat).text = _
    rw [ofBits_eq, if_neg below]
    by_cases infinite : withoutSign bits = infinityPattern
    · rw [if_pos infinite, if_neg (Nat.not_lt.2 infinite.le)]
      cases bits.msb <;> rfl
    · rw [if_neg infinite, if_pos (by omega)]
      rfl

/-- A tenth is not a sum of powers of two, and all digits of the nearest one are needed. -/
example : ProbeOutput.double (.real (ofBits 0x3FB999999999999A)) = "0.10000000000000001" := by
  decide +kernel

example : ProbeOutput.double (.real (ofBits 0x8000000000000000)) = "-0.0" := by
  decide +kernel

end ForeignBindings
