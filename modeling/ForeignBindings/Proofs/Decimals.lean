import Mathlib.Algebra.Order.Field.Power
import Mathlib.Algebra.Order.Field.Rat
import Mathlib.Data.Nat.Cast.Order.Field
import Mathlib.Tactic.FieldSimp
import Mathlib.Tactic.Linarith
import Mathlib.Tactic.NormNum
import Mathlib.Tactic.Positivity
import Mathlib.Tactic.Ring
import ForeignBindings.Number.Significant

/-!
# The nearest decimal

A positive fraction is written with seventeen significant digits. They are those of the nearest
decimal, so what is lost is at most half a unit of the last digit, and the first digit is not zero.

* `roundHalfEven_error` says that a quotient is rounded by at most a half.
* `Significant.leadingExponent_spec` finds the decimal place of the first digit.
* `Significant.nearest_ofFraction` says that the decimal is a nearest one, and
  `Significant.Nearest.error_le` how much is lost, as a part of the fraction.
-/

namespace ForeignBindings

variable {num den : Nat}

/-! ## Rounding -/

/-- A quotient is rounded down if its fractional part is at most a half, and up if it is at least a
half. -/
theorem roundHalfEven_cases (num den : Nat) :
    roundHalfEven num den = num / den ∧ 2 * (num % den) ≤ den ∨
    roundHalfEven num den = num / den + 1 ∧ den ≤ 2 * (num % den) := by
  dsimp only [roundHalfEven]
  split
  · rename_i down
    simp only [Bool.or_eq_true, Bool.and_eq_true, decide_eq_true_eq, beq_iff_eq] at down
    exact .inl ⟨rfl, by omega⟩
  · rename_i up
    simp only [Bool.or_eq_true, Bool.and_eq_true, decide_eq_true_eq, beq_iff_eq] at up
    exact .inr ⟨rfl, by omega⟩

/-- Rounding moves a quotient by at most a half. -/
theorem roundHalfEven_error (h : 0 < den) :
    |(roundHalfEven num den : ℚ) - num / den| ≤ 1 / 2 := by
  have positive : (0 : ℚ) < den := Nat.cast_pos.2 h
  have parts : (num : ℚ) = den * (num / den : Nat) + (num % den : Nat) := by
    exact_mod_cast (Nat.div_add_mod num den).symm
  have quotient : (num : ℚ) / den = (num / den : Nat) + (num % den : Nat) / den := by
    rw [div_eq_iff positive.ne', add_mul, div_mul_cancel₀ _ positive.ne', mul_comm]
    exact parts
  have low : (0 : ℚ) ≤ (num % den : Nat) / den := by positivity
  have high : ((num % den : Nat) : ℚ) / den ≤ 1 := by
    rw [div_le_one positive]
    exact_mod_cast (Nat.mod_lt num h).le
  rw [quotient, abs_le]
  rcases roundHalfEven_cases num den with ⟨down, half⟩ | ⟨up, half⟩
  · have part : ((num % den : Nat) : ℚ) / den ≤ 1 / 2 := by
      rw [div_le_iff₀ positive]
      have : (2 : ℚ) * (num % den : Nat) ≤ den := by exact_mod_cast half
      linarith
    rw [down]
    constructor <;> linarith
  · have part : 1 / 2 ≤ ((num % den : Nat) : ℚ) / den := by
      rw [le_div_iff₀ positive]
      have : (den : ℚ) ≤ 2 * (num % den : Nat) := by exact_mod_cast half
      linarith
    rw [up]
    push_cast
    constructor <;> linarith

namespace Significant

/-- A fraction times a power of ten is rounded by at most a half. -/
theorem scaled_error (num : Nat) (h : 0 < den) (places : Int) :
    |(scaled num den places : ℚ) - num / den * 10 ^ places| ≤ 1 / 2 := by
  cases places with
  | ofNat places =>
    have shifted : (num : ℚ) / den * 10 ^ (Int.ofNat places) =
        (num * Nat.pow 10 places : Nat) / den := by
      rw [Int.ofNat_eq_natCast, zpow_natCast, Nat.cast_mul, div_mul_eq_mul_div]
      exact congrArg (fun power : ℚ => (num : ℚ) * power / den) (Nat.cast_pow 10 places).symm
    rw [shifted]
    exact roundHalfEven_error h
  | negSucc places =>
    have shifted : (num : ℚ) / den * 10 ^ (Int.negSucc places) =
        num / (den * Nat.pow 10 (places + 1) : Nat) := by
      rw [zpow_negSucc, Nat.cast_mul, ← div_eq_mul_inv, div_div]
      exact congrArg (fun power : ℚ => (num : ℚ) / (den * power))
        (Nat.cast_pow 10 (places + 1)).symm
    rw [shifted]
    exact roundHalfEven_error (Nat.mul_pos h (Nat.pow_pos (by decide)))

/-! ## The first digit -/

theorem decimalCount_spec {n : Nat} (h : 0 < n) :
    10 ^ (decimalCount n - 1) ≤ n ∧ n < 10 ^ decimalCount n ∧ 0 < decimalCount n := by
  have positive : 0 < decimalCount n := Nat.length_toDigits_pos
  have at_most {k : Nat} (hk : 0 < k) : decimalCount n ≤ k ↔ n < 10 ^ k :=
    Nat.length_toDigits_le_iff (by decide) hk
  refine ⟨?_, (at_most positive).1 (Nat.le_refl _), positive⟩
  by_contra! fewer
  -- one digit less would do, unless there is only one
  by_cases single : decimalCount n = 1
  · rw [single] at fewer
    omega
  · have shorter := (at_most (by omega)).2 fewer
    omega

/-- A fraction that is not too small has its first digit at this place. -/
theorem leadingExponent_spec (h : 0 < den) (hlow : (10 : ℚ) ^ (-(guardPlaces : Int)) ≤ num / den) :
    (10 : ℚ) ^ leadingExponent num den ≤ num / den ∧
      (num : ℚ) / den < 10 ^ (leadingExponent num den + 1) := by
  have positive : (0 : ℚ) < den := Nat.cast_pos.2 h
  unfold leadingExponent
  generalize guardPlaces = places at hlow ⊢
  have ten : (0 : ℚ) < 10 ^ places := by positivity
  -- moved by the guard places, the fraction has an integral part, with the same first digit
  have moved : ((num * Nat.pow 10 places : Nat) : ℚ) / den = num / den * 10 ^ places := by
    rw [Nat.cast_mul, div_mul_eq_mul_div]
    exact congrArg (fun power : ℚ => (num : ℚ) * power / den) (Nat.cast_pow 10 places)
  have below : ((num * Nat.pow 10 places / den : Nat) : ℚ) ≤ num / den * 10 ^ places := by
    rw [← moved]
    exact Nat.cast_div_le
  have above : (num : ℚ) / den * 10 ^ places < (num * Nat.pow 10 places / den : Nat) + 1 := by
    rw [← moved, div_lt_iff₀ positive]
    exact_mod_cast Nat.lt_mul_of_div_lt (Nat.lt_succ_self _) h
  generalize num * Nat.pow 10 places / den = whole at below above ⊢
  have whole_pos : 0 < whole := by
    rw [zpow_neg, zpow_natCast, inv_le_iff_one_le_mul₀ ten] at hlow
    have : (0 : ℚ) < whole := by linarith
    exact_mod_cast this
  obtain ⟨low, high, count_pos⟩ := decimalCount_spec whole_pos
  rw [show (decimalCount whole : Int) - 1 - places + 1 = decimalCount whole - places by omega,
    show (decimalCount whole : Int) - 1 = (decimalCount whole - 1 : Nat) by omega,
    zpow_sub₀ (by norm_num), zpow_sub₀ (by norm_num), zpow_natCast, zpow_natCast, zpow_natCast,
    div_le_iff₀ ten, lt_div_iff₀ ten]
  constructor
  · have : (10 : ℚ) ^ (decimalCount whole - 1) ≤ whole := by exact_mod_cast low
    linarith
  · have : (whole : ℚ) + 1 ≤ 10 ^ decimalCount whole := by exact_mod_cast high
    linarith

/-! ## Seventeen digits -/

/-- The number that the decimal stands for. -/
def value (s : Significant) : ℚ :=
  s.digits * 10 ^ (s.exponent - 16)

/-- The decimal is one of seventeen digits that is nearest to a number whose first digit is at the
given place: it differs from it by at most half a unit of the last digit. Its own first digit is one
place higher if all digits of the number are rounded up. -/
structure Nearest (s : Significant) (x : ℚ) (first : Int) : Prop where
  low : (10 : ℚ) ^ first ≤ x
  high : x < 10 ^ (first + 1)
  digits_ge : 10 ^ 16 ≤ s.digits
  digits_lt : s.digits < 10 ^ 17
  place : s.exponent = first ∨ s.exponent = first + 1
  error : |s.value - x| ≤ 10 ^ (first - 16) / 2

/-- The rounded digits are seventeen, or a one and seventeen zeros. -/
theorem scaled_bounds (h : 0 < den) {first : Int} (low : (10 : ℚ) ^ first ≤ num / den)
    (high : (num : ℚ) / den < 10 ^ (first + 1)) :
    10 ^ 16 ≤ scaled num den (16 - first) ∧ scaled num den (16 - first) ≤ 10 ^ 17 := by
  have error := abs_le.1 (scaled_error num h (16 - first))
  have unit : (0 : ℚ) < 10 ^ (16 - first) := by positivity
  have low' : (10 : ℚ) ^ 16 ≤ num / den * 10 ^ (16 - first) := by
    calc (10 : ℚ) ^ 16 = 10 ^ first * 10 ^ (16 - first) := by
          rw [← zpow_add₀ (by norm_num), add_sub_cancel]
          rfl
      _ ≤ num / den * 10 ^ (16 - first) := mul_le_mul_of_nonneg_right low unit.le
  have high' : (num : ℚ) / den * 10 ^ (16 - first) < 10 ^ 17 := by
    calc (num : ℚ) / den * 10 ^ (16 - first) < 10 ^ (first + 1) * 10 ^ (16 - first) :=
          mul_lt_mul_of_pos_right high unit
      _ = 10 ^ 17 := by
          rw [← zpow_add₀ (by norm_num), show first + 1 + (16 - first) = (17 : Nat) by omega,
            zpow_natCast]
  -- half below an integer is still above the one before, and half above it below the next one
  constructor
  · have : (10 : ℚ) ^ 16 < scaled num den (16 - first) + 1 := by linarith
    exact Nat.lt_succ_iff.1 (by exact_mod_cast this)
  · have : (scaled num den (16 - first) : ℚ) < 10 ^ 17 + 1 := by linarith
    exact Nat.lt_succ_iff.1 (by exact_mod_cast this)

/-- At their place, the rounded digits differ from the number by at most half a unit of the
last. -/
theorem scaled_error_at (num : Nat) (h : 0 < den) (first : Int) :
    |(scaled num den (16 - first) : ℚ) * 10 ^ (first - 16) - num / den| ≤
      10 ^ (first - 16) / 2 := by
  have unit : (0 : ℚ) < 10 ^ (first - 16) := by positivity
  have inverse : (10 : ℚ) ^ (16 - first) * 10 ^ (first - 16) = 1 := by
    rw [← zpow_add₀ (by norm_num), show 16 - first + (first - 16) = 0 by omega, zpow_zero]
  have moved : (scaled num den (16 - first) : ℚ) * 10 ^ (first - 16) - num / den =
      (scaled num den (16 - first) - num / den * 10 ^ (16 - first)) * 10 ^ (first - 16) := by
    rw [sub_mul, mul_assoc, inverse, mul_one]
  calc |(scaled num den (16 - first) : ℚ) * 10 ^ (first - 16) - num / den|
      = |(scaled num den (16 - first) : ℚ) - num / den * 10 ^ (16 - first)| *
          10 ^ (first - 16) := by
        rw [moved, abs_mul, abs_of_pos unit]
    _ ≤ 1 / 2 * 10 ^ (first - 16) := mul_le_mul_of_nonneg_right (scaled_error num h _) unit.le
    _ = 10 ^ (first - 16) / 2 := by ring

/-- **The nearest decimal.** A fraction that is not too small gets the seventeen digits that are
nearest to it. -/
theorem nearest_ofFraction (h : 0 < den) (hlow : (10 : ℚ) ^ (-(guardPlaces : Int)) ≤ num / den) :
    (ofFraction num den).Nearest (num / den) (leadingExponent num den) := by
  obtain ⟨low, high⟩ := leadingExponent_spec h hlow
  obtain ⟨digits_ge, digits_le⟩ := scaled_bounds h low high
  have error := scaled_error_at num h (leadingExponent num den)
  have places : (significantDigits : Int) - 1 - leadingExponent num den =
      16 - leadingExponent num den := rfl
  have all_digits : Nat.pow 10 significantDigits = 10 ^ 17 := rfl
  unfold ofFraction
  dsimp only
  rw [places]
  split
  · -- all digits are rounded up, which leaves a one and sixteen zeros at the next place
    rename_i full
    rw [beq_iff_eq, all_digits] at full
    rw [full] at error
    have one_place : value ⟨Nat.pow 10 (significantDigits - 1), leadingExponent num den + 1⟩ =
        (10 ^ 17 : Nat) * 10 ^ (leadingExponent num den - 16) := by
      have power : ((Nat.pow 10 (significantDigits - 1) : Nat) : ℚ) = 10 ^ 16 := by
        exact_mod_cast (rfl : Nat.pow 10 (significantDigits - 1) = 10 ^ 16)
      rw [value, power, show leadingExponent num den + 1 - 16 = 1 + (leadingExponent num den - 16)
        by omega, zpow_add₀ (by norm_num), zpow_one, ← mul_assoc]
      norm_num
    refine ⟨low, high, Nat.le_refl (10 ^ 16), ?_, .inr rfl, ?_⟩
    · exact (by decide : (10 : Nat) ^ 16 < 10 ^ 17)
    · rw [one_place]
      exact error
  · rename_i not_full
    rw [beq_iff_eq, all_digits] at not_full
    exact ⟨low, high, digits_ge, Nat.lt_of_le_of_ne digits_le not_full, .inl rfl, error⟩

/-- Half a unit of the last digit is a small part of the number. -/
theorem Nearest.error_le {s : Significant} {x : ℚ} {first : Int} (h : s.Nearest x first) :
    |s.value - x| ≤ x / (2 * 10 ^ 16) := by
  have first_eq : (10 : ℚ) ^ first = 10 ^ 16 * 10 ^ (first - 16) := by
    rw [← zpow_natCast, ← zpow_add₀ (by norm_num),
      show ((16 : Nat) : Int) + (first - 16) = first by omega]
  calc |s.value - x| ≤ 10 ^ (first - 16) / 2 := h.error
    _ = 10 ^ first / (2 * 10 ^ 16) := by
        rw [first_eq]
        ring
    _ ≤ x / (2 * 10 ^ 16) := div_le_div_of_nonneg_right h.low (by norm_num)

end Significant

end ForeignBindings
