import Mathlib.Data.List.DropRight
import ForeignBindings.Proofs.Decimals
import ForeignBindings.Proofs.Values

/-!
# Literals of real numbers

A floating-point number stands in the bindings as a literal: decimal digits with a point among them,
with an exponent behind them, or with both. Digits alone would be an integer.

* `Spec.IsMantissa`, `Spec.IsPower` and `Spec.IsRealLiteral` say which number such digits denote,
  and their `unique` that it is one only.
* `Significant.isRealLiteral_marked_text` says that the text of a decimal is a literal of its value,
  where it gets a point if it would be an integer, and `Significant.length_text_le` how long it is.
-/

namespace ForeignBindings

open Spec

namespace Spec

/-! ## Literals -/

/-- Decimal digits, perhaps with a point among them, and the number that they denote. -/
inductive IsMantissa : List Char → ℚ → Prop where
  | whole {cs : List Char} (hne : cs ≠ []) (h : ∀ d ∈ cs, digitOf d < 10) :
    IsMantissa cs (positional 10 cs)
  | pointed {cs ds : List Char} (hcs : cs ≠ []) (hds : ds ≠ [])
    (h : ∀ d ∈ cs ++ ds, digitOf d < 10) :
    IsMantissa (cs ++ '.' :: ds) (positional 10 (cs ++ ds) / 10 ^ ds.length)

/-- An exponent: decimal digits, perhaps behind a sign. -/
inductive IsPower : List Char → Int → Prop where
  | decimal {cs : List Char} {e : Int} (h : IsDecimal cs e) : IsPower cs e
  | plus {cs : List Char} (hne : cs ≠ []) (h : ∀ d ∈ cs, digitOf d < 10) :
    IsPower ('+' :: cs) (positional 10 cs)

/-- A literal that is read as a real number, since it has a point or an exponent, and the number
that it denotes. -/
inductive IsRealLiteral : List Char → ℚ → Prop where
  | pointed {cs : List Char} {x : ℚ} (h : IsMantissa cs x) (hpoint : '.' ∈ cs) : IsRealLiteral cs x
  | scaled {ms es : List Char} {x : ℚ} {e : Int} (hm : IsMantissa ms x) (he : IsPower es e) :
    IsRealLiteral (ms ++ 'e' :: es) (x * 10 ^ e)

variable {cs : List Char} {x y : ℚ}

theorem not_mem_of_digits {c : Char} (hc : ¬ digitOf c < 10) (h : ∀ d ∈ cs, digitOf d < 10) :
    c ∉ cs :=
  fun hmem => hc (h c hmem)

theorem IsMantissa.mem_cases (h : IsMantissa cs x) {c : Char} (hc : c ∈ cs) :
    digitOf c < 10 ∨ c = '.' := by
  cases h with
  | whole hne digits => exact .inl (digits c hc)
  | pointed hfront hback digits =>
    rcases List.mem_append.1 hc with hc | hc
    · exact .inl (digits c (List.mem_append_left _ hc))
    · rcases List.mem_cons.1 hc with rfl | hc
      · exact .inr rfl
      · exact .inl (digits c (List.mem_append_right _ hc))

/-- A mantissa has no letter in it. -/
theorem IsMantissa.e_not_mem (h : IsMantissa cs x) : 'e' ∉ cs := by
  intro hmem
  rcases h.mem_cases hmem with digit | point
  · exact absurd digit (by decide)
  · exact absurd point (by decide)

/-- The same digits denote one number only. -/
theorem IsMantissa.unique (h : IsMantissa cs x) (h' : IsMantissa cs y) : x = y := by
  have point : ¬ digitOf '.' < 10 := by decide
  cases h with
  | whole hne digits =>
    generalize hcs : cs = cs' at h'
    cases h' with
    | whole => rfl
    | pointed hfront hback digits' =>
      rw [hcs] at digits
      exact absurd (digits '.' (by simp)) point
  | @pointed front back hfront hback digits =>
    generalize hcs : front ++ '.' :: back = cs' at h'
    cases h' with
    | whole hne all_digits =>
      rw [← hcs] at all_digits
      exact absurd (all_digits '.' (by simp)) point
    | pointed hfront' hback' digits' =>
      -- both have their point at the same place
      have none_before := not_mem_of_digits point fun d hd => digits d (List.mem_append_left _ hd)
      have none_before' := not_mem_of_digits point fun d hd => digits' d (List.mem_append_left _ hd)
      obtain ⟨rfl, rfl⟩ := ProbeOutput.append_cons_inj none_before none_before' hcs
      rfl

theorem IsPower.unique {e e' : Int} (h : IsPower cs e) (h' : IsPower cs e') : e = e' := by
  -- no integer without a plus sign starts with one
  have unsigned {ds : List Char} {v : Int} : ¬ IsDecimal ('+' :: ds) v := by
    intro hd
    cases hd with
    | natural hne digits => exact absurd (digits '+' (List.mem_cons_self ..)) (by decide)
  cases h with
  | decimal hd =>
    cases h' with
    | decimal hd' => exact hd.unique hd'
    | plus => exact absurd hd unsigned
  | plus hne digits =>
    cases h' with
    | decimal hd' => exact absurd hd' unsigned
    | plus => rfl

/-- A literal denotes one number only. -/
theorem IsRealLiteral.unique (h : IsRealLiteral cs x) (h' : IsRealLiteral cs y) : x = y := by
  cases h with
  | pointed hm hpoint =>
    cases h' with
    | pointed hm' hpoint' => exact hm.unique hm'
    | scaled hm' he' => exact absurd (by simp) hm.e_not_mem
  | @scaled ms es x e hm he =>
    generalize hcs : ms ++ 'e' :: es = cs' at h'
    cases h' with
    | pointed hm' hpoint' =>
      rw [← hcs] at hm'
      exact absurd (by simp) hm'.e_not_mem
    | scaled hm' he' =>
      obtain ⟨rfl, rfl⟩ := ProbeOutput.append_cons_inj hm.e_not_mem hm'.e_not_mem hcs
      rw [hm.unique hm', he.unique he']

theorem IsMantissa.head (h : IsMantissa cs x) : ∃ d ds, cs = d :: ds ∧ digitOf d < 10 := by
  cases h with
  | whole hne digits =>
    obtain ⟨d, ds, rfl⟩ := List.exists_cons_of_ne_nil hne
    exact ⟨d, ds, rfl, digits d (List.mem_cons_self ..)⟩
  | pointed hfront hback digits =>
    obtain ⟨d, ds, rfl⟩ := List.exists_cons_of_ne_nil hfront
    exact ⟨d, _, rfl, digits d (List.mem_cons_self ..)⟩

/-- A literal starts with a digit, so a sign in front of it is not part of it. -/
theorem IsRealLiteral.head (h : IsRealLiteral cs x) : ∃ d ds, cs = d :: ds ∧ digitOf d < 10 := by
  cases h with
  | pointed hm hpoint => exact hm.head
  | scaled hm he =>
    obtain ⟨d, ds, rfl, digit⟩ := hm.head
    exact ⟨d, _, rfl, digit⟩

/-- A literal has a point or an exponent. -/
theorem IsRealLiteral.mark_mem (h : IsRealLiteral cs x) : '.' ∈ cs ∨ 'e' ∈ cs := by
  cases h with
  | pointed hm hpoint => exact .inl hpoint
  | scaled hm he => exact .inr (by simp)

/-! ## Zeros -/

theorem positional_append_zeros (cs : List Char) (k : Nat) :
    positional 10 (cs ++ List.replicate k '0') = positional 10 cs * 10 ^ k := by
  induction k with
  | zero => simp
  | succ k ih =>
    have zero : digitOf '0' = 0 := by decide
    rw [List.replicate_succ', ← List.append_assoc, positional_append, ih, zero, pow_succ]
    ring

theorem positional_zeros_append (k : Nat) (cs : List Char) :
    positional 10 (List.replicate k '0' ++ cs) = positional 10 cs := by
  have zero : digitOf '0' = 0 := by decide
  rw [positional, List.reverse_append, List.map_append, List.reverse_replicate, List.map_replicate,
    zero, Nat.ofDigits_append_replicate_zero]
  rfl

/-! ## Points -/

/-- Digits as they are printed: with a point and a zero behind them if they would be an integer. -/
def marked (cs : List Char) : List Char :=
  cs ++ if cs.any (fun c => c == '.' || c == 'e') then [] else ['.', '0']

theorem marked_of_mem (h : '.' ∈ cs ∨ 'e' ∈ cs) : marked cs = cs := by
  have real : cs.any (fun c => c == '.' || c == 'e') = true := by
    rw [List.any_eq_true]
    rcases h with h | h
    · exact ⟨_, h, rfl⟩
    · exact ⟨_, h, rfl⟩
  rw [marked, if_pos real, List.append_nil]

theorem length_marked_le (cs : List Char) : (marked cs).length ≤ cs.length + 2 := by
  unfold marked
  split <;> simp

/-- Digits become a literal by their point, and keep their value. -/
theorem IsMantissa.marked (h : IsMantissa cs x) : IsRealLiteral (marked cs) x := by
  by_cases point : '.' ∈ cs
  · rw [marked_of_mem (.inl point)]
    exact .pointed h point
  · have integral : cs.any (fun c => c == '.' || c == 'e') = false := by
      rw [List.any_eq_false]
      intro c hc
      have other : c ≠ '.' ∧ c ≠ 'e' :=
        ⟨fun same => point (same ▸ hc), fun same => h.e_not_mem (same ▸ hc)⟩
      simp [other]
    rw [Spec.marked, integral]
    cases h with
    | pointed => exact absurd (by simp) point
    | whole hne digits =>
      have zero : ∀ d ∈ cs ++ ['0'], digitOf d < 10 := by
        intro d hd
        rcases List.mem_append.1 hd with hd | hd
        · exact digits d hd
        · rw [List.mem_singleton.1 hd]
          decide
      have same : (positional 10 (cs ++ ['0']) : ℚ) / 10 ^ ['0'].length = positional 10 cs := by
        rw [show ['0'] = List.replicate 1 '0' from rfl, positional_append_zeros]
        push_cast
        exact mul_div_cancel_right₀ _ (by norm_num)
      rw [← same]
      exact .pointed (.pointed hne (by simp) zero) (by simp)

theorem IsRealLiteral.marked (h : IsRealLiteral cs x) : IsRealLiteral (marked cs) x := by
  rwa [marked_of_mem h.mark_mem]

end Spec

namespace Significant

/-! ## Layouts -/

/-- What is dropped are zeros. -/
theorem exists_zeros (ds : List Char) :
    ∃ k, ds = dropTrailingZeros ds ++ List.replicate k '0' := by
  have zeros : ds.rtakeWhile (· == '0') =
      List.replicate (ds.rtakeWhile (· == '0')).length '0' := by
    apply List.eq_replicate_of_mem
    intro c hc
    have zero := List.mem_rtakeWhile_imp (p := (· == '0')) hc
    exact beq_iff_eq.1 zero
  refine ⟨(ds.rtakeWhile (· == '0')).length, ?_⟩
  rw [← zeros]
  exact List.rdropWhile_append_rtakeWhile.symm

theorem length_afterPoint_le (ds : List Char) : (afterPoint ds).length ≤ ds.length + 1 := by
  obtain ⟨k, hk⟩ := exists_zeros ds
  have shorter : (dropTrailingZeros ds).length ≤ ds.length := by
    conv_rhs => rw [hk]
    simp
  unfold afterPoint
  split
  · simp
  · rw [List.length_cons]
    omega

/-- Digits with a point behind the first ones denote the same number without the zeros at the
end. -/
theorem isMantissa_afterPoint {whole ds : List Char} (hne : whole ≠ [])
    (h : ∀ d ∈ whole ++ ds, digitOf d < 10) :
    IsMantissa (whole ++ afterPoint ds) (positional 10 (whole ++ ds) / 10 ^ ds.length) := by
  obtain ⟨k, hk⟩ := exists_zeros ds
  have value : (positional 10 (whole ++ ds) : ℚ) / 10 ^ ds.length =
      positional 10 (whole ++ dropTrailingZeros ds) / 10 ^ (dropTrailingZeros ds).length := by
    conv_lhs => rw [hk]
    rw [← List.append_assoc, positional_append_zeros, List.length_append, List.length_replicate,
      pow_add]
    push_cast
    exact mul_div_mul_right _ _ (by positivity)
  have digits : ∀ d ∈ whole ++ dropTrailingZeros ds, digitOf d < 10 := by
    intro d hd
    apply h
    rw [hk, ← List.append_assoc]
    exact List.mem_append_left _ hd
  rw [value, afterPoint]
  generalize dropTrailingZeros ds = kept at digits ⊢
  cases kept with
  | nil =>
    rw [List.append_nil] at digits ⊢
    rw [List.length_nil, pow_zero, div_one]
    exact .whole hne digits
  | cons d kept => exact .pointed hne (by simp) digits

/-- The digits of an exponent, of which there are two at least. -/
def exponentDigits (e : Int) : List Char :=
  let ds := Nat.toDigits 10 e.natAbs
  if ds.length < 2 then '0' :: ds else ds

/-- A zero in front changes nothing. -/
theorem exponentDigits_spec (e : Int) :
    exponentDigits e ≠ [] ∧ (∀ d ∈ exponentDigits e, digitOf d < 10) ∧
      positional 10 (exponentDigits e) = e.natAbs := by
  obtain ⟨digits, value⟩ := digits_toDigits e.natAbs
  dsimp only [exponentDigits]
  split
  · have with_zero : positional 10 ('0' :: Nat.toDigits 10 e.natAbs) = e.natAbs :=
      (positional_zeros_append 1 _).trans value
    exact ⟨List.cons_ne_nil _ _, List.forall_mem_cons.2 ⟨by decide, digits⟩, with_zero⟩
  · exact ⟨Nat.toDigits_ne_nil, digits, value⟩

theorem length_exponentDigits_le {e : Int} (h : e.natAbs < 1000) :
    (exponentDigits e).length ≤ 3 := by
  have written : (Nat.toDigits 10 e.natAbs).length ≤ 3 :=
    (Nat.length_toDigits_le_iff (by decide) (by decide)).2 h
  dsimp only [exponentDigits]
  split
  · rw [List.length_cons]
    omega
  · exact written

theorem isPower_exponentText (e : Int) : IsPower (exponentText e) e := by
  obtain ⟨hne, digits, value⟩ := exponentDigits_spec e
  show IsPower ((if e < 0 then '-' else '+') :: exponentDigits e) e
  split
  · rename_i negative
    have denotes := IsDecimal.minus hne digits
    rw [value, show -(e.natAbs : Int) = e by omega] at denotes
    exact .decimal denotes
  · rename_i natural
    have denotes := IsPower.plus hne digits
    rw [value, show (e.natAbs : Int) = e by omega] at denotes
    exact denotes

/-- The three layouts of a decimal: with an exponent, with zeros behind the point, and with digits
in front of it. -/
theorem text_cases (s : Significant) :
    s.text = (Nat.toDigits 10 s.digits).take 1 ++ afterPoint ((Nat.toDigits 10 s.digits).drop 1) ++
      'e' :: exponentText s.exponent ∨
    (-4 ≤ s.exponent ∧ s.exponent < 0) ∧ s.text = ['0'] ++
      afterPoint (List.replicate (s.exponent.natAbs - 1) '0' ++ Nat.toDigits 10 s.digits) ∨
    (0 ≤ s.exponent ∧ s.exponent < 17) ∧ s.text =
      (Nat.toDigits 10 s.digits).take (s.exponent.toNat + 1) ++
        afterPoint ((Nat.toDigits 10 s.digits).drop (s.exponent.toNat + 1)) := by
  unfold text
  dsimp only
  split
  · exact .inl rfl
  · rename_i positional_layout
    simp only [Bool.or_eq_true, decide_eq_true_eq, not_or, not_lt, not_le] at positional_layout
    obtain ⟨not_small, not_large⟩ := positional_layout
    split
    · rename_i negative
      exact .inr (.inl ⟨⟨not_small, negative⟩, rfl⟩)
    · rename_i natural
      exact .inr (.inr ⟨⟨Int.not_lt.1 natural, not_large⟩, rfl⟩)

variable {s : Significant}

theorem length_digits (hge : 10 ^ 16 ≤ s.digits) (hlt : s.digits < 10 ^ 17) :
    (Nat.toDigits 10 s.digits).length = 17 := by
  have at_most := (Nat.length_toDigits_le_iff (by decide) (by decide : 0 < 17)).2 hlt
  have at_least := mt (Nat.length_toDigits_le_iff (by decide) (by decide : 0 < 16)).1
    (Nat.not_lt.2 hge)
  omega

/-- The first digits stand in front of the point. -/
theorem isMantissa_split (hge : 10 ^ 16 ≤ s.digits) (hlt : s.digits < 10 ^ 17) {n : Nat}
    (hn : 0 < n) :
    IsMantissa ((Nat.toDigits 10 s.digits).take n ++ afterPoint ((Nat.toDigits 10 s.digits).drop n))
      (s.digits / 10 ^ (17 - n)) := by
  have length := length_digits hge hlt
  obtain ⟨digits, value⟩ := digits_toDigits s.digits
  generalize Nat.toDigits 10 s.digits = ds at length digits value ⊢
  have nonempty : ds.take n ≠ [] := by
    intro empty
    have := congrArg List.length empty
    rw [List.length_take, List.length_nil] at this
    omega
  have mantissa := isMantissa_afterPoint nonempty
    (show ∀ d ∈ ds.take n ++ ds.drop n, digitOf d < 10 by rwa [List.take_append_drop])
  rwa [List.take_append_drop, value, List.length_drop, length] at mantissa

/-- Zeros stand between the point and the first digit. -/
theorem isMantissa_zeros (hge : 10 ^ 16 ≤ s.digits) (hlt : s.digits < 10 ^ 17) (k : Nat) :
    IsMantissa (['0'] ++ afterPoint (List.replicate k '0' ++ Nat.toDigits 10 s.digits))
      (s.digits / 10 ^ (k + 17)) := by
  have length := length_digits hge hlt
  obtain ⟨digits, value⟩ := digits_toDigits s.digits
  generalize Nat.toDigits 10 s.digits = ds at length digits value ⊢
  have all_digits : ∀ d ∈ ['0'] ++ (List.replicate k '0' ++ ds), digitOf d < 10 := by
    intro d hd
    simp only [List.cons_append, List.nil_append, List.mem_cons, List.mem_append,
      List.mem_replicate] at hd
    rcases hd with rfl | ⟨-, rfl⟩ | hd
    · decide
    · decide
    · exact digits d hd
  have same : positional 10 (['0'] ++ (List.replicate k '0' ++ ds)) = s.digits := by
    rw [show ['0'] = List.replicate 1 '0' from rfl, positional_zeros_append,
      positional_zeros_append, value]
  have mantissa := isMantissa_afterPoint (List.cons_ne_nil '0' []) all_digits
  rwa [same, List.length_append, List.length_replicate, length] at mantissa

/-- The value with all digits behind a point, which is moved to the right by some places. -/
theorem value_eq_div {places : Nat} (h : s.exponent - 16 = -(places : Int)) :
    s.value = s.digits / 10 ^ places := by
  rw [value, h, zpow_neg, zpow_natCast, div_eq_mul_inv]

/-- **The text of a decimal.** With a point if it has neither that nor an exponent, it is a literal
of the value of the decimal. -/
theorem isRealLiteral_marked_text (hge : 10 ^ 16 ≤ s.digits) (hlt : s.digits < 10 ^ 17) :
    IsRealLiteral (marked s.text) s.value := by
  rcases text_cases s with layout | ⟨⟨low, high⟩, layout⟩ | ⟨⟨low, high⟩, layout⟩
  · have literal := IsRealLiteral.scaled (isMantissa_split hge hlt Nat.one_pos)
      (isPower_exponentText s.exponent)
    have moved : (s.digits : ℚ) / 10 ^ (17 - 1) * 10 ^ s.exponent = s.value := by
      rw [value, zpow_sub₀ (by norm_num)]
      ring
    rw [layout, ← moved]
    exact literal.marked
  · rw [layout, value_eq_div (by omega : _ = -((s.exponent.natAbs - 1 + 17 : Nat) : Int))]
    exact (isMantissa_zeros hge hlt _).marked
  · rw [layout, value_eq_div (by omega : _ = -((17 - (s.exponent.toNat + 1) : Nat) : Int))]
    exact (isMantissa_split hge hlt (Nat.succ_pos _)).marked

theorem length_text_le (hge : 10 ^ 16 ≤ s.digits) (hlt : s.digits < 10 ^ 17)
    (hexponent : s.exponent.natAbs < 1000) : s.text.length ≤ 23 := by
  have length := length_digits hge hlt
  have exponent : (exponentText s.exponent).length ≤ 4 :=
    Nat.succ_le_succ (length_exponentDigits_le hexponent)
  have fraction := length_afterPoint_le
  rcases text_cases s with layout | ⟨⟨low, high⟩, layout⟩ | ⟨⟨low, high⟩, layout⟩
  · have fraction := fraction ((Nat.toDigits 10 s.digits).drop 1)
    rw [layout]
    simp only [List.length_append, List.length_cons, List.length_take, List.length_drop]
      at fraction ⊢
    omega
  · have fraction := fraction
      (List.replicate (s.exponent.natAbs - 1) '0' ++ Nat.toDigits 10 s.digits)
    rw [layout]
    simp only [List.length_append, List.length_cons, List.length_nil, List.length_replicate]
      at fraction ⊢
    omega
  · have fraction := fraction ((Nat.toDigits 10 s.digits).drop (s.exponent.toNat + 1))
    rw [layout]
    simp only [List.length_append, List.length_take, List.length_drop] at fraction ⊢
    omega

end Significant

end ForeignBindings
