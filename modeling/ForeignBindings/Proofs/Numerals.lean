import Mathlib.Data.Nat.Digits.Defs
import ForeignBindings.Proofs.Words

/-!
# Numerals

Integers as C spells them, which is also how a specification does: a leading zero starts octal
digits, `0x` hexadecimal ones, and anything else decimal ones. A specification may put one sign in
front.

* `IsNumeral` says which number the digits of C denote, `IsSigned` also with a sign.
* `integerValue?_eq_some_iff` says that exactly these words are read as integers, with their values.
* `isNumeral_toString` says that the digits a number is written with denote it in C too.
* `isSigned_of_directivesOf` says that all integers of a specification are the values of their own
  spellings, and fit 64 bits.
-/

namespace ForeignBindings.Spec

/-! ## Digits -/

/-- The digits in their order, with small letters. -/
def smallDigits : List Char :=
  ['0', '1', '2', '3', '4', '5', '6', '7', '8', '9', 'a', 'b', 'c', 'd', 'e', 'f']

/-- The digits in their order, with capital letters. -/
def capitalDigits : List Char :=
  ['0', '1', '2', '3', '4', '5', '6', '7', '8', '9', 'A', 'B', 'C', 'D', 'E', 'F']

/-- The value of a digit is its place among the digits. Any other character is given none of their
values. -/
def digitOf (c : Char) : Nat :=
  min (smallDigits.idxOf c) (capitalDigits.idxOf c)

/-- The number that digits denote, the one of most weight first. -/
def positional (radix : Nat) (cs : List Char) : Nat :=
  Nat.ofDigits radix (cs.reverse.map digitOf)

theorem positional_append (radix : Nat) (cs : List Char) (c : Char) :
    positional radix (cs ++ [c]) = positional radix cs * radix + digitOf c := by
  simp [positional, Nat.ofDigits_cons, Nat.mul_comm, Nat.add_comm]

/-- Characters in a row have values in a row. -/
theorem digitOf_of_between {first last : Char} (value : Nat) {c : Char}
    (h : (decide (first ≤ c) && decide (c ≤ last)) = true)
    (values : ∀ n ≤ last.toNat - first.toNat, digitOf (Char.ofNat (first.toNat + n)) = value + n) :
    digitOf c = c.toNat - first.toNat + value := by
  simp only [Bool.and_eq_true, decide_eq_true_eq] at h
  have low : first.toNat ≤ c.toNat := h.1
  have high : c.toNat ≤ last.toNat := h.2
  have here := values (c.toNat - first.toNat) (by omega)
  rw [Nat.add_sub_cancel' low, Char.ofNat_toNat] at here
  omega

/-- A character is read as the digit that it is, if the radix has it. -/
theorem digitValue?_eq {radix : Nat} (h : radix ≤ 16) (c : Char) :
    digitValue? radix c = if digitOf c < radix then some (digitOf c) else none := by
  unfold digitValue?
  by_cases decimal : (decide ('0' ≤ c) && decide (c ≤ '9')) = true
  · rw [if_pos decimal, digitOf_of_between 0 decimal (by decide)]
    rfl
  · by_cases small : (decide ('a' ≤ c) && decide (c ≤ 'f')) = true
    · rw [if_neg decimal, if_pos small, digitOf_of_between 10 small (by decide)]
    · by_cases capital : (decide ('A' ≤ c) && decide (c ≤ 'F')) = true
      · rw [if_neg decimal, if_neg small, if_pos capital,
          digitOf_of_between 10 capital (by decide)]
      · -- all digits are in one of the ranges, so the character is none
        have in_range : (smallDigits ++ capitalDigits).all (fun d =>
            (decide ('0' ≤ d) && decide (d ≤ '9')) || (decide ('a' ≤ d) && decide (d ≤ 'f')) ||
              (decide ('A' ≤ d) && decide (d ≤ 'F'))) = true := by decide
        have no_digit : c ∉ smallDigits ++ capitalDigits := by
          intro hc
          have here := List.all_eq_true.1 in_range c hc
          rw [Bool.or_eq_true, Bool.or_eq_true] at here
          rcases here with (h | h) | h
          · exact decimal h
          · exact small h
          · exact capital h
        rw [List.mem_append, not_or] at no_digit
        have value : digitOf c = 16 := by
          rw [digitOf, List.idxOf_eq_length no_digit.1, List.idxOf_eq_length no_digit.2]
          rfl
        rw [if_neg decimal, if_neg small, if_neg capital, value, if_neg (Nat.lt_irrefl radix),
          if_neg (Nat.not_lt.2 h)]

/-- Behind the digits that have been read, the others add to them what they denote. -/
theorem magnitudeFrom_positional {radix : Nat} (h : radix ≤ 16) (before cs : List Char) {n : Nat} :
    magnitudeFrom radix (positional radix before) cs = some n ↔
      (∀ d ∈ cs, digitOf d < radix) ∧ n = positional radix (before ++ cs) := by
  induction cs generalizing before with
  | nil => simp [magnitudeFrom, eq_comm]
  | cons c cs ih =>
    rw [magnitudeFrom, digitValue?_eq h]
    by_cases hc : digitOf c < radix
    · rw [if_pos hc, Option.bind_some, ← positional_append, ih (before ++ [c])]
      simp [hc]
    · simp [hc]

/-- At least one digit is read, and they denote the number. -/
theorem magnitude?_eq_some_iff (radix : Nat) (h : radix ≤ 16) {cs : List Char} {n : Nat} :
    magnitude? radix cs = some n ↔
      cs ≠ [] ∧ (∀ d ∈ cs, digitOf d < radix) ∧ n = positional radix cs := by
  cases cs with
  | nil => simp [magnitude?]
  | cons c cs =>
    have from_start : magnitudeFrom radix 0 (c :: cs) = some n ↔
        (∀ d ∈ c :: cs, digitOf d < radix) ∧ n = positional radix (c :: cs) :=
      magnitudeFrom_positional h [] (c :: cs)
    rw [show magnitude? radix (c :: cs) = magnitudeFrom radix 0 (c :: cs) from rfl, from_start]
    simp

/-! ## Integers -/

/-- An integer of C without a sign, and the number that it denotes. -/
inductive IsNumeral : List Char → Nat → Prop where
  | decimal {c : Char} {cs : List Char} (hfirst : c ≠ '0') (h : ∀ d ∈ c :: cs, digitOf d < 10) :
    IsNumeral (c :: cs) (positional 10 (c :: cs))
  | octal {cs : List Char} (h : ∀ d ∈ cs, digitOf d < 8) : IsNumeral ('0' :: cs) (positional 8 cs)
  | hexadecimal {x : Char} {cs : List Char} (hx : x = 'x' ∨ x = 'X') (hcs : cs ≠ [])
    (h : ∀ d ∈ cs, digitOf d < 16) : IsNumeral ('0' :: x :: cs) (positional 16 cs)

/-- An integer with at most one sign, and the number that it denotes. -/
inductive IsSigned : List Char → Int → Prop where
  | unsigned {cs : List Char} {n : Nat} (h : IsNumeral cs n) : IsSigned cs n
  | plus {cs : List Char} {n : Nat} (h : IsNumeral cs n) : IsSigned ('+' :: cs) n
  | minus {cs : List Char} {n : Nat} (h : IsNumeral cs n) : IsSigned ('-' :: cs) (-n)

/-- What is in front of the digits gives the radix. -/
theorem radixOf_cases (cs : List Char) :
    (∃ x digits, (x = 'x' ∨ x = 'X') ∧ cs = '0' :: x :: digits ∧ radixOf cs = (16, digits)) ∨
    (∃ c digits, c ≠ 'x' ∧ c ≠ 'X' ∧ cs = '0' :: c :: digits ∧ radixOf cs = (8, c :: digits)) ∨
    ((∀ c digits, cs ≠ '0' :: c :: digits) ∧ radixOf cs = (10, cs)) := by
  unfold radixOf
  split
  · exact .inl ⟨_, _, .inl rfl, rfl, rfl⟩
  · exact .inl ⟨_, _, .inr rfl, rfl, rfl⟩
  · rename_i not_small not_capital
    exact .inr (.inl ⟨_, _, not_small, not_capital, rfl, rfl⟩)
  · rename_i not_octal
    exact .inr (.inr ⟨not_octal, rfl⟩)

/-- The digits behind what gives the radix denote the number. -/
theorem magnitude?_radixOf {cs : List Char} {n : Nat} :
    magnitude? (radixOf cs).1 (radixOf cs).2 = some n ↔ IsNumeral cs n := by
  rcases radixOf_cases cs with ⟨x, digits, hx, rfl, radix⟩ |
    ⟨c, digits, not_small, not_capital, rfl, radix⟩ | ⟨not_octal, radix⟩
  · rw [radix, magnitude?_eq_some_iff 16 (by decide)]
    constructor
    · rintro ⟨hcs, hdigits, rfl⟩
      exact .hexadecimal hx hcs hdigits
    · intro h
      cases h with
      | hexadecimal hx hcs hdigits => exact ⟨hcs, hdigits, rfl⟩
      | octal hdigits =>
        -- the mark of hexadecimal digits is no digit
        have first := hdigits x (List.mem_cons_self ..)
        rcases hx with rfl | rfl <;> exact absurd first (by decide)
      | decimal hfirst hdigits => exact absurd rfl hfirst
  · rw [radix, magnitude?_eq_some_iff 8 (by decide)]
    constructor
    · rintro ⟨-, hdigits, rfl⟩
      exact .octal hdigits
    · intro h
      cases h with
      | hexadecimal hx hcs hdigits =>
        rcases hx with rfl | rfl
        · exact absurd rfl not_small
        · exact absurd rfl not_capital
      | octal hdigits => exact ⟨nofun, hdigits, rfl⟩
      | decimal hfirst hdigits => exact absurd rfl hfirst
  · rw [radix, magnitude?_eq_some_iff 10 (by decide)]
    constructor
    · rintro ⟨hcs, hdigits, rfl⟩
      obtain ⟨c, cs, rfl⟩ := List.exists_cons_of_ne_nil hcs
      by_cases hzero : c = '0'
      · -- a zero alone has no digit behind it
        subst hzero
        cases cs with
        | nil => exact @IsNumeral.octal [] nofun
        | cons d cs => exact absurd rfl (not_octal d cs)
      · exact .decimal hzero hdigits
    · intro h
      cases h with
      | hexadecimal hx hcs hdigits => exact absurd rfl (not_octal _ _)
      | octal hdigits =>
        rename_i cs
        cases cs with
        | nil => exact ⟨nofun, List.forall_mem_singleton.2 (by decide), rfl⟩
        | cons d cs => exact absurd rfl (not_octal d cs)
      | decimal hfirst hdigits => exact ⟨nofun, hdigits, rfl⟩

/-- No digits start with a sign. -/
theorem IsNumeral.head_ne_sign {c : Char} {cs : List Char} {n : Nat} (h : IsNumeral (c :: cs) n) :
    c ≠ '+' ∧ c ≠ '-' := by
  have not_sign : ∀ d, 10 ≤ digitOf d → IsNumeral (d :: cs) n → d ≠ '0' → False := by
    intro d hd h hzero
    cases h with
    | decimal hfirst hdigits =>
      have small := hdigits d (List.mem_cons_self ..)
      omega
    | octal => exact hzero rfl
    | hexadecimal => exact hzero rfl
  constructor
  · rintro rfl
    exact not_sign '+' (by decide) h (by decide)
  · rintro rfl
    exact not_sign '-' (by decide) h (by decide)

theorem signOf_cases (word : List Char) :
    (∃ cs, word = '-' :: cs ∧ signOf word = (true, cs)) ∨
    (∃ cs, word = '+' :: cs ∧ signOf word = (false, cs)) ∨
    ((∀ cs, word ≠ '-' :: cs ∧ word ≠ '+' :: cs) ∧ signOf word = (false, word)) := by
  unfold signOf
  split
  · exact .inl ⟨_, rfl, rfl⟩
  · exact .inr (.inl ⟨_, rfl, rfl⟩)
  · rename_i not_minus not_plus
    exact .inr (.inr ⟨fun cs => ⟨not_minus cs, not_plus cs⟩, rfl⟩)

/-- **Reading integers.** A word is read as an integer if it is one as C spells it, perhaps with a
sign, and what is read is the number that it denotes. -/
theorem integerValue?_eq_some_iff {word : List Char} {v : Int} :
    integerValue? word = some v ↔ IsSigned word v := by
  have value : integerValue? word = some v ↔ ∃ n, IsNumeral (signOf word).2 n ∧
      (if (signOf word).1 then -(n : Int) else n) = v := by
    unfold integerValue?
    cases signOf word with
    | mk negative unsigned => simp [Option.bind_eq_some_iff, magnitude?_radixOf]
  rw [value]
  rcases signOf_cases word with ⟨cs, rfl, sign⟩ | ⟨cs, rfl, sign⟩ | ⟨no_sign, sign⟩
  · rw [sign]
    constructor
    · rintro ⟨n, hn, rfl⟩
      exact .minus hn
    · intro h
      cases h with
      | unsigned hn => exact absurd rfl hn.head_ne_sign.2
      | minus hn => exact ⟨_, hn, rfl⟩
  · rw [sign]
    constructor
    · rintro ⟨n, hn, rfl⟩
      exact .plus hn
    · intro h
      cases h with
      | unsigned hn => exact absurd rfl hn.head_ne_sign.1
      | plus hn => exact ⟨_, hn, rfl⟩
  · rw [sign]
    constructor
    · rintro ⟨n, hn, rfl⟩
      exact .unsigned hn
    · intro h
      cases h with
      | unsigned hn => exact ⟨_, hn, rfl⟩
      | plus hn => exact absurd rfl (no_sign _).2
      | minus hn => exact absurd rfl (no_sign _).1

theorem Integer.ofWord?_eq_some_iff {word : List Char} {n : Integer} :
    ofWord? word = some n ↔
      n.spelling = String.ofList word ∧ IsSigned word n.value ∧ fitsWord n.value = true := by
  obtain ⟨value, spelling⟩ := n
  simp only [ofWord?, Option.bind_eq_some_iff, integerValue?_eq_some_iff]
  constructor
  · rintro ⟨v, hv, h⟩
    split at h
    · rename_i fits
      cases h
      exact ⟨rfl, hv, fits⟩
    · cases h
  · rintro ⟨rfl, hv, fits⟩
    exact ⟨value, hv, if_pos fits⟩

/-! ## Numbers as they are written -/

/-- A positive number is written without a zero in front. -/
theorem exists_toDigits {n : Nat} (h : 0 < n) : ∃ c cs, Nat.toDigits 10 n = c :: cs ∧ c ≠ '0' := by
  induction n using Nat.base_induction 10 (by decide) with
  | single m hm =>
    refine ⟨m.digitChar, [], Nat.toDigits_of_lt_base hm, ?_⟩
    have nonzero : ∀ k < 10, 0 < k → k.digitChar ≠ '0' := by decide
    exact nonzero m hm h
  | digit m k hk hm ih =>
    obtain ⟨c, cs, hcs, hc⟩ := ih hm
    refine ⟨c, cs ++ Nat.toDigits 10 k, ?_, hc⟩
    rw [← Nat.toDigits_append_toDigits (by decide) hm hk, hcs, List.cons_append]

/-- The digits that a number is written with denote it. -/
theorem digits_toDigits (n : Nat) :
    (∀ d ∈ Nat.toDigits 10 n, digitOf d < 10) ∧ positional 10 (Nat.toDigits 10 n) = n := by
  have digit : ∀ k < 10, digitOf k.digitChar = k := by decide
  induction n using Nat.base_induction 10 (by decide) with
  | single m hm =>
    rw [Nat.toDigits_of_lt_base hm]
    simp [positional, digit m hm, hm]
  | digit m k hk hm ih =>
    rw [← Nat.toDigits_append_toDigits (by decide) hm hk, Nat.toDigits_of_lt_base hk]
    constructor
    · intro d hd
      rcases List.mem_append.1 hd with hd | hd
      · exact ih.1 d hd
      · rw [List.mem_singleton.1 hd, digit k hk]
        exact hk
    · rw [positional_append, ih.2, digit k hk, Nat.mul_comm]

/-- **Numbers as they are written.** C reads a number from the digits that it is written with. -/
theorem isNumeral_toString (n : Nat) : IsNumeral (toString n).toList n := by
  rw [Nat.toString_eq_repr, Nat.toList_repr]
  rcases Nat.eq_zero_or_pos n with rfl | hn
  · exact @IsNumeral.octal [] nofun
  · obtain ⟨c, cs, hcs, hc⟩ := exists_toDigits hn
    have denotes := digits_toDigits n
    rw [hcs] at denotes ⊢
    have decimal : IsNumeral (c :: cs) (positional 10 (c :: cs)) := .decimal hc denotes.1
    rwa [denotes.2] at decimal

/-- The same holds of an integer, with a sign if it is negative. -/
theorem isSigned_toString (v : Int) : IsSigned (toString v).toList v := by
  rw [Int.toString_eq_repr]
  cases v with
  | ofNat n => exact .unsigned (isNumeral_toString n)
  | negSucc n =>
    have digits : (Int.negSucc n).repr.toList = '-' :: (toString (n + 1)).toList :=
      String.toList_append
    rw [digits, Int.negSucc_eq]
    exact .minus (isNumeral_toString (n + 1))

/-- The same word denotes one integer only. -/
theorem IsSigned.unique {word : List Char} {v v' : Int} (h : IsSigned word v)
    (h' : IsSigned word v') : v = v' := by
  rw [← integerValue?_eq_some_iff] at h h'
  exact Option.some.inj (h.symm.trans h')

/-- Different integers are written in different ways. -/
theorem toString_inj {v v' : Int} : toString v = toString v' ↔ v = v' := by
  constructor
  · intro same
    have denotes := isSigned_toString v'
    rw [← same] at denotes
    exact (isSigned_toString v).unique denotes
  · exact congrArg toString

/-! ## Integers of a text -/

namespace Form

mutual

/-- The integers in a form, at any depth. -/
def integers : Form → List Integer
  | integer n => [n]
  | list items => integersOfAll items
  | _ => []

/-- The integers in some forms. -/
def integersOfAll : List Form → List Integer
  | [] => []
  | f :: fs => integers f ++ integersOfAll fs

end

theorem mem_integersOfAll {n : Integer} {fs : List Form} :
    n ∈ integersOfAll fs ↔ ∃ f ∈ fs, n ∈ f.integers := by
  induction fs with
  | nil => simp [integersOfAll]
  | cons f fs ih => simp [integersOfAll, ih]

end Form

namespace Sexp

theorem integers_wordForm (scope : Option String) (word : String) :
    (wordForm scope word).integers = [] := by
  unfold wordForm
  split
  · rfl
  · split <;> rfl

mutual

/-- The integers of an argument are tokens of the element that it is read from. -/
theorem mem_tokens_of_mem_integers {scope : Option String} {n : Integer} :
    ∀ {s : Sexp}, n ∈ (s.toForm scope).integers → (Token.integer n, none) ∈ s.tokens
  | .word text, hn => by
    rw [toForm, integers_wordForm] at hn
    cases hn
  | .string text, hn => by
    rw [toForm] at hn
    cases hn
  | .integer m, hn => by
    rw [toForm, Form.integers, List.mem_singleton] at hn
    rw [tokens, hn]
    exact List.mem_singleton_self _
  | .list items line, hn => by
    rw [toForm, Form.integers] at hn
    obtain ⟨s, hs, hst⟩ := exists_of_mem_integersOfAll hn
    exact mem_tokens_of_mem hs hst

theorem exists_of_mem_integersOfAll {scope : Option String} {n : Integer} :
    ∀ {ss : List Sexp}, n ∈ Form.integersOfAll (toForms scope ss) →
      ∃ s ∈ ss, (Token.integer n, none) ∈ s.tokens
  | [], hn => by
    rw [toForms] at hn
    cases hn
  | s :: ss, hn => by
    rw [toForms, Form.integersOfAll, List.mem_append] at hn
    rcases hn with hn | hn
    · exact ⟨s, List.mem_cons_self .., mem_tokens_of_mem_integers hn⟩
    · obtain ⟨s', hs', hst⟩ := exists_of_mem_integersOfAll hn
      exact ⟨s', List.mem_cons_of_mem _ hs', hst⟩

end

/-- The integers of a directive are tokens of the element that gives it. -/
theorem Gives.mem_tokens {scope : Option String} {s : Sexp} {d : Directive} (h : s.Gives scope d)
    {n : Integer} (hn : n ∈ Form.integersOfAll d.arguments) :
    (Token.integer n, none) ∈ s.tokens := by
  cases h with
  | switch line hcolon hplain => cases hn
  | plain line hcolon hne hreads =>
    rw [readsAll_iff.1 hreads] at hn
    obtain ⟨s, hs, hst⟩ := exists_of_mem_integersOfAll hn
    exact mem_tokens_of_mem (List.mem_cons_of_mem _ hs) hst

end Sexp

theorem GivesInTurn.exists_gives {scope after : Option String} {ss : List Sexp}
    {ds : List Directive} (h : GivesInTurn scope ss ds after) {d : Directive} (hd : d ∈ ds) :
    ∃ s ∈ ss, ∃ scope, s.Gives scope d := by
  induction h with
  | nil => cases hd
  | cons first rest ih =>
    rcases List.mem_cons.1 hd with rfl | hd
    · exact ⟨_, List.mem_cons_self .., _, first⟩
    · obtain ⟨s, hs, gives⟩ := ih hd
      exact ⟨s, List.mem_cons_of_mem _ hs, gives⟩

/-- **Integers of a text.** Every integer in a directive of a text, at any depth, is the number that
its spelling denotes, and fits 64 bits. -/
theorem isSigned_of_directivesOf {text : String} {ds : List Directive}
    (h : directivesOf text = .ok ds) {d : Directive} (hd : d ∈ ds) {n : Integer}
    (hn : n ∈ Form.integersOfAll d.arguments) :
    IsSigned n.spelling.toList n.value ∧ fitsWord n.value = true := by
  obtain ⟨lists, after, hlists, hturn⟩ := directivesOf_eq_ok.1 h
  obtain ⟨x, hx, scope, gives⟩ := hturn.exists_gives hd
  obtain ⟨s, hs, hst⟩ := Sexp.exists_of_mem_splicedAll hx (gives.mem_tokens hn)
  obtain ⟨l, hl, htoken⟩ := Sexp.exists_lexeme_of_mem_tokens hlists hs hst
  obtain ⟨word, -, hword⟩ := exists_word_of_mem_lexemes hl htoken ⟨nofun, nofun, nofun⟩
  rcases Token.ofWord_eq_ok hword with other | ⟨m, hm, same⟩
  · cases other
  · cases same
    obtain ⟨spelling, value, fits⟩ := Integer.ofWord?_eq_some_iff.1 hm
    rw [spelling, String.toList_ofList]
    exact ⟨value, fits⟩

end ForeignBindings.Spec
