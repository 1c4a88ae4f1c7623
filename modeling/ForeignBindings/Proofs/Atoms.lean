import ForeignBindings.Proofs.Numerals

/-!
# Atoms

A run of word characters that is as long as it can be is one of three things: an integer, something
that was meant for an integer, or a plain word. Which of them it is depends on the run alone.

* `InRange` says which integers are taken, and `NumberLike` which runs are meant for integers.
* `AtomIs` says what a run is, and `atomIs_ofWord` that it is read in this way.
* `lexemesFrom_word` says this of a run wherever it stands in a text.
-/

namespace ForeignBindings.Spec

/-! ## Integers that are taken -/

/-- The value is that of a signed or of an unsigned integer of 64 bits. -/
def InRange (v : Int) : Prop :=
  -9223372036854775808 ≤ v ∧ v ≤ 18446744073709551615

instance (v : Int) : Decidable (InRange v) :=
  inferInstanceAs (Decidable (_ ∧ _))

theorem fitsWord_iff {v : Int} : fitsWord v = true ↔ InRange v := by
  -- as numbers, so that the comparisons are linear ones
  have bounds : (Word.half : Int) = 9223372036854775808 ∧
      (Word.count : Int) = 18446744073709551616 := ⟨rfl, rfl⟩
  simp only [fitsWord, InRange, Bool.and_eq_true, decide_eq_true_eq]
  omega

/-- The word denotes an integer of 64 bits. -/
def IsInteger (word : List Char) : Prop :=
  ∃ v, IsSigned word v ∧ InRange v

theorem Integer.ofWord?_eq_none_iff {word : List Char} :
    ofWord? word = none ↔ ¬ IsInteger word := by
  rw [Option.eq_none_iff_forall_ne_some]
  constructor
  · rintro h ⟨v, hv, range⟩
    exact h ⟨v, String.ofList word⟩ (ofWord?_eq_some_iff.2 ⟨rfl, hv, fitsWord_iff.2 range⟩)
  · intro h n hn
    obtain ⟨-, hv, fits⟩ := ofWord?_eq_some_iff.1 hn
    exact h ⟨n.value, hv, fitsWord_iff.1 fits⟩

/-! ## Words that look like numbers -/

/-- Behind all the signs at its start, the word goes on with a decimal digit. -/
def NumberLike (word : List Char) : Prop :=
  ∃ signs d rest, word = signs ++ d :: rest ∧ (∀ c ∈ signs, c = '+' ∨ c = '-') ∧ d.isDigit = true

theorem startsLikeNumber_iff {word : List Char} :
    startsLikeNumber word = true ↔ NumberLike word := by
  unfold startsLikeNumber
  constructor
  · intro h
    split at h
    · cases h
    · rename_i d rest hdrop
      -- the signs are all that was passed over to reach the digit
      refine ⟨word.takeWhile fun c => c == '-' || c == '+', d, rest, ?_, ?_, h⟩
      · rw [← hdrop, List.takeWhile_append_dropWhile]
      · intro c hc
        have sign := List.all_eq_true.1 List.all_takeWhile c hc
        simpa [or_comm] using sign
  · rintro ⟨signs, d, rest, rfl, hsigns, hd⟩
    -- what is dropped are the signs, since a digit is none
    have all_signs : ∀ c ∈ signs, (c == '-' || c == '+') = true := by
      intro c hc
      simpa [or_comm] using hsigns c hc
    have no_sign : (d == '-' || d == '+') = false := by
      rw [Bool.or_eq_false_iff, beq_eq_false_iff_ne, beq_eq_false_iff_ne]
      constructor
      · rintro rfl
        cases hd
      · rintro rfl
        cases hd
    rw [List.dropWhile_append_of_pos all_signs, List.dropWhile_cons, no_sign]
    exact hd

/-- Only a digit has the value of one. -/
theorem mem_digits_of_digitOf_lt {c : Char} (h : digitOf c < 16) :
    c ∈ smallDigits ++ capitalDigits := by
  by_contra no_digit
  rw [List.mem_append, not_or] at no_digit
  -- then its place in both lists is behind the last digit
  rw [digitOf, List.idxOf_eq_length no_digit.1, List.idxOf_eq_length no_digit.2] at h
  exact absurd h (by decide)

theorem isDigit_of_digitOf_lt {c : Char} (h : digitOf c < 10) : c.isDigit = true := by
  have decimal : (smallDigits ++ capitalDigits).all
      (fun d => decide (digitOf d < 10 → d.isDigit = true)) = true := by decide
  have digit := mem_digits_of_digitOf_lt (Nat.lt_trans h (by decide))
  exact of_decide_eq_true (List.all_eq_true.1 decimal c digit) h

theorem IsNumeral.starts {cs : List Char} {n : Nat} (h : IsNumeral cs n) :
    ∃ d rest, cs = d :: rest ∧ d.isDigit = true := by
  cases h with
  | decimal hfirst hdigits =>
    exact ⟨_, _, rfl, isDigit_of_digitOf_lt (hdigits _ (List.mem_cons_self ..))⟩
  | octal hdigits => exact ⟨_, _, rfl, rfl⟩
  | hexadecimal hx hcs hdigits => exact ⟨_, _, rfl, rfl⟩

/-- An integer looks like one. -/
theorem IsSigned.numberLike {word : List Char} {v : Int} (h : IsSigned word v) :
    NumberLike word := by
  cases h with
  | unsigned h =>
    obtain ⟨d, rest, rfl, hd⟩ := h.starts
    exact ⟨[], d, rest, rfl, nofun, hd⟩
  | plus h =>
    obtain ⟨d, rest, rfl, hd⟩ := h.starts
    exact ⟨['+'], d, rest, rfl, List.forall_mem_singleton.2 (.inl rfl), hd⟩
  | minus h =>
    obtain ⟨d, rest, rfl, hd⟩ := h.starts
    exact ⟨['-'], d, rest, rfl, List.forall_mem_singleton.2 (.inr rfl), hd⟩

/-! ## What a word is -/

/-- What a run of word characters is: an integer of 64 bits, or else a fault if it looks like a
number, or else a word. -/
inductive AtomIs (word : List Char) : Except LexicalFault Token → Prop where
  | integer {v : Int} (h : IsSigned word v) (hrange : InRange v) :
    AtomIs word (.ok (.integer ⟨v, String.ofList word⟩))
  | malformed (h : ¬ IsInteger word) (hlike : NumberLike word) :
    AtomIs word (.error (.malformedInteger (String.ofList word)))
  | word (hlike : ¬ NumberLike word) : AtomIs word (.ok (.word (String.ofList word)))

theorem atomIs_ofWord (word : List Char) : AtomIs word (Token.ofWord word) := by
  unfold Token.ofWord
  split
  · rename_i n hn
    obtain ⟨value, spelling⟩ := n
    obtain ⟨rfl, hv, fits⟩ := Integer.ofWord?_eq_some_iff.1 hn
    exact .integer hv (fitsWord_iff.1 fits)
  · rename_i none_read
    split
    · rename_i like
      exact .malformed (Integer.ofWord?_eq_none_iff.1 none_read) (startsLikeNumber_iff.1 like)
    · rename_i unlike
      exact .word fun like => unlike (startsLikeNumber_iff.2 like)

namespace AtomIs

variable {word : List Char} {token : Except LexicalFault Token}

theorem integer_iff (h : AtomIs word token) (n : Integer) :
    token = .ok (.integer n) ↔
      IsSigned word n.value ∧ InRange n.value ∧ n.spelling = String.ofList word := by
  obtain ⟨value, spelling⟩ := n
  cases h with
  | integer hv range =>
    rename_i v
    constructor
    · rintro ⟨⟩
      exact ⟨hv, range, rfl⟩
    · rintro ⟨hvalue, -, rfl⟩
      -- a word denotes one integer only
      obtain rfl : v = value := hv.unique hvalue
      rfl
  | malformed no_integer like =>
    refine ⟨nofun, ?_⟩
    -- no spelling is given here, since any integer in range is enough
    rintro ⟨hvalue, range, -⟩
    exact absurd ⟨value, hvalue, range⟩ no_integer
  | word unlike =>
    refine ⟨nofun, ?_⟩
    rintro ⟨hvalue, -, -⟩
    exact absurd hvalue.numberLike unlike

theorem error_iff (h : AtomIs word token) (fault : LexicalFault) :
    token = .error fault ↔
      ¬ IsInteger word ∧ NumberLike word ∧ fault = .malformedInteger (String.ofList word) := by
  cases h with
  | integer hv range =>
    refine ⟨nofun, ?_⟩
    rintro ⟨no_integer, -, -⟩
    exact absurd ⟨_, hv, range⟩ no_integer
  | malformed no_integer like =>
    constructor
    · rintro ⟨⟩
      exact ⟨no_integer, like, rfl⟩
    · rintro ⟨-, -, rfl⟩
      rfl
  | word unlike =>
    refine ⟨nofun, ?_⟩
    rintro ⟨-, like, -⟩
    exact absurd like unlike

theorem word_iff (h : AtomIs word token) :
    token = .ok (.word (String.ofList word)) ↔ ¬ IsInteger word ∧ ¬ NumberLike word := by
  cases h with
  | integer hv range =>
    refine ⟨nofun, ?_⟩
    rintro ⟨no_integer, -⟩
    exact absurd ⟨_, hv, range⟩ no_integer
  | malformed no_integer like =>
    refine ⟨nofun, ?_⟩
    rintro ⟨-, unlike⟩
    exact absurd like unlike
  | word unlike =>
    refine ⟨fun _ => ⟨?_, unlike⟩, fun _ => rfl⟩
    rintro ⟨v, hv, -⟩
    exact unlike hv.numberLike

end AtomIs

/-! ## Words in a text -/

/-- A run of word characters is one lexeme if nothing goes on with it. -/
theorem lexemeBefore_run {word rest : List Char} (hne : word ≠ [])
    (hword : ∀ c ∈ word, IsWordCharacter c)
    (hrest : ∀ d more, rest = d :: more → ¬ IsWordCharacter d) :
    LexemeBefore rest word (Token.ofWord word) := by
  obtain ⟨c, cs, rfl⟩ := List.exists_cons_of_ne_nil hne
  exact .word hword hrest

theorem lexemesFrom_run {trivia word rest : List Char} (htrivia : IsTrivia trivia)
    (hne : word ≠ []) (hword : ∀ c ∈ word, IsWordCharacter c)
    (hrest : ∀ d more, rest = d :: more → ¬ IsWordCharacter d) (line : Nat) :
    lexemesFrom line (trivia ++ word ++ rest) =
      ⟨line + newlines trivia, word, Token.ofWord word⟩ ::
        lexemesFrom (line + newlines trivia) rest := by
  have piece : nextPiece (trivia ++ word ++ rest) =
      some (⟨trivia, word, Token.ofWord word⟩, rest) :=
    nextPiece_eq_some.2 ⟨rfl, htrivia, lexemeBefore_run hne hword hrest⟩
  -- a newline is blank, so there is none in a word
  have one_line : newlines word = 0 :=
    List.count_eq_zero.2 fun newline => absurd (hword _ newline).1 (by decide)
  rw [lexemesFrom_of_some piece, one_line, Nat.add_zero]

/-- **Words and integers.** Wherever a run of word characters stands in a text, reading gives one
lexeme for it. That is an integer exactly if the run is one as C spells it, perhaps with a sign, and
its value fits 64 bits; the integer has this value and the run as its spelling. Otherwise it is a
fault exactly if a digit comes behind all signs, and a word in all other cases. -/
theorem lexemesFrom_word {trivia word rest : List Char} (htrivia : IsTrivia trivia)
    (hne : word ≠ []) (hword : ∀ c ∈ word, IsWordCharacter c)
    (hrest : ∀ d more, rest = d :: more → ¬ IsWordCharacter d) (line : Nat) :
    ∃ token,
      lexemesFrom line (trivia ++ word ++ rest) =
        ⟨line + newlines trivia, word, token⟩ :: lexemesFrom (line + newlines trivia) rest ∧
      (∀ n, token = .ok (.integer n) ↔
        IsSigned word n.value ∧ InRange n.value ∧ n.spelling = String.ofList word) ∧
      (∀ fault, token = .error fault ↔
        ¬ IsInteger word ∧ NumberLike word ∧ fault = .malformedInteger (String.ofList word)) ∧
      (token = .ok (.word (String.ofList word)) ↔ ¬ IsInteger word ∧ ¬ NumberLike word) := by
  have atom := atomIs_ofWord word
  exact ⟨Token.ofWord word, lexemesFrom_run htrivia hne hword hrest line, atom.integer_iff,
    atom.error_iff, atom.word_iff⟩

/-- Between a comment and a parenthesis, the least integer of all is read, and the next one below is
at fault. -/
theorem lexemesFrom_least :
    lexemesFrom 1 "; c\n-0x8000000000000000)".toList =
      ⟨2, "-0x8000000000000000".toList,
        .ok (.integer ⟨-9223372036854775808, "-0x8000000000000000"⟩)⟩ :: lexemesFrom 2 [')'] ∧
    lexemesFrom 1 "; c\n-0x8000000000000001)".toList =
      ⟨2, "-0x8000000000000001".toList,
        .error (.malformedInteger "-0x8000000000000001")⟩ :: lexemesFrom 2 [')'] := by
  have no_newline : '\n' ∉ [' ', 'c'] := by decide
  have comment : IsTrivia "; c\n".toList := .comment no_newline .nil
  have ends : ∀ d more, [')'] = d :: more → ¬ IsWordCharacter d := by
    rintro _ _ ⟨⟩ ⟨-, -, no_parenthesis, -⟩
    exact no_parenthesis rfl
  have are_words : ∀ c, c ∈ "-0x8000000000000000".toList ∨ c ∈ "-0x8000000000000001".toList →
      IsWordCharacter c := by
    intro c hc
    refine (isWordPart_iff c).1 (hc.elim ?_ ?_)
    · exact fun hc => List.all_eq_true.1 (by decide) c hc
    · exact fun hc => List.all_eq_true.1 (by decide) c hc
  constructor
  · obtain ⟨token, read, is_integer, -⟩ := lexemesFrom_word comment (by decide)
      (fun c hc => are_words c (.inl hc)) ends 1
    have least : token = .ok (.integer ⟨-9223372036854775808, "-0x8000000000000000"⟩) :=
      (is_integer _).2 ⟨integerValue?_eq_some_iff.1 rfl, by decide, rfl⟩
    rw [← least]
    exact read
  · obtain ⟨token, read, -, is_fault, -⟩ := lexemesFrom_word comment (by decide)
      (fun c hc => are_words c (.inr hc)) ends 1
    have too_small : token = .error (.malformedInteger "-0x8000000000000001") :=
      (is_fault _).2 ⟨Integer.ofWord?_eq_none_iff.1 rfl, startsLikeNumber_iff.1 rfl, rfl⟩
    rw [← too_small]
    exact read

end ForeignBindings.Spec
