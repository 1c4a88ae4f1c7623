import ForeignBindings.Text.Blank

/-!
# Words of a text

A text is cut into words at its white space, such as the flags that a program prints.

* `Text.blanks` are the characters that are white space.
* `Text.HasWords` says which words a text consists of: none is empty or has a blank in it, and no
  two of them touch.
* `Text.hasWords_iff` says that a text is cut into these words, and into no others.
-/

namespace ForeignBindings.Text

/-! ## Blanks -/

/-- The characters that are white space in Unicode. -/
def blanks : List Char :=
  ['\t', '\n', '\x0b', '\x0c', '\r', ' ', '\u0085', '\u00a0', '\u1680', '\u2000', '\u2001',
    '\u2002', '\u2003', '\u2004', '\u2005', '\u2006', '\u2007', '\u2008', '\u2009', '\u200a',
    '\u2028', '\u2029', '\u202f', '\u205f', '\u3000']

/-- A character between two others is one of those counted in between. -/
theorem exists_offset {first last c : Char} (hfirst : first ≤ c) (hlast : c ≤ last) :
    ∃ k, k ≤ last.toNat - first.toNat ∧ c = Char.ofNat (first.toNat + k) := by
  have low : first.toNat ≤ c.toNat := hfirst
  have high : c.toNat ≤ last.toNat := hlast
  refine ⟨c.toNat - first.toNat, by omega, ?_⟩
  rw [Nat.add_sub_cancel' low, Char.ofNat_toNat]

theorem mem_blanks_iff {c : Char} : c ∈ blanks ↔ isBlank c = true := by
  constructor
  · intro h
    have all_blank : blanks.all isBlank = true := by decide
    exact List.all_eq_true.1 all_blank c h
  · intro h
    simp only [isBlank, Bool.or_eq_true, Bool.and_eq_true, beq_iff_eq, decide_eq_true_eq] at h
    -- two ranges of them are not listed one by one
    rcases h with (((((((((⟨low, high⟩ | rfl) | rfl) | rfl) | rfl) | ⟨low, high⟩) | rfl) |
      rfl) | rfl) | rfl) | rfl
    any_goals decide
    · obtain ⟨k, hk, rfl⟩ := exists_offset low high
      have controls : ∀ k ≤ 4, Char.ofNat ('\t'.toNat + k) ∈ blanks := by decide
      exact controls k hk
    · obtain ⟨k, hk, rfl⟩ := exists_offset low high
      have spaces : ∀ k ≤ 10, Char.ofNat ('\u2000'.toNat + k) ∈ blanks := by decide
      exact spaces k hk

/-! ## Words -/

/-- The words that a text consists of. Each stands behind a gap, which may be empty for the first
one, and ends at a blank or at the end of the text. -/
inductive HasWords : List Char → List (List Char) → Prop
  | nil {gap : List Char} (hgap : ∀ c ∈ gap, c ∈ blanks) : HasWords gap []
  | cons {gap word rest : List Char} {words : List (List Char)} (hgap : ∀ c ∈ gap, c ∈ blanks)
    (hne : word ≠ []) (hword : ∀ c ∈ word, c ∉ blanks)
    (hrest : ∀ c ∈ rest.head?, c ∈ blanks) (others : HasWords rest words) :
    HasWords (gap ++ word ++ rest) (word :: words)

theorem wordsOf_of_blank {c : Char} (h : c ∈ blanks) (cs : List Char) :
    wordsOf (c :: cs) = wordsOf cs := by
  rw [wordsOf.eq_def]
  dsimp only
  rw [if_pos (mem_blanks_iff.1 h)]

theorem wordsOf_gap_append {gap : List Char} (h : ∀ c ∈ gap, c ∈ blanks) (cs : List Char) :
    wordsOf (gap ++ cs) = wordsOf cs := by
  induction gap with
  | nil => rfl
  | cons c gap ih =>
    rw [List.cons_append, wordsOf_of_blank (h c (List.mem_cons_self ..))]
    exact ih fun d hd => h d (List.mem_cons_of_mem _ hd)

/-- A character in front of a blank, or at the end, is a word of its own. -/
theorem wordsOf_of_apart {c : Char} (h : c ∉ blanks) {cs : List Char}
    (hcs : ∀ d ∈ cs.head?, d ∈ blanks) : wordsOf (c :: cs) = [c] :: wordsOf cs := by
  have no_blank := mt mem_blanks_iff.2 h
  rw [wordsOf.eq_def]
  dsimp only
  rw [if_neg no_blank]
  cases cs with
  | nil => rfl
  | cons d cs =>
    dsimp only
    rw [if_pos (mem_blanks_iff.1 (hcs d rfl))]

/-- A character in front of one that is no blank goes into the same word. -/
theorem wordsOf_of_touching {c d : Char} (h : c ∉ blanks) (hd : d ∉ blanks) {cs : List Char}
    {word : List Char} {words : List (List Char)} (hwords : wordsOf (d :: cs) = word :: words) :
    wordsOf (c :: d :: cs) = (c :: word) :: words := by
  have no_blank := mt mem_blanks_iff.2 h
  have no_blank' := mt mem_blanks_iff.2 hd
  rw [wordsOf.eq_def]
  dsimp only
  rw [if_neg no_blank, if_neg no_blank', hwords]

/-- A word is cut off where it ends. -/
theorem wordsOf_word_append {word rest : List Char} (hne : word ≠ [])
    (hword : ∀ c ∈ word, c ∉ blanks) (hrest : ∀ c ∈ rest.head?, c ∈ blanks) :
    wordsOf (word ++ rest) = word :: wordsOf rest := by
  induction word with
  | nil => exact absurd rfl hne
  | cons c word ih =>
    have first := hword c (List.mem_cons_self ..)
    cases word with
    | nil => exact wordsOf_of_apart first hrest
    | cons d word =>
      have others : ∀ e ∈ d :: word, e ∉ blanks := fun e he => hword e (List.mem_cons_of_mem _ he)
      exact wordsOf_of_touching first (others d (List.mem_cons_self ..))
        (ih (List.cons_ne_nil _ _) others)

theorem HasWords.eq_wordsOf {cs : List Char} {words : List (List Char)} (h : HasWords cs words) :
    words = wordsOf cs := by
  induction h with
  | @nil gap hgap =>
    rw [← List.append_nil gap, wordsOf_gap_append hgap]
    rfl
  | cons hgap hne hword hrest others ih =>
    rw [List.append_assoc, wordsOf_gap_append hgap, wordsOf_word_append hne hword hrest, ← ih]

/-- A blank in front makes the first gap longer. -/
theorem HasWords.of_blank {c : Char} (hc : c ∈ blanks) {cs : List Char} {words : List (List Char)}
    (h : HasWords cs words) : HasWords (c :: cs) words := by
  cases h with
  | nil hgap => exact .nil (List.forall_mem_cons.2 ⟨hc, hgap⟩)
  | @cons gap word rest words hgap hne hword hrest others =>
    exact @cons (c :: gap) word rest words (List.forall_mem_cons.2 ⟨hc, hgap⟩) hne hword hrest
      others

/-- A text that starts with no blank starts with a word. -/
theorem HasWords.exists_first {d : Char} (hd : d ∉ blanks) {cs : List Char}
    {words : List (List Char)} (h : HasWords (d :: cs) words) :
    ∃ word others rest, words = (d :: word) :: others ∧ cs = word ++ rest ∧
      (∀ c ∈ d :: word, c ∉ blanks) ∧ (∀ c ∈ rest.head?, c ∈ blanks) ∧ HasWords rest others := by
  generalize hall : d :: cs = all at h
  cases h with
  | nil hgap =>
    rw [← hall] at hgap
    exact absurd (hgap d (List.mem_cons_self ..)) hd
  | @cons gap word rest words hgap hne hword hrest others =>
    cases gap with
    | cons c gap =>
      cases hall
      exact absurd (hgap d (List.mem_cons_self ..)) hd
    | nil =>
      obtain ⟨c, word, rfl⟩ := List.exists_cons_of_ne_nil hne
      cases hall
      exact ⟨word, words, rest, rfl, rfl, hword, hrest, others⟩

theorem hasWords_wordsOf (cs : List Char) : HasWords cs (wordsOf cs) := by
  induction cs with
  | nil => exact .nil (fun c hc => nomatch hc)
  | cons c cs ih =>
    by_cases blank : c ∈ blanks
    · rw [wordsOf_of_blank blank]
      exact ih.of_blank blank
    · by_cases apart : ∀ d ∈ cs.head?, d ∈ blanks
      · rw [wordsOf_of_apart blank apart]
        exact @HasWords.cons [] [c] cs _ (fun d hd => nomatch hd) (List.cons_ne_nil _ _)
          (List.forall_mem_singleton.2 blank) apart ih
      · -- the next character has begun a word, which this one goes into
        obtain ⟨d, cs, rfl⟩ : ∃ d ds, cs = d :: ds := by
          cases cs with
          | nil => exact absurd (fun d hd => nomatch hd) apart
          | cons d ds => exact ⟨d, ds, rfl⟩
        have touching : d ∉ blanks := fun hd => apart fun e he => by cases he; exact hd
        obtain ⟨word, words, rest, found, rfl, hword, hrest, others⟩ := ih.exists_first touching
        rw [wordsOf_of_touching blank touching found]
        exact @HasWords.cons [] (c :: d :: word) rest _ (fun e he => nomatch he)
          (List.cons_ne_nil _ _) (List.forall_mem_cons.2 ⟨blank, hword⟩) hrest others

/-- A text consists of the words that it is cut into, and of no others. -/
theorem hasWords_iff {cs : List Char} {words : List (List Char)} :
    HasWords cs words ↔ words = wordsOf cs := by
  constructor
  · exact HasWords.eq_wordsOf
  · rintro rfl
    exact hasWords_wordsOf cs

end ForeignBindings.Text
