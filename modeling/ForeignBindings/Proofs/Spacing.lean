import ForeignBindings.Proofs.Atoms

/-!
# Spacing of tokens

Tokens can be written out in many ways: with blanks and comments between them or with nothing at
all, and with some of the characters of a string escaped. Only two atoms must be kept apart, since
they would be read as one.

* `Token.IsWritable` says which tokens there are to write, and `Token.Spells` how one is written.
* `Spaced` says how some tokens are written in order, with trivia around them.
* `lexemes_spaced` says that all of these texts are read as the same tokens.
-/

namespace ForeignBindings.Spec

/-! ## Strings -/

/-- How a character may be written between quotes. A quote and a backslash need a backslash in front
of them; a newline and a tab may be written as a letter with one. -/
inductive SpellsCharacter : Char → List Char → Prop
  | raw {c : Char} (hquote : c ≠ '"') (hbackslash : c ≠ '\\') : SpellsCharacter c [c]
  | quote : SpellsCharacter '"' ['\\', '"']
  | backslash : SpellsCharacter '\\' ['\\', '\\']
  | newline : SpellsCharacter '\n' ['\\', 'n']
  | tab : SpellsCharacter '\t' ['\\', 't']

/-- How a text may be written between quotes. -/
inductive SpellsText : List Char → List Char → Prop
  | nil : SpellsText [] []
  | cons {c : Char} {cs text written : List Char} (first : SpellsCharacter c cs)
    (rest : SpellsText text written) : SpellsText (c :: text) (cs ++ written)

/-- What is written for a text denotes it. -/
theorem SpellsText.inString {text written : List Char} (h : SpellsText text written) :
    InString written text := by
  induction h with
  | nil => exact .nil
  | cons first rest ih =>
    cases first with
    | raw hquote hbackslash => exact .plain hquote hbackslash ih
    -- what a pair of a backslash and a character denotes is found by the character
    | quote => exact .pair ih
    | backslash => exact .pair ih
    | newline => exact .pair ih
    | tab => exact .pair ih

theorem exists_spellsCharacter (c : Char) : ∃ cs, SpellsCharacter c cs := by
  by_cases hquote : c = '"'
  · subst hquote
    exact ⟨_, .quote⟩
  -- only these two cannot stand for themselves
  · by_cases hbackslash : c = '\\'
    · subst hbackslash
      exact ⟨_, .backslash⟩
    · exact ⟨_, .raw hquote hbackslash⟩

/-- Every text can be written between quotes. -/
theorem exists_spellsText (text : List Char) : ∃ written, SpellsText text written := by
  induction text with
  | nil => exact ⟨_, .nil⟩
  | cons c text ih =>
    obtain ⟨cs, first⟩ := exists_spellsCharacter c
    obtain ⟨written, rest⟩ := ih
    exact ⟨_, .cons first rest⟩

/-! ## Tokens -/

namespace Token

/-- A token that can be written: an integer is the value of its spelling and fits 64 bits, and a
word is a run of word characters that does not look like a number. -/
def IsWritable : Token → Prop
  | .open | .close | .string _ => True
  | .integer n => IsSigned n.spelling.toList n.value ∧ InRange n.value
  | .word text => text ≠ "" ∧ IsWordText text ∧ ¬ NumberLike text.toList

/-- How a token is written. -/
inductive Spells : Token → List Char → Prop
  | «open» : Spells .open ['(']
  | close : Spells .close [')']
  | string {text : String} {written : List Char} (h : SpellsText text.toList written) :
    Spells (.string text) ('"' :: (written ++ ['"']))
  | integer (n : Integer) : Spells (.integer n) n.spelling.toList
  | word (text : String) : Spells (.word text) text.toList

/-- The token is written as a run of word characters. -/
def IsAtom : Token → Prop
  | .integer _ | .word _ => True
  | _ => False

theorem exists_spells (t : Token) : ∃ spelling, t.Spells spelling := by
  cases t with
  | «open» => exact ⟨_, .open⟩
  | close => exact ⟨_, .close⟩
  | string text =>
    obtain ⟨written, h⟩ := exists_spellsText text.toList
    exact ⟨_, .string h⟩
  | integer n => exact ⟨_, .integer n⟩
  | word text => exact ⟨_, .word text⟩

end Token

instance (c : Char) : Decidable (IsWordCharacter c) :=
  decidable_of_iff _ (isWordPart_iff c)

/-- A digit is a character of words. -/
theorem isWordCharacter_of_digitOf_lt {c : Char} (h : digitOf c < 16) : IsWordCharacter c := by
  have digits : (smallDigits ++ capitalDigits).all isWordPart = true := by decide
  exact (isWordPart_iff c).1 (List.all_eq_true.1 digits c (mem_digits_of_digitOf_lt h))

/-- An integer is written with characters of words. -/
theorem IsNumeral.isWordCharacter {cs : List Char} {n : Nat} (h : IsNumeral cs n) :
    ∀ c ∈ cs, IsWordCharacter c := by
  have zero : IsWordCharacter '0' := by decide
  intro c hc
  -- the digits of each base are hexadecimal ones too
  cases h with
  | decimal hfirst hdigits =>
    have digit := hdigits c hc
    exact isWordCharacter_of_digitOf_lt (by omega)
  | octal hdigits =>
    rcases List.mem_cons.1 hc with rfl | hc
    · exact zero
    · have digit := hdigits c hc
      exact isWordCharacter_of_digitOf_lt (by omega)
  | hexadecimal hx hcs hdigits =>
    rcases List.mem_cons.1 hc with rfl | hc
    · exact zero
    · rcases List.mem_cons.1 hc with rfl | hc
      · rcases hx with rfl | rfl <;> decide
      · exact isWordCharacter_of_digitOf_lt (hdigits c hc)

theorem IsSigned.isWordCharacter {word : List Char} {v : Int} (h : IsSigned word v) :
    ∀ c ∈ word, IsWordCharacter c := by
  cases h with
  | unsigned h => exact h.isWordCharacter
  | plus h => exact List.forall_mem_cons.2 ⟨by decide, h.isWordCharacter⟩
  | minus h => exact List.forall_mem_cons.2 ⟨by decide, h.isWordCharacter⟩

theorem NumberLike.ne_nil {word : List Char} (h : NumberLike word) : word ≠ [] := by
  obtain ⟨signs, d, rest, rfl, -⟩ := h
  simp

/-- A token that is written is one lexeme, if nothing goes on with an atom. -/
theorem Token.Spells.lexemeBefore {t : Token} {spelling rest : List Char} (h : t.Spells spelling)
    (writable : t.IsWritable)
    (hrest : t.IsAtom → ∀ d more, rest = d :: more → ¬ IsWordCharacter d) :
    LexemeBefore rest spelling (.ok t) := by
  cases h with
  | «open» => exact .open
  | close => exact .close
  | @string text written h =>
    have lexeme : LexemeBefore rest ('"' :: (written ++ ['"'])) _ := .string h.inString
    rwa [String.ofList_toList] at lexeme
  | integer n =>
    obtain ⟨value, range⟩ := writable
    have read : Token.ofWord n.spelling.toList = .ok (.integer n) :=
      ((atomIs_ofWord _).integer_iff n).2 ⟨value, range, by rw [String.ofList_toList]⟩
    rw [← read]
    exact lexemeBefore_run value.numberLike.ne_nil value.isWordCharacter (hrest trivial)
  | word text =>
    obtain ⟨hne, hword, unlike⟩ := writable
    -- an integer would look like a number, so that is enough for a word
    have no_integer : ¬ IsInteger text.toList := by
      rintro ⟨v, hv, -⟩
      exact unlike hv.numberLike
    have read : Token.ofWord text.toList = .ok (.word text) := by
      simpa using (atomIs_ofWord text.toList).word_iff.2 ⟨no_integer, unlike⟩
    rw [← read]
    exact lexemeBefore_run (by simpa using hne) hword (hrest trivial)

/-! ## Spaced tokens -/

/-- Some tokens written in order, behind another one if there is one. Trivia stands around them,
which may be nothing at all, except between two atoms. -/
inductive SpacedBehind : Option Token → List Token → List Char → Prop
  | done {before : Option Token} {rest : List Char} (h : IsLastTrivia rest) :
    SpacedBehind before [] rest
  | token {before : Option Token} {t : Token} {ts : List Token} {gap spelling rest : List Char}
    (hgap : IsTrivia gap) (hapart : (∃ b ∈ before, b.IsAtom) → t.IsAtom → gap ≠ [])
    (hspells : t.Spells spelling) (hrest : SpacedBehind (some t) ts rest) :
    SpacedBehind before (t :: ts) (gap ++ spelling ++ rest)

/-- The text is a way to write the tokens. -/
def Spaced (ts : List Token) (text : String) : Prop :=
  SpacedBehind none ts text.toList

/-- No trivia starts with a character of words. -/
theorem IsTrivia.not_isWordCharacter {d : Char} {cs : List Char} (h : IsTrivia (d :: cs)) :
    ¬ IsWordCharacter d := by
  rintro ⟨no_blank, -, -, -, no_comment⟩
  cases h with
  | blank hblank =>
    rw [no_blank] at hblank
    cases hblank
  | comment => exact no_comment rfl

theorem IsLastTrivia.not_isWordCharacter {d : Char} {cs : List Char} (h : IsLastTrivia (d :: cs)) :
    ¬ IsWordCharacter d := by
  obtain ⟨front, last, split, hfront, hlast⟩ := h
  -- it starts with trivia or, if there is none, with the comment that the text ends in
  rcases List.append_eq_cons_iff.1 split.symm with ⟨rfl, rfl⟩ | ⟨front, rfl, -⟩
  · rcases hlast with none_left | ⟨body, comment, -⟩
    · cases none_left
    · cases comment
      exact fun word => word.2.2.2.2 rfl
  · exact hfront.not_isWordCharacter

namespace SpacedBehind

variable {before : Option Token} {ts : List Token} {cs : List Char}

/-- Nothing goes on with an atom. -/
theorem not_isWordCharacter {t : Token} (h : SpacedBehind (some t) ts cs) (ht : t.IsAtom) :
    ∀ d more, cs = d :: more → ¬ IsWordCharacter d := by
  rintro d more rfl
  generalize hbefore : some t = before at h
  generalize hcs : d :: more = cs at h
  cases h with
  | done h =>
    subst hcs
    exact h.not_isWordCharacter
  | @token _ t' _ gap spelling rest hgap hapart hspells hrest =>
    subst hbefore
    cases gap with
    | cons c gap =>
      cases hcs
      exact hgap.not_isWordCharacter
    | nil =>
      -- then what follows is no atom, and starts with a character of its own
      have no_atom : ¬ t'.IsAtom := fun atom => hapart ⟨t, rfl, ht⟩ atom rfl
      cases hspells with
      | «open» =>
        cases hcs
        decide
      | close =>
        cases hcs
        decide
      | string =>
        cases hcs
        decide
      | integer => exact absurd trivial no_atom
      | word => exact absurd trivial no_atom

/-- The tokens are read back, whatever stands around them. -/
theorem token_lexemesFrom (h : SpacedBehind before ts cs) (writable : ∀ t ∈ ts, t.IsWritable)
    (line : Nat) : (lexemesFrom line cs).map Lexeme.token = ts.map .ok := by
  -- each token only depends on what comes next, and the line is all that is carried along
  induction h generalizing line with
  | done h => rw [lexemesFrom_of_none (nextPiece_eq_none.2 h), List.map_nil, List.map_nil]
  | @token before t ts gap spelling rest hgap hapart hspells hrest ih =>
    rw [List.forall_mem_cons] at writable
    have lexeme := hspells.lexemeBefore writable.1 hrest.not_isWordCharacter
    have piece : nextPiece (gap ++ spelling ++ rest) = some (⟨gap, spelling, .ok t⟩, rest) :=
      nextPiece_eq_some.2 ⟨rfl, hgap, lexeme⟩
    rw [lexemesFrom_of_some piece, List.map_cons, List.map_cons, ih writable.2]

/-- A blank in front of every token is enough. -/
theorem exists_spaced (before : Option Token) (ts : List Token) :
    ∃ cs, SpacedBehind before ts cs := by
  induction ts generalizing before with
  | nil => exact ⟨[], .done ⟨[], [], rfl, .nil, .inl rfl⟩⟩
  | cons t ts ih =>
    obtain ⟨rest, hrest⟩ := ih (some t)
    obtain ⟨spelling, hspells⟩ := t.exists_spells
    have blank : IsTrivia [' '] := .blank rfl .nil
    exact ⟨_, .token blank (fun _ _ => List.cons_ne_nil _ _) hspells hrest⟩

end SpacedBehind

/-- **Spacing.** Any tokens can be written out, and however that is done, with whatever trivia
between them, reading gives these tokens and no fault. -/
theorem lexemes_spaced {ts : List Token} (h : ∀ t ∈ ts, t.IsWritable) :
    (∃ text, Spaced ts text) ∧
    ∀ text, Spaced ts text → (lexemes text).map Lexeme.token = ts.map .ok := by
  constructor
  · obtain ⟨cs, hcs⟩ := SpacedBehind.exists_spaced none ts
    exact ⟨String.ofList cs, by rwa [Spaced, String.toList_ofList]⟩
  · intro text spaced
    exact spaced.token_lexemesFrom h 1

/-- Some tokens with hardly anything between them. -/
def crowdedTokens : List Token :=
  [.open, .word "c", .string "a\"\n", .integer ⟨-3, "-3"⟩, .integer ⟨31, "0x1F"⟩, .close]

/-- A word stands right before a string and a comment right behind it; only the integers are kept
apart. -/
theorem lexemes_spaced_crowded :
    (∀ t ∈ crowdedTokens, t.IsWritable) ∧
    Spaced crowdedTokens "(c\"a\\\"\\n\";x\n-3 0x1F)" ∧
    (lexemes "(c\"a\\\"\\n\";x\n-3 0x1F)").map Lexeme.token = crowdedTokens.map .ok := by
  have writable : ∀ t ∈ crowdedTokens, t.IsWritable := by
    have word_unlike : ¬ NumberLike "c".toList := fun like =>
      absurd (startsLikeNumber_iff.2 like) (by decide)
    have word_text : IsWordText "c" := List.forall_mem_singleton.2 (by decide)
    simp only [crowdedTokens, List.forall_mem_cons]
    exact ⟨trivial, ⟨by decide, word_text, word_unlike⟩, trivial,
      ⟨integerValue?_eq_some_iff.1 rfl, by decide⟩, ⟨integerValue?_eq_some_iff.1 rfl, by decide⟩,
      trivial, nofun⟩
  have text_spelled : SpellsText "a\"\n".toList ['a', '\\', '"', '\\', 'n'] :=
    .cons (.raw (by decide) (by decide)) (.cons .quote (.cons .newline .nil))
  have no_newline : '\n' ∉ ['x'] := by decide
  have comment : IsTrivia [';', 'x', '\n'] := .comment no_newline .nil
  have at_end : IsLastTrivia [] := ⟨[], [], rfl, .nil, .inl rfl⟩
  have spaced : Spaced crowdedTokens "(c\"a\\\"\\n\";x\n-3 0x1F)" :=
    .token .nil (by simp) .open <| .token .nil (by simp [Token.IsAtom]) (.word "c") <|
      .token .nil (by simp [Token.IsAtom]) (.string text_spelled) <|
      .token comment (by simp) (.integer ⟨-3, "-3"⟩) <|
      .token (.blank rfl .nil : IsTrivia [' ']) (by simp) (.integer ⟨31, "0x1F"⟩) <|
      .token .nil (by simp [Token.IsAtom]) .close <| .done at_end
  exact ⟨writable, spaced, (lexemes_spaced writable).2 _ spaced⟩

end ForeignBindings.Spec
