import ForeignBindings.Spec.Lexeme

/-!
# The tiling of a text

A text is nothing but trivia and lexemes, one after the other: no character is lost, none is read
twice, and a fault takes up its own characters like any other lexeme.

* `IsTrivia` and `LexemeBefore` say how trivia and lexemes are written, without the functions that
  cut them off.
* `nextPiece_eq_some` and `nextPiece_eq_none` say that these functions find just what is written.
* `Tiled` is the tiling of a whole text, with the line of each lexeme.
* `lexemes_tile` says that the lexemes of a text are its only tiling, and how many there can be.
-/

namespace ForeignBindings.Spec

open ForeignBindings

/-! ## Trivia -/

/-- Blanks and comments, each comment with the newline that ends it. -/
inductive IsTrivia : List Char → Prop
  | nil : IsTrivia []
  | blank {c : Char} {cs : List Char} (h : Text.isBlank c = true) (rest : IsTrivia cs) :
    IsTrivia (c :: cs)
  | comment {body cs : List Char} (h : '\n' ∉ body) (rest : IsTrivia cs) :
    IsTrivia (';' :: (body ++ '\n' :: cs))

/-- The trivia at the end of a text, where the last comment may lack its newline. -/
def IsLastTrivia (cs : List Char) : Prop :=
  ∃ front last, cs = front ++ last ∧ IsTrivia front ∧
    (last = [] ∨ ∃ body, last = ';' :: body ∧ '\n' ∉ body)

/-- A character that no trivia starts with. -/
def StartsLexeme (c : Char) : Prop :=
  Text.isBlank c = false ∧ c ≠ ';'

theorem IsLastTrivia.blank {c : Char} {cs : List Char} (h : Text.isBlank c = true)
    (rest : IsLastTrivia cs) : IsLastTrivia (c :: cs) := by
  obtain ⟨front, last, rfl, hfront, hlast⟩ := rest
  exact ⟨c :: front, last, rfl, .blank h hfront, hlast⟩

theorem IsLastTrivia.comment {body cs : List Char} (h : '\n' ∉ body) (rest : IsLastTrivia cs) :
    IsLastTrivia (';' :: (body ++ '\n' :: cs)) := by
  obtain ⟨front, last, rfl, hfront, hlast⟩ := rest
  exact ⟨';' :: (body ++ '\n' :: front), last, by simp, .comment h hfront, hlast⟩

/-- Every text starts with trivia and a lexeme, unless it is trivia to its end. -/
theorem exists_trivia (cs : List Char) :
    (∃ trivia c more, cs = trivia ++ c :: more ∧ IsTrivia trivia ∧ StartsLexeme c) ∨
      IsLastTrivia cs := by
  -- a comment is passed over at once, so the induction is on the length
  induction hn : cs.length using Nat.strongRecOn generalizing cs with
  | ind n ih =>
    cases cs with
    | nil => exact .inr ⟨[], [], rfl, .nil, .inl rfl⟩
    | cons c cs =>
      by_cases hblank : Text.isBlank c = true
      · have shorter : cs.length < n := by
          rw [← hn, List.length_cons]
          omega
        rcases ih cs.length shorter cs rfl with ⟨trivia, d, more, rfl, htrivia, hd⟩ | hlast
        · exact .inl ⟨c :: trivia, d, more, rfl, .blank hblank htrivia, hd⟩
        · exact .inr (hlast.blank hblank)
      · by_cases hcomment : c = ';'
        · subst hcomment
          by_cases hnewline : '\n' ∈ cs
          · obtain ⟨body, rest, rfl, hbody⟩ := List.eq_append_cons_of_mem hnewline
            have shorter : rest.length < n := by
              rw [← hn, List.length_cons, List.length_append, List.length_cons]
              omega
            rcases ih rest.length shorter rest rfl with ⟨trivia, d, more, rfl, htrivia, hd⟩ | hlast
            · exact .inl ⟨';' :: (body ++ '\n' :: trivia), d, more, by simp,
                .comment hbody htrivia, hd⟩
            · exact .inr (hlast.comment hbody)
          · -- the comment runs to the end of the text
            exact .inr ⟨[], ';' :: cs, rfl, .nil, .inr ⟨cs, rfl, hnewline⟩⟩
        · exact .inl ⟨[], c, cs, rfl, .nil, by simpa using hblank, hcomment⟩

theorem splitTrivia_comment {body : List Char} (h : '\n' ∉ body) (rest : List Char) :
    splitTrivia true (body ++ rest) =
      (body ++ (splitTrivia true rest).1, (splitTrivia true rest).2) := by
  induction body with
  | nil => rfl
  | cons c body ih =>
    have hc : (c != '\n') = true := bne_iff_ne.2 (List.ne_of_not_mem_cons h).symm
    have hbody := ih (List.not_mem_of_not_mem_cons h)
    rw [List.cons_append, splitTrivia, hc, hbody]
    rfl

/-- Trivia in front of a text is split off with the trivia that the text starts with. -/
theorem splitTrivia_trivia {trivia : List Char} (h : IsTrivia trivia) (rest : List Char) :
    splitTrivia false (trivia ++ rest) =
      (trivia ++ (splitTrivia false rest).1, (splitTrivia false rest).2) := by
  induction h with
  | nil => rfl
  | blank hblank later ih =>
    rename_i c cs
    -- a semicolon is no blank
    have no_comment : (c == ';') = false := by
      rw [beq_eq_false_iff_ne]
      rintro rfl
      exact absurd hblank (by decide)
    rw [List.cons_append, splitTrivia, hblank, no_comment, Bool.true_or, if_pos rfl, ih]
    rfl
  | comment hbody later ih =>
    rename_i body cs
    -- the comment goes on up to its newline, and what follows is outside of it
    have inside := splitTrivia_comment hbody ('\n' :: (cs ++ rest))
    have outside : splitTrivia true ('\n' :: (cs ++ rest)) =
        ('\n' :: (cs ++ (splitTrivia false rest).1), (splitTrivia false rest).2) := by
      rw [splitTrivia, show ('\n' != '\n') = false from rfl, ih]
    rw [outside] at inside
    have whole : splitTrivia false (';' :: (body ++ '\n' :: (cs ++ rest))) =
        (';' :: (splitTrivia true (body ++ '\n' :: (cs ++ rest))).1,
          (splitTrivia true (body ++ '\n' :: (cs ++ rest))).2) := by
      rw [splitTrivia]
      rfl
    simpa [inside] using whole

theorem splitTrivia_of_startsLexeme {c : Char} (h : StartsLexeme c) (more : List Char) :
    splitTrivia false (c :: more) = ([], c :: more) := by
  have no_trivia : (Text.isBlank c || c == ';') = false := by simp [h.1, h.2]
  rw [splitTrivia, no_trivia]
  rfl

theorem splitTrivia_lastTrivia {cs : List Char} (h : IsLastTrivia cs) :
    (splitTrivia false cs).2 = [] := by
  obtain ⟨front, last, rfl, hfront, rfl | ⟨body, rfl, hbody⟩⟩ := h
  · rw [splitTrivia_trivia hfront]
    rfl
  · have inside := splitTrivia_comment hbody []
    rw [List.append_nil] at inside
    rw [splitTrivia_trivia hfront]
    show (splitTrivia true body).2 = []
    rw [inside]
    rfl

/-! ## Strings -/

/-- What may stand between the quotes of a string, and the text that it denotes: a backslash and
the character after it are a pair, and a quote only stands in one. -/
inductive InString : List Char → List Char → Prop
  | nil : InString [] []
  | plain {c : Char} {cs text : List Char} (hquote : c ≠ '"') (hbackslash : c ≠ '\\')
    (rest : InString cs text) : InString (c :: cs) (c :: text)
  | pair {c : Char} {cs text : List Char} (rest : InString cs text) :
    InString ('\\' :: c :: cs) (unescape c :: text)

/-- Behind an opening quote comes the text of a string up to the first quote outside a pair, or to
the end, where the second half of a pair may be missing. -/
theorem exists_inString (cs : List Char) :
    ∃ written text, InString written text ∧
      ((∃ rest, cs = written ++ '"' :: rest) ∨ cs = written ∨ cs = written ++ ['\\']) := by
  fun_induction stringBody cs with
  | case1 => exact ⟨[], [], .nil, .inr (.inl rfl)⟩
  | case2 rest => exact ⟨[], [], .nil, .inl ⟨rest, rfl⟩⟩
  | case3 => exact ⟨[], [], .nil, .inr (.inr rfl)⟩
  | case4 c cs ih =>
    obtain ⟨written, text, hwritten, hcs⟩ := ih
    refine ⟨'\\' :: c :: written, unescape c :: text, .pair hwritten, ?_⟩
    rcases hcs with ⟨rest, rfl⟩ | rfl | rfl
    · exact .inl ⟨rest, rfl⟩
    · exact .inr (.inl rfl)
    · exact .inr (.inr rfl)
  | case5 c cs hquote hlast hpair ih =>
    obtain ⟨written, text, hwritten, hcs⟩ := ih
    have not_backslash : c ≠ '\\' := by
      rintro rfl
      cases cs with
      | nil => exact hlast rfl rfl
      | cons d ds => exact hpair d ds rfl rfl
    refine ⟨c :: written, c :: text, .plain hquote not_backslash hwritten, ?_⟩
    rcases hcs with ⟨rest, rfl⟩ | rfl | rfl
    · exact .inl ⟨rest, rfl⟩
    · exact .inr (.inl rfl)
    · exact .inr (.inr rfl)

theorem stringBody_plain {c : Char} (hquote : c ≠ '"') (hbackslash : c ≠ '\\') (cs : List Char) :
    stringBody (c :: cs) = (stringBody cs).push [c] c := by
  rw [stringBody]
  · exact hquote
  · intro h
    exact absurd h hbackslash
  · intro d ds h
    exact absurd h hbackslash

theorem stringBody_closed {written text : List Char} (h : InString written text)
    (rest : List Char) :
    stringBody (written ++ '"' :: rest) = ⟨some text, written ++ ['"'], rest⟩ := by
  induction h with
  | nil => rw [List.nil_append, stringBody, List.nil_append]
  | plain hquote hbackslash later ih =>
    rw [List.cons_append, stringBody_plain hquote hbackslash, ih]
    rfl
  | pair later ih =>
    rw [List.cons_append, List.cons_append, stringBody, ih]
    rfl

theorem stringBody_unclosed {written text last : List Char} (h : InString written text)
    (hlast : last = [] ∨ last = ['\\']) :
    stringBody (written ++ last) = ⟨none, written ++ last, []⟩ := by
  induction h with
  | nil =>
    rcases hlast with rfl | rfl
    · rfl
    · rfl
  | plain hquote hbackslash later ih =>
    rw [List.cons_append, stringBody_plain hquote hbackslash, ih]
    rfl
  | pair later ih =>
    rw [List.cons_append, List.cons_append, stringBody, ih]
    rfl

/-! ## Lexemes -/

/-- A character that a word may have in it. -/
def IsWordCharacter (c : Char) : Prop :=
  Text.isBlank c = false ∧ c ≠ '(' ∧ c ≠ ')' ∧ c ≠ '"' ∧ c ≠ ';'

theorem isWordPart_iff (c : Char) : isWordPart c = true ↔ IsWordCharacter c := by
  simp [isWordPart, IsWordCharacter, and_assoc]

/-- A spelling that is one lexeme where the given rest follows it, and what the lexeme is. A string
runs to the first quote outside a pair; only the end of the text can leave it unclosed. A word is as
long as it can be. -/
inductive LexemeBefore (rest : List Char) : List Char → Except LexicalFault Token → Prop
  | «open» : LexemeBefore rest ['('] (.ok .open)
  | close : LexemeBefore rest [')'] (.ok .close)
  | string {written text : List Char} (h : InString written text) :
    LexemeBefore rest ('"' :: (written ++ ['"'])) (.ok (.string (String.ofList text)))
  | unclosed {written text last : List Char} (h : InString written text)
    (hlast : last = [] ∨ last = ['\\']) (hrest : rest = []) :
    LexemeBefore rest ('"' :: (written ++ last)) (.error .unclosedString)
  | word {c : Char} {cs : List Char} (hword : ∀ d ∈ c :: cs, IsWordCharacter d)
    (hrest : ∀ d more, rest = d :: more → ¬ IsWordCharacter d) :
    LexemeBefore rest (c :: cs) (Token.ofWord (c :: cs))

theorem LexemeBefore.startsLexeme {rest spelling : List Char} {token : Except LexicalFault Token}
    (h : LexemeBefore rest spelling token) :
    ∃ c cs, spelling = c :: cs ∧ StartsLexeme c := by
  cases h with
  | «open» => exact ⟨_, _, rfl, by decide, by decide⟩
  | close => exact ⟨_, _, rfl, by decide, by decide⟩
  | string => exact ⟨_, _, rfl, by decide, by decide⟩
  | unclosed => exact ⟨_, _, rfl, by decide, by decide⟩
  | word hword hrest =>
    have first := hword _ (List.mem_cons_self ..)
    exact ⟨_, _, rfl, first.1, first.2.2.2.2⟩

/-- A word ends where the rest does not go on with it. -/
theorem span_word {word rest : List Char} (hword : ∀ d ∈ word, IsWordCharacter d)
    (hrest : ∀ d more, rest = d :: more → ¬ IsWordCharacter d) :
    (word ++ rest).takeWhile isWordPart = word ∧ (word ++ rest).dropWhile isWordPart = rest := by
  have all_parts : ∀ d ∈ word, isWordPart d = true := fun d hd => (isWordPart_iff d).2 (hword d hd)
  rw [List.takeWhile_append_of_pos all_parts, List.dropWhile_append_of_pos all_parts]
  cases rest with
  | nil => simp
  | cons d more =>
    have no_part : ¬ isWordPart d = true := fun hd => hrest d more rfl ((isWordPart_iff d).1 hd)
    rw [List.takeWhile_cons_of_neg no_part, List.dropWhile_cons_of_neg no_part, List.append_nil]
    exact ⟨rfl, rfl⟩

/-- What is cut off at the start of a lexeme is that lexeme. -/
theorem lexemeAt_of_lexemeBefore {rest cs : List Char} {c : Char}
    {token : Except LexicalFault Token} (h : LexemeBefore rest (c :: cs) token) :
    lexemeAt c (cs ++ rest) = (c :: cs, token, rest) := by
  cases h with
  | «open» => rfl
  | close => rfl
  | string hwritten =>
    have body := stringBody_closed hwritten rest
    rw [List.append_assoc, List.singleton_append]
    unfold lexemeAt
    rw [if_neg (by decide), if_neg (by decide), if_pos (by decide), body]
  | unclosed hwritten hlast hrest =>
    subst hrest
    have body := stringBody_unclosed hwritten hlast
    rw [List.append_nil]
    unfold lexemeAt
    rw [if_neg (by decide), if_neg (by decide), if_pos (by decide), body]
  | word hword hrest =>
    obtain ⟨-, hopen, hclose, hquote, -⟩ := hword c (List.mem_cons_self ..)
    have hcs : ∀ d ∈ cs, IsWordCharacter d := fun d hd => hword d (List.mem_cons_of_mem _ hd)
    obtain ⟨taken, dropped⟩ := span_word hcs hrest
    unfold lexemeAt
    rw [if_neg (by simpa using hopen), if_neg (by simpa using hclose),
      if_neg (by simpa using hquote), taken, dropped]

/-- Where no trivia starts, a lexeme does. -/
theorem exists_lexemeBefore {c : Char} (h : StartsLexeme c) (more : List Char) :
    ∃ cs rest token, more = cs ++ rest ∧ LexemeBefore rest (c :: cs) token := by
  by_cases hopen : c = '('
  · subst hopen
    exact ⟨[], more, _, rfl, .open⟩
  by_cases hclose : c = ')'
  · subst hclose
    exact ⟨[], more, _, rfl, .close⟩
  by_cases hquote : c = '"'
  · subst hquote
    obtain ⟨written, text, hwritten, ⟨rest, rfl⟩ | rfl | rfl⟩ := exists_inString more
    · exact ⟨written ++ ['"'], rest, _, by simp, .string hwritten⟩
    · exact ⟨more ++ [], [], _, by simp, .unclosed hwritten (.inl rfl) rfl⟩
    · exact ⟨written ++ ['\\'], [], _, by simp, .unclosed hwritten (.inr rfl) rfl⟩
  -- all other characters start a word, which takes what it can
  refine ⟨more.takeWhile isWordPart, more.dropWhile isWordPart, _,
    List.takeWhile_append_dropWhile.symm, .word ?_ ?_⟩
  · intro d hd
    rcases List.mem_cons.1 hd with rfl | hd
    · exact ⟨h.1, hopen, hclose, hquote, h.2⟩
    · exact (isWordPart_iff d).1 (List.all_eq_true.1 List.all_takeWhile d hd)
  · intro d rest hdrop hd
    have head_fails := List.head?_dropWhile_not isWordPart more
    rw [hdrop] at head_fails
    simp [(isWordPart_iff d).2 hd] at head_fails

/-! ## Pieces -/

theorem nextPiece_of_trivia {trivia : List Char} (h : IsTrivia trivia) {c : Char}
    (hc : StartsLexeme c) (more : List Char) :
    nextPiece (trivia ++ c :: more) =
      some (⟨trivia, (lexemeAt c more).1, (lexemeAt c more).2.1⟩, (lexemeAt c more).2.2) := by
  have split : splitTrivia false (trivia ++ c :: more) = (trivia, c :: more) := by
    rw [splitTrivia_trivia h, splitTrivia_of_startsLexeme hc, List.append_nil]
  unfold nextPiece
  rw [split]

/-- **Pieces.** The first piece of a text is the trivia and the lexeme that the text starts with. -/
theorem nextPiece_eq_some {cs rest : List Char} {p : Piece} :
    nextPiece cs = some (p, rest) ↔
      cs = p.trivia ++ p.spelling ++ rest ∧ IsTrivia p.trivia ∧
        LexemeBefore rest p.spelling p.token := by
  constructor
  · intro h
    rcases exists_trivia cs with ⟨trivia, c, more, rfl, htrivia, hc⟩ | hlast
    · obtain ⟨spelled, rest', token, rfl, hlexeme⟩ := exists_lexemeBefore hc more
      rw [nextPiece_of_trivia htrivia hc, lexemeAt_of_lexemeBefore hlexeme] at h
      cases h
      exact ⟨by simp, htrivia, hlexeme⟩
    · have nothing_left := splitTrivia_lastTrivia hlast
      unfold nextPiece at h
      split at h
      · cases h
      · rename_i trivia c more hsplit
        rw [hsplit] at nothing_left
        cases nothing_left
  · obtain ⟨trivia, spelling, token⟩ := p
    rintro ⟨rfl, htrivia, hlexeme⟩
    obtain ⟨c, spelled, hspelling, hc⟩ := hlexeme.startsLexeme
    dsimp only at hspelling hlexeme htrivia ⊢
    subst hspelling
    rw [List.append_assoc, List.cons_append, nextPiece_of_trivia htrivia hc,
      lexemeAt_of_lexemeBefore hlexeme]

/-- There is no piece where only trivia is left. -/
theorem nextPiece_eq_none {cs : List Char} : nextPiece cs = none ↔ IsLastTrivia cs := by
  constructor
  · intro h
    rcases exists_trivia cs with ⟨trivia, c, more, rfl, htrivia, hc⟩ | hlast
    · rw [nextPiece_of_trivia htrivia hc] at h
      cases h
    · exact hlast
  · intro h
    have nothing_left := splitTrivia_lastTrivia h
    unfold nextPiece
    split
    · rfl
    · rename_i trivia c more hsplit
      rw [hsplit] at nothing_left
      cases nothing_left

/-! ## The whole text -/

/-- The lexemes tile what is left of a text behind the given characters. Between them stands trivia,
and each carries the number of its line, counted from one. -/
inductive Tiled : List Char → List Char → List Lexeme → Prop
  | done {before rest : List Char} (h : IsLastTrivia rest) : Tiled before rest []
  | item {before trivia rest : List Char} {l : Lexeme} {ls : List Lexeme}
    (htrivia : IsTrivia trivia) (hlexeme : LexemeBefore rest l.spelling l.token)
    (hline : l.line = 1 + newlines (before ++ trivia))
    (later : Tiled (before ++ trivia ++ l.spelling) rest ls) :
    Tiled before (trivia ++ l.spelling ++ rest) (l :: ls)

theorem newlines_append (cs ds : List Char) : newlines (cs ++ ds) = newlines cs + newlines ds :=
  List.count_append

theorem lexemesFrom_of_none {cs : List Char} (h : nextPiece cs = none) (line : Nat) :
    lexemesFrom line cs = [] := by
  rw [lexemesFrom]
  split
  · rfl
  · rename_i p rest hp
    rw [h] at hp
    cases hp

theorem lexemesFrom_of_some {cs rest : List Char} {p : Piece} (h : nextPiece cs = some (p, rest))
    (line : Nat) :
    lexemesFrom line cs =
      ⟨line + newlines p.trivia, p.spelling, p.token⟩ ::
        lexemesFrom (line + newlines p.trivia + newlines p.spelling) rest := by
  rw [lexemesFrom]
  split
  · rename_i hp
    rw [h] at hp
    cases hp
  · rename_i p' rest' hp
    rw [h] at hp
    cases hp
    rfl

/-- What is left of a text has one tiling, and that is its lexemes. -/
theorem tiled_iff {before rest : List Char} {ls : List Lexeme} :
    Tiled before rest ls ↔ ls = lexemesFrom (1 + newlines before) rest := by
  constructor
  · intro h
    induction h with
    | done hlast => rw [lexemesFrom_of_none (nextPiece_eq_none.2 hlast)]
    | item htrivia hlexeme hline later ih =>
      rename_i before trivia rest l ls
      have piece : nextPiece (trivia ++ l.spelling ++ rest) =
          some (⟨trivia, l.spelling, l.token⟩, rest) :=
        nextPiece_eq_some.2 ⟨rfl, htrivia, hlexeme⟩
      -- both count from the start of the text, and the lexemes count on from the last one
      rw [newlines_append, ← Nat.add_assoc] at hline
      rw [newlines_append, newlines_append, ← Nat.add_assoc, ← Nat.add_assoc] at ih
      rw [lexemesFrom_of_some piece, ← ih, ← hline]
  · rintro rfl
    -- a piece takes up some characters, so the induction is on those that are left
    induction hn : rest.length using Nat.strongRecOn generalizing before rest with
    | ind n ih =>
      cases hpiece : nextPiece rest with
      | none =>
        rw [lexemesFrom_of_none hpiece]
        exact .done (nextPiece_eq_none.1 hpiece)
      | some found =>
        obtain ⟨p, more⟩ := found
        obtain ⟨heq, htrivia, hlexeme⟩ := nextPiece_eq_some.1 hpiece
        have shorter := nextPiece_shorter hpiece
        have later := @ih more.length (by omega) (before ++ p.trivia ++ p.spelling) more rfl
        rw [newlines_append, newlines_append, ← Nat.add_assoc, ← Nat.add_assoc] at later
        rw [lexemesFrom_of_some hpiece, heq]
        have line : 1 + newlines before + newlines p.trivia =
            1 + newlines (before ++ p.trivia) := by
          rw [newlines_append, Nat.add_assoc]
        exact Tiled.item (l := ⟨_, p.spelling, p.token⟩) htrivia hlexeme line later

namespace Tiled

variable {before rest : List Char} {ls : List Lexeme}

/-- A tiled text is the trivia and the lexemes, in turn. -/
theorem concatenation (h : Tiled before rest ls) :
    ∃ (gaps : List (List Char)) (last : List Char), gaps.length = ls.length ∧
      (∀ gap ∈ gaps, IsTrivia gap) ∧ IsLastTrivia last ∧
      rest = (gaps.zip ls).flatMap (fun tile => tile.1 ++ tile.2.spelling) ++ last := by
  induction h with
  | done hlast => exact ⟨[], _, rfl, by simp, hlast, rfl⟩
  | item htrivia hlexeme hline later ih =>
    rename_i before trivia rest l ls
    obtain ⟨gaps, last, hlength, hgaps, hlast, hrest⟩ := ih
    refine ⟨trivia :: gaps, last, by simp [hlength], ?_, hlast, ?_⟩
    · intro gap hgap
      rcases List.mem_cons.1 hgap with rfl | hgap
      · exact htrivia
      · exact hgaps gap hgap
    · rw [List.zip_cons_cons, List.flatMap_cons, List.append_assoc _ _ last, ← hrest]

/-- Where a lexeme stands in a tiled text, and what stands around it. -/
theorem place (h : Tiled before rest ls) {earlier later : List Lexeme} {l : Lexeme}
    (hls : ls = earlier ++ l :: later) :
    ∃ front back, rest = front ++ l.spelling ++ back ∧ l.line = 1 + newlines (before ++ front) ∧
      LexemeBefore back l.spelling l.token ∧
      Tiled (before ++ front ++ l.spelling) back later := by
  induction h generalizing earlier with
  | done => simp at hls
  | item htrivia hlexeme hline htail ih =>
    rename_i before trivia rest first ls
    cases earlier with
    | nil =>
      cases hls
      exact ⟨trivia, rest, rfl, hline, hlexeme, htail⟩
    | cons x earlier =>
      cases hls
      obtain ⟨front, back, rfl, hl, hbefore, hback⟩ := ih rfl
      refine ⟨trivia ++ first.spelling ++ front, back, by simp, ?_, hbefore, ?_⟩
      · simpa using hl
      · simpa using hback

/-- Each lexeme takes up a character at least. -/
theorem length_le (h : Tiled before rest ls) : ls.length ≤ rest.length := by
  induction h with
  | done => simp
  | item htrivia hlexeme hline later ih =>
    obtain ⟨c, cs, hspelling, -⟩ := hlexeme.startsLexeme
    simp only [hspelling, List.length_append, List.length_cons]
    omega

/-- Behind the end of a text there is no further lexeme. -/
theorem eq_nil_of_nil (h : Tiled before [] ls) : ls = [] := by
  have no_room := h.length_le
  exact List.length_eq_zero_iff.1 (by simpa using no_room)

end Tiled

/-- Where reading stands: the line of the next character, and the characters that are left. -/
structure Cursor where
  line : Nat
  rest : List Char

namespace Cursor

/-- Reads the next lexeme, if there is one. -/
def next (c : Cursor) : Option (Lexeme × Cursor) :=
  (nextPiece c.rest).map fun (p, rest) =>
    (⟨c.line + newlines p.trivia, p.spelling, p.token⟩,
      ⟨c.line + newlines p.trivia + newlines p.spelling, rest⟩)

/-- Reading on and on gives these lexemes, and then there are no more. -/
inductive Gives : Cursor → List Lexeme → Prop
  | done {c : Cursor} (h : c.next = none) : Gives c []
  | item {c c' : Cursor} {l : Lexeme} {ls : List Lexeme} (h : c.next = some (l, c'))
    (later : Gives c' ls) : Gives c (l :: ls)

/-- Reading comes to an end, after the lexemes of what is left. -/
theorem gives_lexemesFrom (c : Cursor) : c.Gives (lexemesFrom c.line c.rest) := by
  obtain ⟨line, rest⟩ := c
  induction hn : rest.length using Nat.strongRecOn generalizing line rest with
  | ind n ih =>
    cases hpiece : nextPiece rest with
    | none =>
      rw [lexemesFrom_of_none hpiece]
      exact .done (by simp [next, hpiece])
    | some found =>
      obtain ⟨p, more⟩ := found
      have shorter := nextPiece_shorter hpiece
      rw [lexemesFrom_of_some hpiece]
      exact .item (by simp [next, hpiece]) (ih more.length (by omega) _ more rfl)

end Cursor

/-- **The tiling of a text.** Reading a text comes to an end, and its lexemes, faults included, are
the one way to tile it: the text is trivia and one lexeme in turn, and trivia at its end. Each
lexeme ends where what follows says so, and carries the line that its first character stands on. A
string that is never closed is the last lexeme. There are no more lexemes than characters. -/
theorem lexemes_tile (text : String) :
    Cursor.Gives ⟨1, text.toList⟩ (lexemes text) ∧
    (∀ ls, Tiled [] text.toList ls ↔ ls = lexemes text) ∧
    (∃ (gaps : List (List Char)) (last : List Char), gaps.length = (lexemes text).length ∧
      (∀ gap ∈ gaps, IsTrivia gap) ∧ IsLastTrivia last ∧
      text.toList =
        (gaps.zip (lexemes text)).flatMap (fun tile => tile.1 ++ tile.2.spelling) ++ last) ∧
    (∀ earlier l later, lexemes text = earlier ++ l :: later →
      l.spelling ≠ [] ∧
      (∃ front back, text.toList = front ++ l.spelling ++ back ∧ l.line = 1 + newlines front ∧
        LexemeBefore back l.spelling l.token) ∧
      (l.token = .error .unclosedString → later = [])) ∧
    (lexemes text).length ≤ text.length := by
  have tiled : Tiled [] text.toList (lexemes text) := tiled_iff.2 rfl
  refine ⟨Cursor.gives_lexemesFrom ⟨1, text.toList⟩, fun ls => tiled_iff, tiled.concatenation, ?_,
    ?_⟩
  · intro earlier l later hls
    obtain ⟨front, back, heq, hline, hlexeme, hlater⟩ := tiled.place hls
    obtain ⟨c, cs, hspelling, -⟩ := hlexeme.startsLexeme
    refine ⟨by simp [hspelling], ⟨front, back, heq, hline, hlexeme⟩, ?_⟩
    intro hfault
    -- only at its very end does a text leave a string unclosed
    have at_end : back = [] := by
      rw [hfault] at hlexeme
      generalize hspelled : l.spelling = spelling at hlexeme
      generalize htoken : (Except.error LexicalFault.unclosedString : Except LexicalFault Token) =
        token at hlexeme
      cases hlexeme with
      | unclosed hwritten hlast hrest => exact hrest
      | word hword hrest =>
        -- a word is at fault as a number, if at all
        unfold Token.ofWord at htoken
        split at htoken
        · cases htoken
        · split at htoken <;> cases htoken
      | _ => cases htoken
    rw [at_end] at hlater
    exact hlater.eq_nil_of_nil
  · rw [← String.length_toList]
    exact tiled.length_le

end ForeignBindings.Spec
