import ForeignBindings.Spec.Token

/-!
# From text to tokens

A text is cut into pieces: some trivia (blanks, and comments from `;` to the end of the line), then
one lexeme. A parenthesis is a lexeme of its own, a quote starts a string that runs to the next
quote not escaped by a backslash, and anything else is a maximal run of word characters.

* `nextPiece` cuts off the first piece; `nextPiece_tiles` says that nothing of the text is lost.
* `lexemes` lists all of them, faulty ones too, each with the line it starts on. A fault does not
  end the list: what follows it is still read.
-/

namespace ForeignBindings.Spec

open ForeignBindings

/-! ## Trivia -/

/-- Splits off the trivia in front of a text; the flag says whether it starts inside a comment. -/
def splitTrivia : Bool → List Char → List Char × List Char
  | _, [] => ([], [])
  | true, c :: cs =>
    let (t, rest) := splitTrivia (c != '\n') cs
    (c :: t, rest)
  | false, c :: cs =>
    if Text.isBlank c || c == ';' then
      let (t, rest) := splitTrivia (c == ';') cs
      (c :: t, rest)
    else ([], c :: cs)

theorem splitTrivia_append (inComment : Bool) (cs : List Char) :
    (splitTrivia inComment cs).1 ++ (splitTrivia inComment cs).2 = cs := by
  fun_induction splitTrivia inComment cs with
  | case1 => rfl
  | case2 c cs t rest h ih => simpa [h] using ih
  | case3 c cs _ t rest h ih => simpa [h] using ih
  | case4 => rfl

/-! ## Strings -/

/-- The character that a backslash and the given character stand for. -/
def unescape (c : Char) : Char :=
  if c == 'n' then '\n' else if c == 't' then '\t' else c

/-- What follows an opening quote: the text of the string (none if it is never closed), the
characters it takes up, and the rest. -/
structure StringBody where
  text : Option (List Char)
  taken : List Char
  rest : List Char

/-- Puts characters in front of a string body that stand for the given character. -/
def StringBody.push (taken : List Char) (c : Char) (b : StringBody) : StringBody :=
  ⟨b.text.map (c :: ·), taken ++ b.taken, b.rest⟩

/-- Reads a string from behind its opening quote. -/
def stringBody : List Char → StringBody
  | [] => ⟨none, [], []⟩
  | '"' :: cs => ⟨some [], ['"'], cs⟩
  | ['\\'] => ⟨none, ['\\'], []⟩
  | '\\' :: c :: cs => (stringBody cs).push ['\\', c] (unescape c)
  | c :: cs => (stringBody cs).push [c] c

theorem stringBody_append (cs : List Char) :
    (stringBody cs).taken ++ (stringBody cs).rest = cs := by
  fun_induction stringBody cs with
  | case1 => rfl
  | case2 => rfl
  | case3 => rfl
  | case4 c cs ih => simpa [StringBody.push] using ih
  | case5 c cs _ _ _ ih => simpa [StringBody.push] using ih

/-! ## Pieces -/

/-- Some trivia and the lexeme after it, with what the lexeme is. -/
structure Piece where
  trivia : List Char
  spelling : List Char
  token : Except LexicalFault Token

/-- The lexeme at the start of a text that starts with no trivia, and the rest. -/
def lexemeAt (c : Char) (cs : List Char) : List Char × Except LexicalFault Token × List Char :=
  if c == '(' then (['('], .ok .open, cs)
  else if c == ')' then ([')'], .ok .close, cs)
  else if c == '"' then
    let b := stringBody cs
    let token := match b.text with
      | some text => .ok (.string (String.ofList text))
      | none => .error .unclosedString
    (c :: b.taken, token, b.rest)
  else
    let word := c :: cs.takeWhile isWordPart
    (word, Token.ofWord word, cs.dropWhile isWordPart)

theorem lexemeAt_append (c : Char) (cs : List Char) :
    (lexemeAt c cs).1 ++ (lexemeAt c cs).2.2 = c :: cs := by
  unfold lexemeAt
  split
  · simp_all
  · split
    · simp_all
    · split
      · simp [stringBody_append]
      · simp

theorem lexemeAt_ne_nil (c : Char) (cs : List Char) : (lexemeAt c cs).1 ≠ [] := by
  unfold lexemeAt
  split
  · simp
  · split
    · simp
    · split <;> simp

/-- The first piece of a text and the rest, or nothing if only trivia is left. -/
def nextPiece (cs : List Char) : Option (Piece × List Char) :=
  match splitTrivia false cs with
  | (_, []) => none
  | (trivia, c :: more) =>
    let (spelling, token, rest) := lexemeAt c more
    some (⟨trivia, spelling, token⟩, rest)

/-- A piece is the front part of the text, and its lexeme is not empty. -/
theorem nextPiece_tiles {cs rest : List Char} {p : Piece} (h : nextPiece cs = some (p, rest)) :
    p.trivia ++ p.spelling ++ rest = cs ∧ p.spelling ≠ [] := by
  unfold nextPiece at h
  have split_eq := splitTrivia_append false cs
  split at h
  · simp at h
  · rename_i trivia c more hs
    simp only [Option.some.injEq, Prod.mk.injEq] at h
    obtain ⟨rfl, rfl⟩ := h
    rw [hs] at split_eq
    refine ⟨?_, lexemeAt_ne_nil c more⟩
    show trivia ++ (lexemeAt c more).1 ++ (lexemeAt c more).2.2 = cs
    rw [List.append_assoc, lexemeAt_append]
    exact split_eq

theorem nextPiece_shorter {cs rest : List Char} {p : Piece} (h : nextPiece cs = some (p, rest)) :
    rest.length < cs.length := by
  obtain ⟨tiles, ne⟩ := nextPiece_tiles h
  have := List.length_pos_iff.2 ne
  rw [← tiles]
  simp
  omega

/-! ## The whole text -/

/-- A lexeme with its spelling and the line it starts on. -/
structure Lexeme where
  line : Nat
  spelling : List Char
  token : Except LexicalFault Token

/-- The number of newlines among some characters. -/
def newlines (cs : List Char) : Nat :=
  cs.count '\n'

/-- The lexemes of a text whose first character stands on the given line. -/
def lexemesFrom (line : Nat) (cs : List Char) : List Lexeme :=
  match h : nextPiece cs with
  | none => []
  | some (p, rest) =>
    let start := line + newlines p.trivia
    have : rest.length < cs.length := nextPiece_shorter h
    ⟨start, p.spelling, p.token⟩ :: lexemesFrom (start + newlines p.spelling) rest
termination_by cs.length

/-- All lexemes of a specification text. -/
def lexemes (text : String) : List Lexeme :=
  lexemesFrom 1 text.toList

end ForeignBindings.Spec
