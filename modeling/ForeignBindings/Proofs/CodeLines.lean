import Mathlib.Data.List.TakeWhile
import ForeignBindings.Identifier
import ForeignBindings.Proofs.Rows

/-!
# Lines of C

Before a compiler reads a program, it joins the rows that end in a backslash, passes over comments,
and looks for conditionals. What is left are lines, which are conditionals or not.

* `Preprocessor.splice` joins rows.
* `Lexical` is where a reader stands: in code, in a quotation or in a comment.
  `Lexical.uncommented` is a row without its comments.
* `Preprocessor.branch?` reads a row as part of a conditional, however that is spelled.
* `Preprocessor.read` gives the lines of a text. What is complete can be read by itself
  (`read_append`).
* `SourceLine.read_textRows` says that generated lines are read as what they stand for.
  `isLine_conditional` and `ProbeCall.isLine_call` are its two cases.
-/

namespace ForeignBindings

namespace Preprocessor

/-! ## Joined rows -/

/-- The blanks that may stand between the parts of a row. -/
def isSpace (c : Char) : Bool :=
  c == ' ' || c == '\t' || c == '\x0b' || c == '\x0c' || c == '\r'

/-- The front of a row that goes on in the next one, which a backslash at its end says. Compilers
pass over blanks behind it. -/
def continued? (row : List Char) : Option (List Char) :=
  match row.reverse.dropWhile isSpace with
  | '\\' :: front => some front.reverse
  | _ => none

/-- Puts the front of a row before the row that it goes on in, if there is one. -/
def extendRow (front : List Char) : List (List Char) → List (List Char)
  | [] => [front]
  | next :: rows => (front ++ next) :: rows

/-- The rows with those joined that go on in the next one. -/
def splice : List (List Char) → List (List Char)
  | [] => []
  | row :: rest =>
    match continued? row with
    | none => row :: splice rest
    | some front => extendRow front (splice rest)

theorem splice_append {rows : List (List Char)}
    (h : ∀ row ∈ rows.getLast?, continued? row = none) (more : List (List Char)) :
    splice (rows ++ more) = splice rows ++ splice more := by
  induction rows with
  | nil => rfl
  | cons row rest ih =>
    rw [List.cons_append, splice, splice]
    cases hrow : continued? row with
    | none =>
      cases rest with
      | nil => rfl
      | cons next rest =>
        rw [ih (by simpa using h)]
        rfl
    | some front =>
      cases rest with
      | nil =>
        have stops := h row rfl
        cases hrow.symm.trans stops
      | cons next rest =>
        rw [ih (by simpa using h)]
        -- the front goes before the first row of the rest, which is there without the others too
        have some_row : ∃ first others, splice (next :: rest) = first :: others := by
          rw [splice]
          split
          · exact ⟨_, _, rfl⟩
          · cases splice rest <;> exact ⟨_, _, rfl⟩
        obtain ⟨first, others, hfirst⟩ := some_row
        rw [hfirst]
        rfl

/-- A row with something else at its end stands alone. -/
theorem continued?_append_singleton {c : Char} (hspace : isSpace c = false) (hc : c ≠ '\\')
    (cs : List Char) : continued? (cs ++ [c]) = none := by
  rw [continued?, List.reverse_append, List.reverse_singleton, List.singleton_append,
    List.dropWhile_cons_of_neg (by simp [hspace])]
  split
  · rename_i front heq
    cases heq
    exact absurd rfl hc
  · rfl

end Preprocessor

/-! ## Comments -/

/-- Where a reader of C stands in a row. -/
inductive Lexical where
  | code
  /-- Behind a slash, with which a comment may start. -/
  | slash
  | quoted (quote : Char)
  /-- Behind a backslash in a quotation. -/
  | escaped (quote : Char)
  /-- In a comment up to the end of the row. -/
  | lineComment
  | comment
  /-- Behind a star in a comment, with which it may end. -/
  | star
deriving Repr, DecidableEq

namespace Lexical

/-- Where a character in code, which no slash stands before, leads. -/
def ofCode (c : Char) : Lexical :=
  if c = '/' then slash
  else if c = '"' ∨ c = '\'' then quoted c
  else code

/-- Where a character leads. -/
def step : Lexical → Char → Lexical
  | code, c => ofCode c
  | slash, c => if c = '*' then comment else if c = '/' then lineComment else ofCode c
  | quoted quote, c => if c = '\\' then escaped quote else if c = quote then code else quoted quote
  | escaped quote, _ => quoted quote
  | lineComment, _ => lineComment
  | comment, c => if c = '*' then star else comment
  | star, c => if c = '/' then code else if c = '*' then star else comment

/-- Where some characters lead. -/
def after (l : Lexical) (cs : List Char) : Lexical :=
  cs.foldl step l

/-- What a character leaves of the row, with the slash before it if it starts no comment. A comment
is a blank. -/
def output : Lexical → Char → List Char
  | code, c => if c = '/' then [] else [c]
  | slash, c => if c = '*' ∨ c = '/' then [' '] else ['/', c]
  | quoted _, c | escaped _, c => [c]
  | lineComment, _ | comment, _ | star, _ => []

/-- The rest of a row without comments. -/
def uncommented : Lexical → List Char → List Char
  | slash, [] => ['/']
  | _, [] => []
  | l, c :: cs => l.output c ++ uncommented (l.step c) cs

/-- What a character leaves of the code in a row: of a quotation, its marks only. -/
def codeOutput : Lexical → Char → List Char
  | quoted quote, c => if c = quote then [c] else []
  | escaped _, _ => []
  | l, c => l.output c

/-- The rest of a row without comments, and without what stands in quotations. -/
def bare : Lexical → List Char → List Char
  | slash, [] => ['/']
  | _, [] => []
  | l, c :: cs => l.codeOutput c ++ bare (l.step c) cs

/-- The reader is in code. -/
def isCode : Lexical → Bool
  | code | slash => true
  | _ => false

/-- The reader is in a comment that goes on in the next row. -/
def isComment : Lexical → Bool
  | comment | star => true
  | _ => false

theorem after_append (l : Lexical) (cs ds : List Char) :
    l.after (cs ++ ds) = (l.after cs).after ds :=
  List.foldl_append

theorem after_cons (l : Lexical) (c : Char) (cs : List Char) :
    l.after (c :: cs) = (l.step c).after cs := rfl

/-- The character has no meaning for quotations and comments. -/
def isPlain (c : Char) : Bool :=
  c != '/' && c != '*' && c != '"' && c != '\''

theorem step_of_isPlain {l : Lexical} (hl : l.isCode = true) {c : Char} (hc : isPlain c = true) :
    l.step c = code := by
  simp only [isPlain, Bool.and_eq_true, bne_iff_ne] at hc
  obtain ⟨⟨⟨no_slash, no_star⟩, no_quote⟩, no_quote'⟩ := hc
  cases l <;> simp_all [step, ofCode, isCode]

/-- Characters without such a meaning stay in code, and all of them are left. -/
theorem plain {cs : List Char} (h : ∀ c ∈ cs, isPlain c = true) :
    code.after cs = code ∧ uncommented code cs = cs := by
  induction cs with
  | nil => exact ⟨rfl, rfl⟩
  | cons c cs ih =>
    have hc := h c (List.mem_cons_self ..)
    obtain ⟨stays, left⟩ := ih fun d hd => h d (List.mem_cons_of_mem _ hd)
    have no_slash : c ≠ '/' := by
      rintro rfl
      cases hc
    rw [after_cons, uncommented, step_of_isPlain rfl hc, stays, left, output, if_neg no_slash]
    exact ⟨rfl, rfl⟩

theorem bare_append_of_plain {cs : List Char} (h : ∀ c ∈ cs, isPlain c = true) (ds : List Char) :
    code.bare (cs ++ ds) = cs ++ code.bare ds := by
  induction cs with
  | nil => rfl
  | cons c cs ih =>
    have hc := h c (List.mem_cons_self ..)
    have rest := ih fun d hd => h d (List.mem_cons_of_mem _ hd)
    have no_slash : c ≠ '/' := by
      rintro rfl
      cases hc
    rw [List.cons_append, bare, step_of_isPlain rfl hc, rest, codeOutput, output, if_neg no_slash]
    · rfl
    · intro quote heq
      cases heq
    · intro quote heq
      cases heq

/-- All that a character leaves is itself, but for the blank that a comment is, and a slash that was
held back. -/
theorem eq_of_mem_codeOutput {d c : Char} (hspace : d ≠ ' ') (hslash : d ≠ '/') {l : Lexical}
    (h : d ∈ l.codeOutput c) : d = c := by
  cases l with
  | code =>
    by_cases hc : c = '/'
    · simp [codeOutput, output, hc] at h
    · simpa [codeOutput, output, hc] using h
  | slash =>
    by_cases hc : c = '*' ∨ c = '/'
    · simp [codeOutput, output, hc, hspace] at h
    · simpa [codeOutput, output, hc, hslash] using h
  | quoted quote =>
    by_cases hc : c = quote
    · simpa [codeOutput, hc] using h
    · simp [codeOutput, hc] at h
  | _ => cases h

/-- The code in a row is of the row. -/
theorem mem_of_mem_bare {d : Char} (hspace : d ≠ ' ') (hslash : d ≠ '/') {l : Lexical}
    {cs : List Char} (h : d ∈ l.bare cs) : d ∈ cs := by
  induction cs generalizing l with
  | nil => cases l <;> simp_all [bare]
  | cons c cs ih =>
    have cut : l.bare (c :: cs) = l.codeOutput c ++ (l.step c).bare cs := by
      cases l <;> rfl
    rw [cut] at h
    rcases List.mem_append.1 h with here | later
    · rw [eq_of_mem_codeOutput hspace hslash here]
      exact List.mem_cons_self ..
    · exact List.mem_cons_of_mem _ (ih later)

/-- Behind code, a comma stands in code. -/
theorem after_comma {l : Lexical} (h : l.isCode = true) : l.after [',', ' '] = code := by
  rw [after_cons, step_of_isPlain h (by decide)]
  rfl

end Lexical

/-! ## Conditionals -/

namespace Preprocessor

open Identifier (isContinue)

/-- What a conditional depends on. -/
inductive Condition where
  /-- The macro is defined. -/
  | defined (name : String)
  /-- The macro is not defined. -/
  | undefined (name : String)
  /-- Anything else, as it is spelled. -/
  | other (text : String)
deriving Repr, DecidableEq

/-- A line of a conditional. -/
inductive BranchLine where
  | first (condition : Condition)
  | further (condition : Condition)
  | otherwise
  | endif
deriving Repr, DecidableEq

/-- A row without the blanks at its front. -/
def skip (row : List Char) : List Char :=
  row.dropWhile isSpace

/-- The word at the front of a row. -/
def wordAt (row : List Char) : String :=
  String.ofList ((skip row).takeWhile isContinue)

/-- What stands behind the word at the front of a row. -/
def behindWord (row : List Char) : List Char :=
  (skip row).dropWhile isContinue

/-- The name of which a row asks whether it is defined, if it asks for nothing else. The name may be
in parentheses. -/
def definedName? (row : List Char) : Option String :=
  if wordAt row = "defined" then
    match skip (behindWord row) with
    | '(' :: inside =>
      match skip (behindWord inside) with
      | ')' :: rest => if (skip rest).isEmpty then some (wordAt inside) else none
      | _ => none
    | inside => if (skip (behindWord inside)).isEmpty then some (wordAt inside) else none
  else none

/-- The condition that a row spells. -/
def conditionOf (row : List Char) : Condition :=
  match skip row with
  | '!' :: rest =>
    match definedName? rest with
    | some name => .undefined name
    | none => .other (String.ofList row)
  | _ =>
    match definedName? row with
    | some name => .defined name
    | none => .other (String.ofList row)

/-- What stands behind the mark of a directive, at the front of a row without comments. The mark has
a second spelling. -/
def directive? (row : List Char) : Option (List Char) :=
  match skip row with
  | '#' :: rest => some rest
  | '%' :: ':' :: rest => some rest
  | _ => none

/-- A directive as a line of a conditional, by its word and what stands behind it. -/
def branchOf? (word : String) (rest : List Char) : Option BranchLine :=
  if word = "if" then some (.first (conditionOf rest))
  else if word = "ifdef" then some (.first (.defined (wordAt rest)))
  else if word = "ifndef" then some (.first (.undefined (wordAt rest)))
  else if word = "elif" then some (.further (conditionOf rest))
  -- older compilers do not have these two
  else if word = "elifdef" then some (.further (.defined (wordAt rest)))
  else if word = "elifndef" then some (.further (.undefined (wordAt rest)))
  else if word = "else" then some .otherwise
  else if word = "endif" then some .endif
  else none

/-- A row without comments as a line of a conditional, if it is one. -/
def branch? (row : List Char) : Option BranchLine :=
  (directive? row).bind fun rest => branchOf? (wordAt rest) (behindWord rest)

/-! ## Lines -/

/-- A line of a program: a line of a conditional, or another one as it stands. -/
inductive Line where
  | branch (b : BranchLine)
  | text (row : List Char)
deriving Repr, DecidableEq

/-- Where the reader stands at the start of a row. -/
def startAt (inComment : Bool) : Lexical :=
  if inComment then .comment else .code

/-- Reads a row. If it starts in a comment, it is left without it. -/
def readRow (inComment : Bool) (row : List Char) : Line :=
  match branch? ((startAt inComment).uncommented row) with
  | some b => .branch b
  | none => .text (if inComment then Lexical.comment.uncommented row else row)

/-- A comment goes on behind the row. -/
def commentAfter (inComment : Bool) (row : List Char) : Bool :=
  ((startAt inComment).after row).isComment

/-- Reads rows one after the other. -/
def readRows : Bool → List (List Char) → List Line
  | _, [] => []
  | inComment, row :: rest => readRow inComment row :: readRows (commentAfter inComment row) rest

/-- The lines of a text, whose rows are given. -/
def read (rows : List (List Char)) : List Line :=
  readRows false (splice rows)

theorem readRows_append (inComment : Bool) (rows more : List (List Char)) :
    readRows inComment (rows ++ more) =
      readRows inComment rows ++ readRows (rows.foldl commentAfter inComment) more := by
  induction rows generalizing inComment with
  | nil => rfl
  | cons row rows ih =>
    rw [List.cons_append, readRows, readRows, ih]
    rfl

/-- What stands behind the rows is read as if they were not there: the last one does not go on, and
no comment does. -/
structure IsComplete (rows : List (List Char)) : Prop where
  stops : ∀ row ∈ rows.getLast?, continued? row = none
  closed : (splice rows).foldl commentAfter false = false

namespace IsComplete

variable {rows more : List (List Char)}

theorem nil : IsComplete [] where
  stops := fun _ hrow => nomatch hrow
  closed := rfl

theorem append (h : IsComplete rows) (h' : IsComplete more) : IsComplete (rows ++ more) where
  stops := by
    intro row hrow
    rw [List.getLast?_append] at hrow
    cases hmore : more.getLast? with
    | none =>
      rw [hmore] at hrow
      exact h.stops row hrow
    | some last =>
      rw [hmore] at hrow
      cases hrow
      exact h'.stops _ hmore
  closed := by
    rw [splice_append h.stops, List.foldl_append, h.closed, h'.closed]

end IsComplete

theorem read_append {rows : List (List Char)} (h : IsComplete rows) (more : List (List Char)) :
    read (rows ++ more) = read rows ++ read more := by
  rw [read, splice_append h.stops, readRows_append, h.closed]
  rfl

end Preprocessor

/-! ## Generated lines -/

open Preprocessor

/-- The line that a conditional is read as. -/
def Conditional.branch : Conditional → BranchLine
  | ifDefined name | ifdef name => .first (.defined name)
  | elifDefined name => .further (.defined name)
  | otherwise => .otherwise
  | endif => .endif

/-- What a generated line stands for. -/
def SourceLine.line : SourceLine → Line
  | .conditional c => .branch c.branch
  | .plain text => .text text.toList
  | .call c => .text c.text.toList

/-- What generated lines stand for. -/
def SourceLine.codeLines (ls : List SourceLine) : List Line :=
  ls.map line

@[simp] theorem SourceLine.codeLines_nil : codeLines [] = [] := rfl

@[simp] theorem SourceLine.codeLines_cons (l : SourceLine) (ls : List SourceLine) :
    codeLines (l :: ls) = l.line :: codeLines ls := rfl

@[simp] theorem SourceLine.codeLines_append (ls ls' : List SourceLine) :
    codeLines (ls ++ ls') = codeLines ls ++ codeLines ls' :=
  List.map_append

/-- The line is one row of the program, complete, and read as what it stands for. -/
structure SourceLine.IsLine (l : SourceLine) : Prop where
  row : l.IsRow
  stops : continued? l.text.toList = none
  closed : commentAfter false l.text.toList = false
  read : readRow false l.text.toList = l.line

/-- The rows of the text of some lines. -/
def SourceLine.textRows (ls : List SourceLine) : List (List Char) :=
  Text.rowsOf (render ls).toList

/-- Generated lines are read one by one, and as what they stand for. -/
theorem SourceLine.read_textRows {ls : List SourceLine} (h : ∀ l ∈ ls, l.IsLine) :
    IsComplete (textRows ls) ∧ Preprocessor.read (textRows ls) = codeLines ls := by
  rw [textRows, rowsOf_render fun l hl => (h l hl).row]
  induction ls with
  | nil => exact ⟨.nil, rfl⟩
  | cons l ls ih =>
    have first := h l (List.mem_cons_self ..)
    obtain ⟨complete, lines⟩ := ih fun l' hl' => h l' (List.mem_cons_of_mem _ hl')
    -- the first row does not go on and leaves no comment open, so it is read by itself
    have alone : splice [l.text.toList] = [l.text.toList] := by
      rw [splice, first.stops]
      rfl
    have this_row : IsComplete [l.text.toList] := by
      refine ⟨?_, ?_⟩
      · intro row hrow
        cases hrow
        exact first.stops
      · rw [alone]
        exact first.closed
    have this_line : Preprocessor.read [l.text.toList] = [l.line] := by
      rw [Preprocessor.read, alone, readRows, first.read]
      rfl
    rw [rows_cons, ← List.singleton_append]
    refine ⟨this_row.append complete, ?_⟩
    rw [read_append this_row, this_line, lines]
    rfl

/-! ### Conditionals -/

/-- The name that the conditional tests is a word. -/
def Conditional.HasWordName : Conditional → Prop
  | .ifDefined name | .elifDefined name | .ifdef name =>
    name ≠ "" ∧ ∀ c ∈ name.toList, Identifier.isContinue c = true
  | .otherwise | .endif => True

/-- An identifier is a word. -/
theorem Identifier.word_of_isIdentifier {name : String} (h : isIdentifier name = true) :
    name ≠ "" ∧ ∀ c ∈ name.toList, isContinue c = true := by
  unfold isIdentifier at h
  split at h
  · cases h
  · rename_i c cs letters
    simp only [Bool.and_eq_true] at h
    obtain ⟨⟨hstart, -⟩, hcontinue⟩ := h
    constructor
    · rintro rfl
      cases letters
    · rw [letters]
      intro d hd
      rcases List.mem_cons.1 hd with rfl | hd
      · -- a name may go on with every character that it may start with
        simp only [isStart, Bool.or_eq_true] at hstart
        simp only [isContinue, Char.isAlphanum, Bool.or_eq_true]
        exact hstart.imp_right .inl
      · exact List.all_eq_true.1 hcontinue d hd

section Words

variable {c : Char}

/-- A character of a word is none that is not. -/
theorem ne_of_isContinue (h : Identifier.isContinue c = true) {d : Char}
    (hd : Identifier.isContinue d = false) : c ≠ d := by
  rintro rfl
  cases h.symm.trans hd

theorem isPlain_of_isContinue (h : Identifier.isContinue c = true) : Lexical.isPlain c = true := by
  simp [Lexical.isPlain, ne_of_isContinue h (d := '/') (by decide),
    ne_of_isContinue h (d := '*') (by decide), ne_of_isContinue h (d := '"') (by decide),
    ne_of_isContinue h (d := '\'') (by decide)]

theorem plain_of_word {word : List Char} (h : ∀ c ∈ word, Identifier.isContinue c = true) :
    ∀ c ∈ word, Lexical.isPlain c = true :=
  fun c hc => isPlain_of_isContinue (h c hc)

theorem newline_not_mem_of_word {word : List Char}
    (h : ∀ c ∈ word, Identifier.isContinue c = true) : '\n' ∉ word :=
  fun newline => absurd (h _ newline) (by decide)

/-- An identifier has no newline in it. -/
theorem Identifier.newline_not_mem {name : String} (h : isIdentifier name = true) :
    '\n' ∉ name.toList :=
  newline_not_mem_of_word (word_of_isIdentifier h).2

theorem isSpace_of_isContinue (h : Identifier.isContinue c = true) : isSpace c = false := by
  simp [isSpace, ne_of_isContinue h (d := ' ') (by decide),
    ne_of_isContinue h (d := '\t') (by decide), ne_of_isContinue h (d := '\x0b') (by decide),
    ne_of_isContinue h (d := '\x0c') (by decide), ne_of_isContinue h (d := '\r') (by decide)]

end Words

namespace Preprocessor

theorem skip_of_isSpace {c : Char} (h : isSpace c = true) (cs : List Char) :
    skip (c :: cs) = skip cs :=
  List.dropWhile_cons_of_pos h

theorem skip_of_not_isSpace {c : Char} (h : isSpace c = false) (cs : List Char) :
    skip (c :: cs) = c :: cs :=
  List.dropWhile_cons_of_neg (by simp [h])

/-- A word ends in front of a character that is of no word. -/
theorem wordAt_append (word : List Char) (hne : word ≠ [])
    (hword : ∀ c ∈ word, Identifier.isContinue c = true) {next : Char}
    (hnext : Identifier.isContinue next = false) (rest : List Char) :
    wordAt (word ++ next :: rest) = String.ofList word ∧
      behindWord (word ++ next :: rest) = next :: rest := by
  obtain ⟨c, cs, rfl⟩ := List.exists_cons_of_ne_nil hne
  have other : ¬ Identifier.isContinue next = true := by simp [hnext]
  have skipped : skip (c :: cs ++ next :: rest) = c :: cs ++ next :: rest :=
    skip_of_not_isSpace (isSpace_of_isContinue (hword c (List.mem_cons_self ..))) _
  rw [wordAt, behindWord, skipped, List.takeWhile_append_of_pos hword,
    List.dropWhile_append_of_pos hword, List.takeWhile_cons_of_neg other,
    List.dropWhile_cons_of_neg other, List.append_nil]
  exact ⟨rfl, rfl⟩

/-- A word can be all that is left. -/
theorem wordAt_of_word {word : List Char} (hne : word ≠ [])
    (hword : ∀ c ∈ word, Identifier.isContinue c = true) : wordAt word = String.ofList word := by
  obtain ⟨c, cs, rfl⟩ := List.exists_cons_of_ne_nil hne
  rw [wordAt, skip_of_not_isSpace (isSpace_of_isContinue (hword c (List.mem_cons_self ..))),
    List.takeWhile_eq_self_iff.2 hword]

theorem wordAt_blank (row : List Char) :
    wordAt (' ' :: row) = wordAt row ∧ behindWord (' ' :: row) = behindWord row := by
  rw [wordAt, behindWord, skip_of_isSpace (by decide)]
  exact ⟨rfl, rfl⟩

/-- The question whether a name in parentheses is defined. -/
theorem conditionOf_defined {name : List Char} (hne : name ≠ [])
    (hname : ∀ c ∈ name, Identifier.isContinue c = true) :
    conditionOf (' ' :: ("defined".toList ++ '(' :: (name ++ [')']))) =
      .defined (String.ofList name) := by
  generalize hrow : ' ' :: ("defined".toList ++ '(' :: (name ++ [')'])) = row
  have question := wordAt_append "defined".toList (by decide) (List.all_eq_true.1 (by decide))
    (show Identifier.isContinue '(' = false by decide) (name ++ [')'])
  have answer := wordAt_append name hne hname (show Identifier.isContinue ')' = false by decide) []
  -- the word is `defined`, the name stands in parentheses, and nothing is left behind them
  have word : wordAt row = "defined" := by
    rw [← hrow, (wordAt_blank _).1, question.1]
    decide
  have opening : skip (behindWord row) = '(' :: (name ++ [')']) := by
    rw [← hrow, (wordAt_blank _).2, question.2, skip_of_not_isSpace (by decide)]
  have closing : skip (behindWord (name ++ [')'])) = [')'] := by
    rw [answer.2, skip_of_not_isSpace (by decide)]
  have inside : definedName? row = some (String.ofList name) := by
    simp only [definedName?, word, opening, closing, answer.1]
    rfl
  -- the question starts with a letter, so it is no negation
  have no_negation : skip row = "defined".toList ++ '(' :: (name ++ [')']) := by
    rw [← hrow, skip_of_isSpace (by decide)]
    exact skip_of_not_isSpace (by decide) _
  have plain_question : conditionOf row =
      match definedName? row with
      | some name => .defined name
      | none => .other (String.ofList row) := by
    rw [conditionOf, no_negation]
    rfl
  rw [plain_question, inside]

/-- A conditional whose text has no quotation and no comment in it. -/
theorem isLine_of_branch? {c : Conditional} {front : List Char} {last : Char}
    (hrow : c.HasRowName) (hplain : ∀ d ∈ c.text.toList, Lexical.isPlain d = true)
    (htext : c.text.toList = front ++ [last]) (hspace : isSpace last = false) (hlast : last ≠ '\\')
    (hread : branch? c.text.toList = some c.branch) : (SourceLine.conditional c).IsLine := by
  obtain ⟨stays, left⟩ := Lexical.plain hplain
  refine ⟨SourceLine.isRow_conditional hrow, ?_, ?_, ?_⟩
  · rw [SourceLine.text_conditional, htext, continued?_append_singleton hspace hlast]
  · rw [SourceLine.text_conditional, commentAfter, startAt, if_neg (by decide), stays]
    rfl
  · rw [SourceLine.text_conditional, readRow, startAt, if_neg (by decide), left, hread]
    rfl

/-- A directive is read by its word. -/
theorem branch?_of_word {word : List Char} (hne : word ≠ [])
    (hword : ∀ c ∈ word, Identifier.isContinue c = true) {next : Char}
    (hnext : Identifier.isContinue next = false) (rest : List Char) :
    branch? ('#' :: (word ++ next :: rest)) = branchOf? (String.ofList word) (next :: rest) := by
  have directive : directive? ('#' :: (word ++ next :: rest)) = some (word ++ next :: rest) := rfl
  obtain ⟨word_eq, behind_eq⟩ := wordAt_append word hne hword hnext rest
  rw [branch?, directive, Option.bind_some, word_eq, behind_eq]

/-- The two conditionals that ask in parentheses whether a name is defined. -/
theorem isLine_of_question {c : Conditional} {name : String} (word : List Char)
    (hname : name ≠ "" ∧ ∀ d ∈ name.toList, Identifier.isContinue d = true) (hrow : c.HasRowName)
    (hne : word ≠ []) (hword : ∀ d ∈ word, Identifier.isContinue d = true)
    (htext : c.text.toList =
      '#' :: (word ++ ' ' :: ("defined".toList ++ '(' :: (name.toList ++ [')']))))
    (hbranch : ∀ rest, conditionOf rest = .defined name →
      branchOf? (String.ofList word) rest = some c.branch) : (SourceLine.conditional c).IsLine := by
  have letters : name.toList ≠ [] := by simpa using hname.1
  have last_row : c.text.toList =
      ('#' :: (word ++ ' ' :: ("defined".toList ++ '(' :: name.toList))) ++ [')'] := by
    simp [htext]
  refine isLine_of_branch? hrow ?_ last_row (by decide) (by decide) ?_
  · rw [htext]
    simp only [List.forall_mem_cons, List.forall_mem_append]
    exact ⟨by decide, plain_of_word hword, by decide, List.all_eq_true.1 (by decide), by decide,
      plain_of_word hname.2, by decide, List.forall_mem_nil _⟩
  · have question := conditionOf_defined letters hname.2
    rw [String.ofList_toList] at question
    rw [htext, branch?_of_word hne hword (by decide), hbranch _ question]

theorem isLine_conditional {c : Conditional} (h : c.HasWordName) :
    (SourceLine.conditional c).IsLine := by
  cases c with
  | ifDefined name =>
    refine isLine_of_question "if".toList h (newline_not_mem_of_word h.2) (by decide)
      (List.all_eq_true.1 (by decide)) (by simp [Conditional.text]) ?_
    intro rest hrest
    rw [Conditional.branch, ← hrest]
    rfl
  | elifDefined name =>
    refine isLine_of_question "elif".toList h (newline_not_mem_of_word h.2) (by decide)
      (List.all_eq_true.1 (by decide)) (by simp [Conditional.text]) ?_
    intro rest hrest
    have word_eq : String.ofList "elif".toList = "elif" := by decide
    rw [word_eq, Conditional.branch, ← hrest]
    rfl
  | ifdef name =>
    obtain ⟨hne, hname⟩ := h
    have text_eq : (Conditional.ifdef name).text.toList =
        '#' :: ("ifdef".toList ++ ' ' :: name.toList) := by
      simp [Conditional.text]
    -- the row ends in the last character of the name
    have letters_ne : name.toList ≠ [] := by simpa using hne
    obtain ⟨front, last, letters⟩ : ∃ front last, name.toList = front ++ [last] :=
      ⟨_, _, (List.dropLast_concat_getLast letters_ne).symm⟩
    have last_word := hname last (by simp [letters])
    have last_row : (Conditional.ifdef name).text.toList =
        ('#' :: ("ifdef".toList ++ ' ' :: front)) ++ [last] := by
      simp [text_eq, letters]
    refine isLine_of_branch? (newline_not_mem_of_word hname) ?_ last_row
      (isSpace_of_isContinue last_word) (ne_of_isContinue last_word (by decide)) ?_
    · rw [text_eq]
      simp only [List.forall_mem_cons, List.forall_mem_append]
      exact ⟨by decide, List.all_eq_true.1 (by decide), by decide, plain_of_word hname⟩
    · have name_eq : wordAt name.toList = name := by
        rw [wordAt_of_word letters_ne hname, String.ofList_toList]
      rw [text_eq, branch?_of_word (by decide) (List.all_eq_true.1 (by decide)) (by decide),
        Conditional.branch]
      show some (BranchLine.first (.defined (wordAt (' ' :: name.toList)))) = _
      rw [(wordAt_blank _).1, name_eq]
  | otherwise =>
    have text_eq : Conditional.otherwise.text.toList = "#els".toList ++ ['e'] := by decide
    exact isLine_of_branch? trivial (List.all_eq_true.1 (by decide)) text_eq (by decide)
      (by decide) (by decide)
  | endif =>
    have text_eq : Conditional.endif.text.toList = "#endi".toList ++ ['f'] := by decide
    exact isLine_of_branch? trivial (List.all_eq_true.1 (by decide)) text_eq (by decide)
      (by decide) (by decide)

end Preprocessor

/-! ### Calls -/

namespace Lexical

/-- Some code leaves no quotation and no comment open. -/
def IsClosed (cs : List Char) : Prop :=
  (code.after cs).isCode = true

theorem isClosed_of_word {word : List Char} (h : ∀ c ∈ word, Identifier.isContinue c = true) :
    IsClosed word := by
  rw [IsClosed, (plain (plain_of_word h)).1]
  rfl

/-- Every byte of a literal stays in its quotation. -/
theorem after_cByte (b : UInt8) : (quoted '"').after (Text.cByte b) = quoted '"' := by
  have all_bytes : ∀ n < 256, (quoted '"').after (Text.cByte (UInt8.ofNat n)) = quoted '"' := by
    decide +kernel
  have this_byte := all_bytes b.toNat b.toNat_lt
  rwa [UInt8.ofNat_toNat] at this_byte

theorem isClosed_cLiteral (s : String) : IsClosed (Text.cLiteral s).toList := by
  have inside : ∀ bs : List UInt8, (quoted '"').after (bs.flatMap Text.cByte) = quoted '"' := by
    intro bs
    induction bs with
    | nil => rfl
    | cons b bs ih => rw [List.flatMap_cons, after_append, after_cByte, ih]
  rw [IsClosed, Text.cLiteral, String.toList_ofList, after_append, after_append]
  show (((quoted '"').after _).after ['"']).isCode = true
  rw [inside]
  rfl

/-- Closed parts with commas between them are closed. -/
theorem isClosed_intercalate {parts : List (List Char)} (h : ∀ part ∈ parts, IsClosed part) :
    IsClosed ([',', ' '].intercalate parts) := by
  induction parts with
  | nil => rfl
  | cons part rest ih =>
    have first := h part (List.mem_cons_self ..)
    have others := ih fun p hp => h p (List.mem_cons_of_mem _ hp)
    cases rest with
    | nil => simpa using first
    | cons next rest =>
      rw [List.intercalate_cons_cons, IsClosed, after_append, after_append, after_comma first]
      exact others

end Lexical

namespace ProbeCall

/-- The text is on one row, and leaves no quotation and no comment open. -/
structure IsArgument (a : String) : Prop where
  row : '\n' ∉ a.toList
  closed : Lexical.IsClosed a.toList

@[simp] theorem isArgument_cLiteral (s : String) : IsArgument (Text.cLiteral s) :=
  ⟨Text.newline_not_mem_cLiteral s, Lexical.isClosed_cLiteral s⟩

theorem isArgument_of_word {word : String} (h : ∀ c ∈ word.toList, Identifier.isContinue c = true) :
    IsArgument word :=
  ⟨newline_not_mem_of_word h, Lexical.isClosed_of_word h⟩

theorem isArgument_of_isIdentifier {name : String} (h : Identifier.isIdentifier name = true) :
    IsArgument name :=
  isArgument_of_word (Identifier.word_of_isIdentifier h).2

@[simp] theorem isArgument_documentationArgument (doc : Option String) :
    IsArgument (documentationArgument doc) := by
  cases doc with
  | none => exact isArgument_of_word (List.all_eq_true.1 (by decide))
  | some text => exact isArgument_cLiteral text

/-- Nothing in the arguments of the call goes on behind it. -/
def HasClosedArguments (c : ProbeCall) : Prop :=
  ∀ a ∈ c.arguments, IsArgument a

theorem exists_helper (c : ProbeCall) :
    ∃ rest, c.helper.toList = 'c' :: rest ∧
      ∀ d ∈ c.helper.toList, Identifier.isContinue d = true := by
  unfold helper
  split <;> exact ⟨_, rfl, List.all_eq_true.1 (by decide)⟩

/-- A call is a line of the program if all of its arguments end in it. -/
theorem isLine_call {c : ProbeCall} (h : c.HasClosedArguments) : (SourceLine.call c).IsLine := by
  obtain ⟨helper_rest, helper_eq, helper_word⟩ := c.exists_helper
  have all_closed : Lexical.IsClosed (", ".intercalate ("output" :: c.arguments)).toList := by
    rw [String.toList_intercalate]
    apply Lexical.isClosed_intercalate
    intro part hm
    obtain ⟨a, ha, rfl⟩ := List.mem_map.1 hm
    rcases List.mem_cons.1 ha with rfl | ha
    · rfl
    · exact (h a ha).closed
  generalize hjoined : (", ".intercalate ("output" :: c.arguments)).toList = joined at all_closed
  have text_eq : c.text.toList =
      ("  ".toList ++ c.helper.toList ++ ['(']) ++ joined ++ [')', ';'] := by
    simp [text, ← hjoined]
  refine ⟨isRow_call fun a ha => (h a ha).row, ?_, ?_, ?_⟩
  · have last_row : c.text.toList =
        (("  ".toList ++ c.helper.toList ++ ['(']) ++ joined ++ [')']) ++ [';'] := by
      rw [text_eq, List.append_assoc _ [')'] [';']]
      rfl
    rw [SourceLine.text_call, last_row, continued?_append_singleton (by decide) (by decide)]
  · have in_front : Lexical.code.after ("  ".toList ++ c.helper.toList ++ ['(']) = .code := by
      refine (Lexical.plain ?_).1
      have indentation : ∀ d ∈ "  ".toList, Lexical.isPlain d = true :=
        List.all_eq_true.1 (by decide)
      have parenthesis : ∀ d ∈ ['('], Lexical.isPlain d = true :=
        List.forall_mem_singleton.2 (by decide)
      simp only [List.forall_mem_append]
      exact ⟨⟨indentation, plain_of_word helper_word⟩, parenthesis⟩
    have behind : (Lexical.code.after joined).after [')', ';'] = .code := by
      rw [Lexical.after_cons, Lexical.step_of_isPlain all_closed (by decide)]
      rfl
    rw [SourceLine.text_call, commentAfter, startAt, if_neg (by decide), text_eq,
      Lexical.after_append, Lexical.after_append, in_front, behind]
    rfl
  · -- the first character that is no blank belongs to the helper
    have first : ∃ rest, c.text.toList = ' ' :: ' ' :: 'c' :: rest := by
      rw [text_eq, helper_eq]
      exact ⟨_, rfl⟩
    obtain ⟨rest, first⟩ := first
    have no_branch : branch? (Lexical.code.uncommented c.text.toList) = none := by
      rw [first]
      rfl
    rw [SourceLine.text_call, readRow, startAt, if_neg (by decide), no_branch]
    rfl

end ProbeCall

end ForeignBindings
