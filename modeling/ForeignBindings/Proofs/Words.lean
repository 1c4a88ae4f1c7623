import ForeignBindings.Proofs.Grammar
import ForeignBindings.Proofs.Splices
import ForeignBindings.Proofs.Tiling

/-!
# Words of a text

The names that directives mention are written as words, or as parts of words, so no blank and no
parenthesis stands in one. Strings may hold anything, but they are no names.

* `IsWordText` says that a text is made of the characters of words, and `Sexp.IsLexed` that all
  words of an element are.
* `Form.symbols` are the symbols in a form, at any depth.
* `isLexed_of_directivesOf` says that the names in all symbols of a specification are made of the
  characters of words.
-/

namespace ForeignBindings.Spec

/-- The text is made of characters that a word may have in it. -/
def IsWordText (text : String) : Prop :=
  ∀ c ∈ text.toList, IsWordCharacter c

/-! ## Tokens of a list -/

/-- A token that is no parenthesis and no string comes from a run of word characters. -/
theorem exists_word_of_mem_lexemes {text : String} {l : Lexeme} (hl : l ∈ lexemes text)
    {token : Token} (htoken : l.token = .ok token)
    (plain : token ≠ .open ∧ token ≠ .close ∧ ∀ s, token ≠ .string s) :
    ∃ word : List Char, (∀ c ∈ word, IsWordCharacter c) ∧ Token.ofWord word = .ok token := by
  have tiled : Tiled [] text.toList (lexemes text) := tiled_iff.2 rfl
  obtain ⟨earlier, later, split⟩ := List.append_of_mem hl
  obtain ⟨front, back, -, -, lexeme, -⟩ := tiled.place split
  generalize l.spelling = spelling at lexeme
  rw [htoken] at lexeme
  generalize htoken' : (Except.ok token : Except LexicalFault Token) = token' at lexeme
  cases lexeme with
  | «open» => exact absurd (Except.ok.inj htoken') plain.1
  | close => exact absurd (Except.ok.inj htoken') plain.2.1
  | string h => exact absurd (Except.ok.inj htoken') (plain.2.2 _)
  | unclosed => cases htoken'
  | word hword hrest => exact ⟨_, hword, rfl⟩

/-- A run of word characters that is a word is that word, and one that is an integer is read as
it. -/
theorem Token.ofWord_eq_ok {word : List Char} {token : Token} (h : ofWord word = .ok token) :
    token = .word (String.ofList word) ∨
      ∃ n, Integer.ofWord? word = some n ∧ token = .integer n := by
  unfold ofWord at h
  split at h
  · rename_i n hn
    cases h
    exact .inr ⟨n, hn, rfl⟩
  · split at h
    · cases h
    · cases h
      exact .inl rfl

/-- The words among the lexemes of a text are made of the characters of words. -/
theorem isWordText_of_mem_lexemes {text word : String} {l : Lexeme} (hl : l ∈ lexemes text)
    (htoken : l.token = .ok (.word word)) : IsWordText word := by
  obtain ⟨cs, hcs, hword⟩ := exists_word_of_mem_lexemes hl htoken ⟨nofun, nofun, nofun⟩
  rcases Token.ofWord_eq_ok hword with same | ⟨n, -, other⟩
  · cases same
    rw [IsWordText, String.toList_ofList]
    exact hcs
  · cases other

namespace Sexp

theorem mem_tokensOfAll {t : Token × Option Nat} {ss : List Sexp} :
    t ∈ tokensOfAll ss ↔ ∃ s ∈ ss, t ∈ s.tokens := by
  induction ss with
  | nil => simp [tokensOfAll]
  | cons s ss ih => simp [tokensOfAll, ih]

/-- What is read of a text has no other tokens than the lexemes of the text. -/
theorem exists_lexeme_of_mem_tokens {text : String} {lists : List Sexp}
    (h : ofText text = .ok lists) {s : Sexp} (hs : s ∈ lists) {token : Token} {line? : Option Nat}
    (htoken : (token, line?) ∈ s.tokens) : ∃ l ∈ lexemes text, l.token = .ok token := by
  have kept := spelledAll_iff.1 (spelledAll_of_ofLexemes h).1
  have among : Except.ok (token, line?) ∈ (lexemes text).map Lexeme.kept := by
    rw [kept]
    exact List.mem_map_of_mem (mem_tokensOfAll.2 ⟨s, hs, htoken⟩)
  obtain ⟨l, hl, hkept⟩ := List.mem_map.1 among
  exact ⟨l, hl, (Lexeme.kept_eq_ok.1 hkept).1⟩

/-- The elements of a list have no other tokens than the list. -/
theorem mem_tokens_of_mem {items : List Sexp} {line : Nat} {s : Sexp} (hs : s ∈ items)
    {t : Token × Option Nat} (ht : t ∈ s.tokens) : t ∈ (list items line).tokens := by
  rw [tokens, List.mem_append, List.mem_cons]
  exact .inl (.inr (mem_tokensOfAll.2 ⟨s, hs, ht⟩))

section Splices

variable {t : Token × Option Nat}

theorem mem_tokens_of_mem_untagged {s x : Sexp} (hx : x ∈ s.spliced) (ht : t ∈ x.tokens)
    (untagged : ∀ tag arguments line, s ≠ .list (.word tag :: arguments) line) : t ∈ s.tokens := by
  rw [spliced_of_untagged untagged, List.mem_singleton] at hx
  rw [← hx]
  exact ht

mutual

/-- A splice has no other tokens than the element. -/
theorem mem_tokens_of_mem_spliced : ∀ {s x : Sexp}, x ∈ s.spliced → t ∈ x.tokens → t ∈ s.tokens
  | .list (.word tag :: arguments) line, x, hx, ht => by
    rw [spliced] at hx
    split at hx
    · obtain ⟨s, hs, hst⟩ := exists_of_mem_splicedAll hx ht
      exact mem_tokens_of_mem (List.mem_cons_of_mem _ hs) hst
    · rw [List.mem_singleton.1 hx] at ht
      exact ht
  | .list [] _, _, hx, ht => mem_tokens_of_mem_untagged hx ht nofun
  | .list (.string _ :: _) _, _, hx, ht => mem_tokens_of_mem_untagged hx ht nofun
  | .list (.integer _ :: _) _, _, hx, ht => mem_tokens_of_mem_untagged hx ht nofun
  | .list (.list _ _ :: _) _, _, hx, ht => mem_tokens_of_mem_untagged hx ht nofun
  | .word _, _, hx, ht => mem_tokens_of_mem_untagged hx ht nofun
  | .string _, _, hx, ht => mem_tokens_of_mem_untagged hx ht nofun
  | .integer _, _, hx, ht => mem_tokens_of_mem_untagged hx ht nofun

theorem exists_of_mem_splicedAll : ∀ {ss : List Sexp} {x : Sexp}, x ∈ splicedAll ss →
    t ∈ x.tokens → ∃ s ∈ ss, t ∈ s.tokens
  | [], x, hx, ht => by
    rw [splicedAll] at hx
    cases hx
  | s :: ss, x, hx, ht => by
    rw [splicedAll] at hx
    rcases List.mem_append.1 hx with hx | hx
    · exact ⟨s, List.mem_cons_self .., mem_tokens_of_mem_spliced hx ht⟩
    · obtain ⟨s', hs', ht'⟩ := exists_of_mem_splicedAll hx ht
      exact ⟨s', List.mem_cons_of_mem _ hs', ht'⟩

end

end Splices

/-! ## Words of a list -/

/-- The words of the element are made of the characters of words. -/
def IsLexed (s : Sexp) : Prop :=
  ∀ text line?, (Token.word text, line?) ∈ s.tokens → IsWordText text

theorem isLexed_of_mem_splicedAll {text : String} {lists : List Sexp}
    (h : ofText text = .ok lists) : ∀ s ∈ splicedAll lists, s.IsLexed := by
  intro s hs word line? hword
  obtain ⟨list, hlist, htoken⟩ := exists_of_mem_splicedAll hs hword
  obtain ⟨l, hl, htoken⟩ := exists_lexeme_of_mem_tokens h hlist htoken
  exact isWordText_of_mem_lexemes hl htoken

theorem IsLexed.of_mem {items : List Sexp} {line : Nat} (h : (list items line).IsLexed) :
    ∀ s ∈ items, s.IsLexed :=
  fun _ hs word line? hword => h word line? (mem_tokens_of_mem hs hword)

theorem IsLexed.word {text : String} (h : (word text).IsLexed) : IsWordText text :=
  h text none (by rw [tokens]; exact List.mem_singleton_self _)

end Sexp

/-! ## Symbols of a form -/

namespace Form

mutual

/-- The symbols in a form, at any depth. -/
def symbols : Form → List Symbol
  | symbol s => [s]
  | list items => symbolsOfAll items
  | _ => []

/-- The symbols in some forms. -/
def symbolsOfAll : List Form → List Symbol
  | [] => []
  | f :: fs => symbols f ++ symbolsOfAll fs

end

theorem mem_symbolsOfAll {s : Symbol} {fs : List Form} :
    s ∈ symbolsOfAll fs ↔ ∃ f ∈ fs, s ∈ f.symbols := by
  induction fs with
  | nil => simp [symbolsOfAll]
  | cons f fs ih => simp [symbolsOfAll, ih]

end Form

/-- The names of the symbol are made of the characters of words. -/
structure Symbol.IsLexed (s : Symbol) : Prop where
  name : IsWordText s.name
  scope : ∀ scope ∈ s.scope, IsWordText scope

/-- A word as a form mentions parts of the word, and perhaps the namespace in force. -/
theorem isLexed_of_wordReads {scope : Option String} (hscope : ∀ ns ∈ scope, IsWordText ns)
    {word : String} (hword : IsWordText word) {f : Form} (h : WordReads scope word f) :
    ∀ s ∈ f.symbols, s.IsLexed := by
  intro s hs
  cases h with
  | keyword hk => cases hs
  | qualified hk hq =>
    obtain ⟨-, -, spelled, -⟩ := hq
    rw [List.mem_singleton.1 hs]
    rw [spelled] at hword
    refine ⟨fun c hc => hword c (by simp [hc]), ?_⟩
    rintro _ ⟨⟩ c hc
    exact hword c (by simp [hc])
  | plain hk hq =>
    rw [List.mem_singleton.1 hs]
    exact ⟨hword, hscope⟩

namespace Sexp

mutual

/-- An argument mentions words, or parts of them. -/
theorem isLexed_of_mem_toForm {scope : Option String} (hscope : ∀ ns ∈ scope, IsWordText ns) :
    ∀ {s : Sexp}, s.IsLexed → ∀ x ∈ (s.toForm scope).symbols, x.IsLexed
  | .word text, h, x, hx => by
    rw [toForm] at hx
    exact isLexed_of_wordReads hscope h.word (wordReads_iff.2 rfl) x hx
  | .string text, h, x, hx => by
    rw [toForm] at hx
    cases hx
  | .integer n, h, x, hx => by
    rw [toForm] at hx
    cases hx
  | .list items line, h, x, hx => by
    rw [toForm] at hx
    exact isLexed_of_mem_toForms hscope h.of_mem x hx

theorem isLexed_of_mem_toForms {scope : Option String} (hscope : ∀ ns ∈ scope, IsWordText ns) :
    ∀ {ss : List Sexp}, (∀ s ∈ ss, s.IsLexed) →
      ∀ x ∈ Form.symbolsOfAll (toForms scope ss), x.IsLexed
  | [], h, x, hx => by
    rw [toForms] at hx
    cases hx
  | s :: ss, h, x, hx => by
    rw [toForms, Form.symbolsOfAll, List.mem_append] at hx
    rcases hx with hx | hx
    · exact isLexed_of_mem_toForm hscope (h s (List.mem_cons_self ..)) x hx
    · exact isLexed_of_mem_toForms hscope (fun t ht => h t (List.mem_cons_of_mem _ ht)) x hx

end

end Sexp

/-! ## Whole texts -/

/-- The names in the symbols of the directive are made of the characters of words. -/
def Directive.IsLexed (d : Directive) : Prop :=
  ∀ s ∈ Form.symbolsOfAll d.arguments, s.IsLexed

/-- A directive mentions words of the element that gives it, which are also all that it can bring
into force. -/
theorem Sexp.Gives.isLexed {scope : Option String} (hscope : ∀ ns ∈ scope, IsWordText ns)
    {s : Sexp} {d : Directive} (h : s.Gives scope d) (hs : s.IsLexed) :
    d.IsLexed ∧ ∀ ns ∈ s.switchesTo?, IsWordText ns := by
  cases h with
  | switch line hcolon hplain =>
    rename_i name
    have name_word : IsWordText name := (hs.of_mem (.word name) (by simp)).word
    constructor
    · intro x hx
      rw [List.mem_singleton.1 hx]
      exact ⟨name_word, nofun⟩
    · rintro ns hns
      cases hns
      exact name_word
  | plain line hcolon hne hreads =>
    constructor
    · rw [Sexp.readsAll_iff.1 hreads]
      exact isLexed_of_mem_toForms hscope fun t ht => hs.of_mem t (List.mem_cons_of_mem _ ht)
    · rw [Sexp.switchesTo?_of_ne hne]
      exact nofun

theorem GivesInTurn.isLexed {scope after : Option String} {ss : List Sexp} {ds : List Directive}
    (h : GivesInTurn scope ss ds after) (hscope : ∀ ns ∈ scope, IsWordText ns)
    (hss : ∀ s ∈ ss, s.IsLexed) : ∀ d ∈ ds, d.IsLexed := by
  induction h with
  | nil => exact fun d hd => absurd hd List.not_mem_nil
  | cons first rest ih =>
    rename_i scope after s d ss ds
    obtain ⟨first_lexed, switched⟩ := first.isLexed hscope (hss s (List.mem_cons_self ..))
    -- what is in force for the rest is the namespace of the switch, or the one before
    have next_scope : ∀ ns ∈ s.switchesTo?.or scope, IsWordText ns := by
      cases hswitch : s.switchesTo? with
      | none => exact hscope
      | some name =>
        rw [hswitch] at switched
        exact switched
    have others := ih next_scope fun t ht => hss t (List.mem_cons_of_mem _ ht)
    intro d' hd
    rcases List.mem_cons.1 hd with rfl | hd
    · exact first_lexed
    · exact others d' hd

/-- **Names of a text.** The names in all symbols that the directives of a text mention are made of
the characters of words. -/
theorem isLexed_of_directivesOf {text : String} {ds : List Directive}
    (h : directivesOf text = .ok ds) : ∀ d ∈ ds, d.IsLexed := by
  obtain ⟨lists, after, hlists, hturn⟩ := directivesOf_eq_ok.1 h
  exact hturn.isLexed nofun (Sexp.isLexed_of_mem_splicedAll hlists)

/-- A name has no newline in it, whatever the text. -/
theorem IsWordText.newline_not_mem {text : String} (h : IsWordText text) : '\n' ∉ text.toList :=
  fun newline => absurd (h _ newline).1 (by decide)

end ForeignBindings.Spec
