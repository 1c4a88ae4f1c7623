import ForeignBindings.Proofs.Items

/-!
# Helper calls in a text

The helper calls that are left of a text once its conditionals are resolved, and where the calls
that start and end something stand. A call is read by its row, in which comments and quotations call
nothing.

* `CallsAmong` says which calls some rows are, in their order; all other rows call no helper.
* `Brings` says what rows come down to in a setting, and that no start and no end is inside of a
  conditional. It composes along `++` (`Brings.append`).
* `Brings.of_calls`, `Brings.of_yields` and `Brings.of_resolve` are the three kinds of rows that a
  program is put together from.
-/

namespace ForeignBindings

open Preprocessor SourceLine

/-! ## Rows of a text -/

namespace Text

theorem extendFirst_append (c : Char) {ls : List (List Char)} (h : ls ≠ [])
    (more : List (List Char)) : extendFirst c (ls ++ more) = extendFirst c ls ++ more := by
  cases ls with
  | nil => exact absurd rfl h
  | cons l ls => rfl

theorem rowsOf_cons_of_ne {c : Char} (h : c ≠ '\n') (cs : List Char) :
    rowsOf (c :: cs) = extendFirst c (rowsOf cs) := by
  rw [rowsOf]
  intro hc
  exact absurd hc h

theorem rowsOf_ne_nil {cs : List Char} (h : cs ≠ []) : rowsOf cs ≠ [] := by
  cases cs with
  | nil => exact absurd rfl h
  | cons c cs =>
    by_cases newline : c = '\n'
    · subst newline
      simp [rowsOf]
    · rw [rowsOf_cons_of_ne newline]
      cases rowsOf cs <;> simp [extendFirst]

/-- A newline is between two rows, so a text can be cut behind it. -/
theorem rowsOf_append_at_newline (cs ds : List Char) :
    rowsOf (cs ++ '\n' :: ds) = rowsOf (cs ++ ['\n']) ++ rowsOf ds := by
  induction cs with
  | nil => rfl
  | cons c cs ih =>
    by_cases newline : c = '\n'
    · subst newline
      show [] :: rowsOf (cs ++ '\n' :: ds) = [] :: rowsOf (cs ++ ['\n']) ++ rowsOf ds
      rw [ih]
      rfl
    · have some_row : rowsOf (cs ++ ['\n']) ≠ [] := rowsOf_ne_nil (by simp)
      rw [List.cons_append, List.cons_append, rowsOf_cons_of_ne newline, rowsOf_cons_of_ne newline,
        ih, extendFirst_append c some_row]

end Text

namespace SourceLine

/-- The line is text that is given as it stands. -/
def isPlain : SourceLine → Bool
  | .plain _ => true
  | _ => false

theorem textRows_cons (l : SourceLine) (ls : List SourceLine) :
    textRows (l :: ls) = Text.rowsOf (l.text.toList ++ ['\n']) ++ textRows ls := by
  have cut := Text.rowsOf_append_at_newline l.text.toList (render ls).toList
  rw [textRows, textRows, render_cons, ← cut]
  simp

theorem textRows_append (ls ls' : List SourceLine) :
    textRows (ls ++ ls') = textRows ls ++ textRows ls' := by
  induction ls with
  | nil => rfl
  | cons l ls ih => rw [List.cons_append, textRows_cons, textRows_cons, ih, List.append_assoc]

end SourceLine

/-! ## Rows that call helpers -/

namespace ProbeCall

/-- The call starts or ends something: a module, a record or an enumeration. -/
def isBracket : ProbeCall → Bool
  | recordBegin .. | recordEnd | enumBegin .. | enumEnd | namespaceBegin .. | namespaceEnd => true
  | _ => false

/-- The helpers that start or end something. -/
def bracketHelpers : List String :=
  ["cgrovel_struct_begin", "cgrovel_union_begin", "cgrovel_record_end", "cgrovel_enum_begin",
    "cgrovel_enum_end", "cgrovel_namespace_begin", "cgrovel_namespace_end"]

theorem isBracket_eq (c : ProbeCall) : c.isBracket = bracketHelpers.contains c.helper := by
  cases c with
  | constant type name native doc => cases type <;> rfl
  | recordBegin kind name native doc => cases kind <;> rfl
  | slot kind record field name type count => cases kind <;> cases count <;> rfl
  | _ => rfl

theorem paren_not_mem_helper (c : ProbeCall) : '(' ∉ c.helper.toList := by
  unfold helper
  split <;> decide

/-- The text of a call says which helper it calls. -/
theorem helper_eq_of_text_eq {c c' : ProbeCall} (h : c.text = c'.text) : c.helper = c'.helper := by
  -- the helper is what stands between two blanks and the first parenthesis
  have before_paren : ∀ x : ProbeCall,
      (x.text.toList.drop 2).takeWhile (fun d => d != '(') = x.helper.toList := by
    intro x
    have all_before : ∀ d ∈ x.helper.toList, (d != '(') = true := by
      intro d hd
      rw [bne_iff_ne]
      rintro rfl
      exact x.paren_not_mem_helper hd
    have cut : x.text.toList.drop 2 = x.helper.toList ++ ('(' ::
        ((", ".intercalate ("output" :: x.arguments)).toList ++ ");".toList)) := by
      simp [text]
    rw [cut, List.takeWhile_append_of_pos all_before, List.takeWhile_cons_of_neg (by decide),
      List.append_nil]
  apply String.toList_injective
  rw [← before_paren c, ← before_paren c', h]

end ProbeCall

/-- The row has a call of a helper in its code, or the front of one: the name of a helper, and up to
blanks a parenthesis or the end of the row. -/
def CallsHelper (row : List Char) : Prop :=
  ∃ (c : ProbeCall) (before blanks after : List Char),
    Lexical.code.bare row = before ++ c.helper.toList ++ blanks ++ after ∧
      (∀ d ∈ before.getLast?, Identifier.isContinue d = false) ∧
      (∀ d ∈ blanks, isSpace d = true) ∧ ∀ d ∈ after.head?, d = '('

theorem callsHelper_call (c : ProbeCall) : CallsHelper c.text.toList := by
  obtain ⟨-, -, helper_word⟩ := c.exists_helper
  generalize harguments : (", ".intercalate ("output" :: c.arguments)).toList ++ ");".toList =
    arguments
  have text_eq : c.text.toList = "  ".toList ++ c.helper.toList ++ ['('] ++ arguments := by
    simp [ProbeCall.text, ← harguments]
  have front_plain : ∀ d ∈ "  ".toList ++ c.helper.toList ++ ['('], Lexical.isPlain d = true := by
    simp only [List.forall_mem_append]
    exact ⟨⟨List.all_eq_true.1 (by decide), plain_of_word helper_word⟩,
      List.forall_mem_singleton.2 (by decide)⟩
  refine ⟨c, "  ".toList, [], '(' :: Lexical.code.bare arguments, ?_, ?_, ?_, ?_⟩
  · rw [text_eq, Lexical.bare_append_of_plain front_plain]
    simp
  · rintro d ⟨⟩
    decide
  · intro d hd
    cases hd
  · intro d hd
    cases hd
    rfl

/-- The names of all helpers have an underscore in them. -/
theorem not_callsHelper_of_no_underscore {row : List Char} (h : '_' ∉ row) :
    ¬ CallsHelper row := by
  rintro ⟨c, before, blanks, after, code_eq, -⟩
  have underscore : '_' ∈ c.helper.toList := by
    unfold ProbeCall.helper
    split <;> decide
  have in_code : '_' ∈ Lexical.code.bare row := by simp [code_eq, underscore]
  exact h (Lexical.mem_of_mem_bare (by decide) (by decide) in_code)

/-- The helper calls among some rows are these, in this order. All other rows call no helper. -/
inductive CallsAmong : List (List Char) → List ProbeCall → Prop
  | nil : CallsAmong [] []
  | call (c : ProbeCall) {rows : List (List Char)} {calls : List ProbeCall}
    (rest : CallsAmong rows calls) : CallsAmong (c.text.toList :: rows) (c :: calls)
  | other {row : List Char} (h : ¬ CallsHelper row) {rows : List (List Char)}
    {calls : List ProbeCall} (rest : CallsAmong rows calls) : CallsAmong (row :: rows) calls

theorem CallsAmong.append {rows rows' : List (List Char)} {calls calls' : List ProbeCall}
    (h : CallsAmong rows calls) (h' : CallsAmong rows' calls') :
    CallsAmong (rows ++ rows') (calls ++ calls') := by
  induction h with
  | nil => exact h'
  | call c rest ih => exact .call c ih
  | other hrow rest ih => exact .other hrow ih

/-- The first row is a call, or it calls no helper. -/
theorem callsAmong_cons {row : List Char} {rows : List (List Char)} {calls : List ProbeCall}
    (h : CallsAmong (row :: rows) calls) :
    (∃ c rest, row = c.text.toList ∧ calls = c :: rest ∧ CallsAmong rows rest) ∨
      (¬ CallsHelper row ∧ CallsAmong rows calls) := by
  generalize hall : row :: rows = all at h
  cases h with
  | nil => cases hall
  | call c rest =>
    cases hall
    exact .inl ⟨c, _, rfl, rfl, rest⟩
  | other hrow rest =>
    cases hall
    exact .inr ⟨hrow, rest⟩

theorem callsAmong_none {rows : List (List Char)} (h : ∀ row ∈ rows, ¬ CallsHelper row) :
    CallsAmong rows [] := by
  induction rows with
  | nil => exact .nil
  | cons row rows ih =>
    have rest := ih fun r hr => h r (List.mem_cons_of_mem _ hr)
    exact .other (h row (List.mem_cons_self ..)) rest

theorem callsAmong_ofCalls (calls : List ProbeCall) :
    CallsAmong (rows (ofCalls calls)) calls := by
  induction calls with
  | nil => exact .nil
  | cons c calls ih => exact .call c ih

/-! ## Rows with their calls -/

/-- The rows are complete, and wherever they stand, they come down to rows with these calls among
them. Where a row starts or ends something, all conditionals before it are closed. -/
structure Brings (setting : Setting) (rows : List (List Char)) (calls : List ProbeCall) : Prop where
  complete : IsComplete rows
  yields : ∃ kept, Yields setting (read rows) kept ∧ CallsAmong kept calls
  outside : ∀ before (c : ProbeCall) after, read rows = before ++ .text c.text.toList :: after →
    c.isBracket = true → ∃ kept, Yields setting before kept

namespace Brings

variable {setting : Setting} {rows rows' : List (List Char)}
  {calls calls' : List ProbeCall}

theorem nil : Brings setting [] [] where
  complete := .nil
  yields := ⟨[], .nil, .nil⟩
  outside := by
    intro before c after h
    change [] = before ++ _ at h
    simp at h

theorem append (h : Brings setting rows calls) (h' : Brings setting rows' calls') :
    Brings setting (rows ++ rows') (calls ++ calls') where
  complete := h.complete.append h'.complete
  yields := by
    obtain ⟨kept, hyields, hamong⟩ := h.yields
    obtain ⟨kept', hyields', hamong'⟩ := h'.yields
    rw [read_append h.complete]
    exact ⟨kept ++ kept', hyields.append hyields', hamong.append hamong'⟩
  outside := by
    intro before c after heq hc
    rw [read_append h.complete] at heq
    rcases List.append_eq_append_iff.1 heq with ⟨more, rfl, hmore⟩ | ⟨more, hfirst, hmore⟩
    · -- the row is one of the later ones, and all the earlier ones are before it
      obtain ⟨kept, hyields, -⟩ := h.yields
      obtain ⟨kept', hyields'⟩ := h'.outside more c after hmore hc
      exact ⟨kept ++ kept', hyields.append hyields'⟩
    · cases more with
      | nil =>
        obtain ⟨kept, hyields, -⟩ := h.yields
        rw [hfirst, List.append_nil] at hyields
        exact ⟨kept, hyields⟩
      | cons row more =>
        cases hmore
        exact h.outside before c more hfirst hc

theorem flatMap {α : Type} {xs : List α} {rowsOf : α → List (List Char)}
    {callsOf : α → List ProbeCall} (h : ∀ x ∈ xs, Brings setting (rowsOf x) (callsOf x)) :
    Brings setting (xs.flatMap rowsOf) (xs.flatMap callsOf) := by
  induction xs with
  | nil => exact nil
  | cons x xs ih =>
    have hx := h x (List.mem_cons_self ..)
    have hxs := ih fun y hy => h y (List.mem_cons_of_mem _ hy)
    rw [List.flatMap_cons, List.flatMap_cons]
    exact hx.append hxs

/-- One call, which depends on no macro. -/
theorem of_call {c : ProbeCall} (h : c.HasClosedArguments) :
    Brings setting (textRows [.call c]) [c] := by
  have this_line : ∀ l ∈ [SourceLine.call c], l.IsLine := by
    intro l hl
    rw [List.mem_singleton.1 hl]
    exact ProbeCall.isLine_call h
  obtain ⟨complete, lines⟩ := read_textRows this_line
  refine ⟨complete, ⟨[c.text.toList], ?_, .call c .nil⟩, ?_⟩
  · rw [lines]
    exact Yields.text _
  · intro before c' after heq hc
    rw [lines] at heq
    -- nothing stands before the only line
    cases before with
    | nil => exact ⟨[], .nil⟩
    | cons first before => simp at heq

/-- Calls that depend on no macro. -/
theorem of_calls {calls : List ProbeCall} (h : ∀ c ∈ calls, c.HasClosedArguments) :
    Brings setting (textRows (ofCalls calls)) calls := by
  induction calls with
  | nil => exact nil
  | cons c calls ih =>
    have first : Brings setting (textRows [.call c]) [c] := of_call (h c (List.mem_cons_self ..))
    have rest := ih fun d hd => h d (List.mem_cons_of_mem _ hd)
    have both := first.append rest
    rw [← textRows_append] at both
    exact both

/-- Rows that close all their conditionals themselves, and have no calls in them. -/
theorem of_resolve {kept : List (List Char)} (hcomplete : IsComplete rows)
    (h : resolve setting (read rows) = some kept)
    (hrows : ∀ row, .text row ∈ read rows → ¬ CallsHelper row) : Brings setting rows [] where
  complete := hcomplete
  yields := ⟨kept, yields_iff.2 h, callsAmong_none fun r hr => hrows r (mem_of_resolve h r hr)⟩
  outside := by
    intro before c after heq
    -- no row is a call, let alone one that starts or ends something
    have in_rows : .text c.text.toList ∈ read rows := by
      rw [heq]
      simp
    exact absurd (callsHelper_call c) (hrows _ in_rows)

/-- Lines that come down to calls, and that start and end nothing. -/
theorem of_yields {lines : List SourceLine} (hlines : ∀ l ∈ lines, l.IsLine)
    (h : Yields setting (codeLines lines) (SourceLine.rows (ofCalls calls)))
    (hkinds : ∀ l ∈ lines, (∃ d, l = .conditional d) ∨ ∃ c, l = .call c ∧ c.isBracket = false) :
    Brings setting (textRows lines) calls := by
  obtain ⟨complete, read_eq⟩ := read_textRows hlines
  refine ⟨complete, ⟨_, by rwa [read_eq], callsAmong_ofCalls calls⟩, ?_⟩
  intro before c after heq hc
  have mem : .text c.text.toList ∈ codeLines lines := by
    rw [← read_eq, heq]
    simp
  obtain ⟨l, hl, line_eq⟩ := List.mem_map.1 mem
  rcases hkinds l hl with ⟨d, rfl⟩ | ⟨c', rfl, hc'⟩
  · cases line_eq
  · -- a call with the same text is a call of the same helper
    have same_text : c'.text.toList = c.text.toList := Line.text.inj line_eq
    have same_helper := ProbeCall.helper_eq_of_text_eq (String.toList_injective same_text)
    rw [ProbeCall.isBracket_eq, same_helper, ← ProbeCall.isBracket_eq, hc] at hc'
    cases hc'

end Brings

end ForeignBindings
