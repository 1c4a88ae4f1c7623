import ForeignBindings.Proofs.Brackets
import ForeignBindings.Proofs.Sections
import ForeignBindings.Proofs.Validity

/-!
# The calls of a session

What a probe prints is a word: items, and then modules with items in them. Records and enumerations
have their parts between a start and an end, modules have items there, and modules do not nest.
Starts and ends come from entries that may be far apart, so this is a property of whole sessions.

* `IsItem`, `AreItems` and `IsWord` are the grammar of words.
* `Entry.calls` are the calls of one entry under a set of macros, and `Entry.brings_calls` says that
  its lines come down to them.
* `Draft.Given` is a session, which goes on where an entry fails.
* `Draft.session_word` says that what a session has written is a word in every setting, whatever
  macros are defined and whatever other conditions come to.
-/

namespace ForeignBindings

open Spec Preprocessor SourceLine

/-! ## Words -/

/-- The call prints a slot of a record. -/
def ProbeCall.IsSlot (c : ProbeCall) : Prop :=
  ∃ kind record field name type count, c = .slot kind record field name type count

/-- The call prints a member of an enumeration, or reports one as missing. -/
def ProbeCall.IsMember (c : ProbeCall) : Prop :=
  (∃ name native doc, c = .enumMember name native doc) ∨ ∃ name, c = .missing name

/-- The calls of one item. -/
inductive IsItem : List ProbeCall → Prop
  | constant (type : NumberType) (name native : String) (doc : Option String) :
    IsItem [.constant type name native doc]
  | missing (name : String) : IsItem [.missing name]
  | intAlias (name native : String) (doc : Option String) : IsItem [.intAlias name native doc]
  | record (kind : Layout) (name native : String) (doc : Option String) {slots : List ProbeCall}
    (h : ∀ c ∈ slots, c.IsSlot) :
    IsItem (.recordBegin kind name native doc :: slots ++ [.recordEnd])
  | enumeration (name base : String) (doc : Option String) {members : List ProbeCall}
    (h : ∀ c ∈ members, c.IsMember) :
    IsItem (.enumBegin name base doc :: members ++ [.enumEnd])

/-- The calls of items, one after the other. -/
inductive AreItems : List ProbeCall → Prop
  | nil : AreItems []
  | cons {item rest : List ProbeCall} (first : IsItem item) (others : AreItems rest) :
    AreItems (item ++ rest)

/-- The calls of one module, with items in it and no module. -/
inductive IsModule : List ProbeCall → Prop
  | mk (name : String) {items : List ProbeCall} (h : AreItems items) :
    IsModule (.namespaceBegin name :: items ++ [.namespaceEnd])

/-- The calls of items, and then of modules. -/
def IsWord (calls : List ProbeCall) : Prop :=
  ∃ (items : List ProbeCall) (modules : List (List ProbeCall)),
    calls = items ++ modules.flatten ∧ AreItems items ∧ ∀ m ∈ modules, IsModule m

namespace AreItems

variable {calls calls' : List ProbeCall}

theorem append (h : AreItems calls) (h' : AreItems calls') : AreItems (calls ++ calls') := by
  induction h with
  | nil => exact h'
  | cons first others ih =>
    rw [List.append_assoc]
    exact .cons first ih

theorem of_item (h : IsItem calls) : AreItems calls := by
  have alone : AreItems (calls ++ []) := .cons h .nil
  rwa [List.append_nil] at alone

theorem flatMap {α : Type} {xs : List α} {callsOf : α → List ProbeCall}
    (h : ∀ x ∈ xs, AreItems (callsOf x)) : AreItems (xs.flatMap callsOf) := by
  induction xs with
  | nil => exact .nil
  | cons x xs ih =>
    have first := h x (List.mem_cons_self ..)
    have rest := ih fun y hy => h y (List.mem_cons_of_mem _ hy)
    rw [List.flatMap_cons]
    exact first.append rest

end AreItems

/-- No item starts with an end. -/
theorem AreItems.head_ne_enumEnd {c : ProbeCall} {cs : List ProbeCall} (h : AreItems (c :: cs)) :
    c.helper ≠ ProbeCall.enumEnd.helper := by
  generalize hcalls : c :: cs = calls at h
  cases h with
  | nil => cases hcalls
  | cons first others =>
    cases first with
    | constant type =>
      cases hcalls
      cases type <;> simp [ProbeCall.helper]
    | missing name | intAlias name | enumeration name =>
      cases hcalls
      simp [ProbeCall.helper]
    | record kind =>
      cases hcalls
      cases kind <;> simp [ProbeCall.helper]

theorem IsWord.head_ne_enumEnd {c : ProbeCall} {cs : List ProbeCall} (h : IsWord (c :: cs)) :
    c.helper ≠ ProbeCall.enumEnd.helper := by
  obtain ⟨items, modules, heq, hitems, hmodules⟩ := h
  cases items with
  | cons first items =>
    cases heq
    exact hitems.head_ne_enumEnd
  | nil =>
    cases modules with
    | nil => cases heq
    | cons m modules =>
      -- without items in front, a word starts with a module
      obtain ⟨name, -⟩ := hmodules m (List.mem_cons_self ..)
      cases heq
      simp [ProbeCall.helper]

/-! ## The calls of an entry -/

/-- The calls for a record. They depend on no macro. -/
def Record.calls (r : Record) (current : Option String) : List ProbeCall :=
  .recordBegin r.kind r.name r.native r.documentation ::
    r.slots.map (fun s => .slot r.kind r.native s.native s.name (s.type.path current) s.count) ++
    [.recordEnd]

/-- The calls for an entry in a module, or at the root. -/
def Entry.calls (defined : String → Bool) (current : Option String) : Entry → List ProbeCall
  | .constant c => c.calls defined
  | .intAlias a => [.intAlias a.name a.native a.documentation]
  | .record r => r.calls current
  | .enumeration e => e.calls defined current
  | _ => []

/-- A chain of candidates comes down to one item at most. -/
theorem areItems_candidateCalls (defined : String → Bool) (candidates : List String)
    (optional : Bool) (missingName : String) {call : String → ProbeCall}
    (h : ∀ n, IsItem [call n]) :
    AreItems (candidateCalls defined candidates optional missingName call) := by
  unfold candidateCalls
  split
  · exact .of_item (h _)
  · split
    · exact .nil
    · exact .of_item (.missing _)

theorem Enumeration.isMember_of_mem_memberCalls {defined : String → Bool} {e : Enumeration}
    {m : Member} : ∀ c ∈ e.memberCalls defined m, c.IsMember := by
  intro c hc
  unfold memberCalls candidateCalls at hc
  split at hc
  · -- a macro, or the report that there is none
    split at hc
    · rw [List.mem_singleton.1 hc]
      exact .inl ⟨_, _, _, rfl⟩
    · split at hc
      · cases hc
      · rw [List.mem_singleton.1 hc]
        exact .inr ⟨_, rfl⟩
  · -- a member that is no macro: it has a candidate, and may be left out if it is optional
    split at hc
    · cases hc
    · split at hc
      · cases hc
      · rw [List.mem_singleton.1 hc]
        exact .inl ⟨_, _, _, rfl⟩

theorem Enumeration.areItems_calls (defined : String → Bool) (e : Enumeration)
    (current : Option String) : AreItems (e.calls defined current) := by
  have members : ∀ c ∈ e.members.flatMap (e.memberCalls defined), c.IsMember := by
    intro c hc
    obtain ⟨m, -, hm⟩ := List.mem_flatMap.1 hc
    exact isMember_of_mem_memberCalls c hm
  have constants : AreItems
      (if e.defineConstants then e.members.flatMap (Member.constantCalls defined) else []) := by
    split
    · refine .flatMap fun m _ => ?_
      unfold Member.constantCalls
      cases m.candidates.find? defined with
      | none => exact .nil
      | some native => exact .of_item (.constant ..)
    · exact .nil
  -- the constants of an enumeration are items of their own, behind it
  have whole := AreItems.cons
    (.enumeration e.name (e.base.path current) e.documentation members) constants
  simpa [Enumeration.calls] using whole

/-- The calls of an entry are items. -/
theorem Entry.areItems_calls (defined : String → Bool) (current : Option String) (e : Entry) :
    AreItems (e.calls defined current) := by
  cases e with
  | constant c => exact areItems_candidateCalls _ _ _ _ fun n => .constant ..
  | intAlias a => exact .of_item (.intAlias ..)
  | record r =>
    refine .of_item (.record _ _ _ _ ?_)
    intro c hc
    obtain ⟨s, -, rfl⟩ := List.mem_map.1 hc
    exact ⟨_, _, _, _, _, _, rfl⟩
  | enumeration e => exact e.areItems_calls defined current
  | _ => exact .nil

/-! ## The text of an entry -/

/-- No native type, field or count of the entry has a newline in it. -/
def Entry.HasRowTexts : Entry → Prop
  | .intAlias a => '\n' ∉ a.native.toList
  | .record r => '\n' ∉ r.native.toList ∧ ∀ s ∈ r.slots, '\n' ∉ s.native.toList ∧
      ∀ expression, s.count = .named expression → '\n' ∉ expression.toList
  | _ => True

/-- Every native type, field and count of the entry is on one row, and leaves no quotation and no
comment open. -/
def Entry.HasClosedTexts : Entry → Prop
  | .intAlias a => ProbeCall.IsArgument a.native
  | .record r => ProbeCall.IsArgument r.native ∧ ∀ s ∈ r.slots, ProbeCall.IsArgument s.native ∧
      ∀ expression, s.count = .named expression → ProbeCall.IsArgument expression
  | _ => True

/-- The rows of the text that an entry gives as it stands. -/
def Entry.verbatimRows (e : Entry) : List (List Char) :=
  textRows ((e.added .probe none).lines.filter SourceLine.isPlain)

/-- The text that an entry gives as it stands calls no helper, and ends where it ends: its last row
does not go on in the next one, no comment does, and all conditionals in it are closed. -/
structure Entry.HasInertText (e : Entry) : Prop where
  no_call : ∀ row, .text row ∈ read e.verbatimRows → ¬ CallsHelper row
  complete : IsComplete e.verbatimRows
  closed : ∀ setting, ∃ kept, resolve setting (read e.verbatimRows) = some kept

theorem Entry.hasInertText_of_no_plain {e : Entry}
    (h : ∀ l ∈ (e.added .probe none).lines, l.isPlain = false) : e.HasInertText := by
  have no_rows : e.verbatimRows = [] := by
    have none_plain : (e.added .probe none).lines.filter SourceLine.isPlain = [] := by
      rw [List.filter_eq_nil_iff]
      intro l hl
      rw [h l hl]
      exact Bool.false_ne_true
    rw [verbatimRows, none_plain]
    rfl
  constructor
  · rw [no_rows]
    intro row hrow
    cases hrow
  · rw [no_rows]
    exact .nil
  · rw [no_rows]
    exact fun setting => ⟨[], rfl⟩

variable {setting : Setting}

theorem isArgument_digits (n : Nat) : ProbeCall.IsArgument (toString n) := by
  apply ProbeCall.isArgument_of_word
  intro c hc
  rw [Nat.toString_eq_repr, Nat.repr, String.toList_ofList] at hc
  have digit := Nat.isDigit_of_mem_toDigits (by decide) (by decide) hc
  simp [Identifier.isContinue, Char.isAlphanum, digit]

theorem newline_not_mem_digits (n : Nat) : '\n' ∉ (toString n).toList :=
  (isArgument_digits n).row

/-- An expression in parentheses. -/
theorem isArgument_parenthesized {expression : String} (h : ProbeCall.IsArgument expression) :
    ProbeCall.IsArgument ("(" ++ expression ++ ")") := by
  have letters : ("(" ++ expression ++ ")").toList = '(' :: (expression.toList ++ [')']) := by
    simp
  constructor
  · simp [letters, h.row]
  · have opened : Lexical.code.step '(' = .code := rfl
    rw [letters, Lexical.IsClosed, Lexical.after_cons, opened, Lexical.after_append,
      Lexical.after_cons, Lexical.step_of_isPlain h.closed (by decide)]
    rfl

/-- An entry that only gives text as it stands, in whatever module. -/
theorem Entry.brings_verbatim {e : Entry} {current : Option String} (hinert : e.HasInertText)
    (hplain : ∀ l ∈ (e.added .probe current).lines, l.isPlain = true)
    (hmodule : (e.added .probe current).lines = (e.added .probe none).lines) :
    Brings setting (textRows (e.added .probe current).lines) [] := by
  have all_rows : e.verbatimRows = textRows (e.added .probe current).lines := by
    rw [verbatimRows, ← hmodule, List.filter_eq_self.2 hplain]
  obtain ⟨kept, hkept⟩ := hinert.closed setting
  rw [← all_rows]
  exact .of_resolve hinert.complete hkept hinert.no_call

/-- A chain of candidates for calls that start and end nothing. -/
theorem unbracketed_of_mem_candidateLines {candidates : List String} {optional : Bool}
    {missingName : String} {call : String → ProbeCall} (h : ∀ n, (call n).isBracket = false) :
    ∀ l ∈ candidateLines candidates optional missingName call,
      (∃ d, l = .conditional d) ∨ ∃ c, l = .call c ∧ c.isBracket = false := by
  have branches : ∀ (names : List String) (first : Bool), ∀ l ∈ branchLines call first names,
      (∃ d, l = .conditional d) ∨ ∃ c, l = .call c ∧ c.isBracket = false := by
    intro names
    induction names with
    | nil =>
      intro first l hl
      cases hl
    | cons name names ih =>
      intro first l hl
      rw [branchLines, List.mem_cons, List.mem_cons] at hl
      rcases hl with rfl | rfl | hl
      · exact .inl ⟨_, rfl⟩
      · exact .inr ⟨_, rfl, h name⟩
      · exact ih false l hl
  intro l hl
  rw [candidateLines, List.mem_append, List.mem_append] at hl
  rcases hl with (hl | hl) | hl
  · exact branches candidates true l hl
  · split at hl
    · cases hl
    · rcases List.mem_cons.1 hl with rfl | hl
      · exact .inl ⟨_, rfl⟩
      · rw [List.mem_singleton.1 hl]
        exact .inr ⟨_, rfl, rfl⟩
  · rw [List.mem_singleton.1 hl]
    exact .inl ⟨_, rfl⟩

theorem Constant.brings_calls {c : Constant} (h : c.Valid) :
    Brings setting (textRows c.lines) (c.calls setting.defined) := by
  exact .of_yields (c.isLine_of_mem_lines h.candidates_identifiers) (c.yields_lines setting h)
    (unbracketed_of_mem_candidateLines fun n => rfl)

theorem Enumeration.brings_memberCalls {e : Enumeration} {m : Member}
    (h : m.Valid e.macroMembers) :
    Brings setting (textRows (e.memberLines m)) (e.memberCalls setting.defined m) := by
  refine .of_yields (e.isLine_of_mem_memberLines h) (e.yields_memberLines setting h) ?_
  intro l hl
  unfold memberLines at hl
  split at hl
  · exact unbracketed_of_mem_candidateLines (fun n => rfl) l hl
  · unfold Member.plainLines at hl
    split at hl
    · cases hl
    · rename_i native _
      have member : ∃ c, SourceLine.call (.enumMember m.name native m.documentation) = .call c ∧
          c.isBracket = false := ⟨_, rfl, rfl⟩
      -- an optional one stands between an `#ifdef` and its end
      split at hl
      · simp only [List.mem_cons, List.not_mem_nil, or_false] at hl
        rcases hl with rfl | rfl | rfl
        · exact .inl ⟨_, rfl⟩
        · exact .inr member
        · exact .inl ⟨_, rfl⟩
      · rw [List.mem_singleton.1 hl]
        exact .inr member

theorem Member.brings_constantCalls {macros : Bool} {m : Member} (h : m.Valid macros) :
    Brings setting (textRows m.asConstant.lines) (m.constantCalls setting.defined) := by
  exact .of_yields (m.asConstant.isLine_of_mem_lines h.candidates_identifiers)
    (Member.yields_asConstant setting h) (unbracketed_of_mem_candidateLines fun n => rfl)

theorem brings_flatMap {α : Type} {xs : List α} {lines : α → List SourceLine}
    {calls : α → List ProbeCall} (h : ∀ x ∈ xs, Brings setting (textRows (lines x)) (calls x)) :
    Brings setting (textRows (xs.flatMap lines)) (xs.flatMap calls) := by
  have in_turn : textRows (xs.flatMap lines) = xs.flatMap fun x => textRows (lines x) := by
    -- the rows are the same whatever the calls are
    clear h
    induction xs with
    | nil => rfl
    | cons x xs ih => rw [List.flatMap_cons, List.flatMap_cons, textRows_append, ih]
  rw [in_turn]
  exact .flatMap h

theorem Enumeration.brings_calls {macros : Bool} {e : Enumeration} (h : e.Valid macros)
    (current : Option String) :
    Brings setting (textRows (e.lines current)) (e.calls setting.defined current) := by
  have start : Brings setting
      (textRows [.call (.enumBegin e.name (e.base.path current) e.documentation)]) _ :=
    .of_call (by simp [ProbeCall.HasClosedArguments, ProbeCall.arguments])
  have finish : Brings setting (textRows [.call .enumEnd]) _ :=
    .of_call (by simp [ProbeCall.HasClosedArguments, ProbeCall.arguments])
  have members : Brings setting (textRows (e.members.flatMap e.memberLines)) _ :=
    brings_flatMap fun m hm => e.brings_memberCalls (h.member m hm)
  have constants : Brings setting
      (textRows (if e.defineConstants then e.members.flatMap fun m => m.asConstant.lines else []))
      (if e.defineConstants then e.members.flatMap (Member.constantCalls setting.defined)
        else []) := by
    split
    · exact brings_flatMap fun m hm => Member.brings_constantCalls (h.member m hm)
    · exact .nil
  -- the four parts stand one after the other
  have whole := (start.append members).append (finish.append constants)
  rw [← textRows_append, ← textRows_append, ← textRows_append] at whole
  exact whole

theorem Record.brings_calls {r : Record} (h : (Entry.record r).HasClosedTexts)
    (current : Option String) :
    Brings setting (textRows (r.lines current)) (r.calls current) := by
  obtain ⟨native_argument, slots_arguments⟩ := h
  have same_lines : r.lines current = ofCalls (r.calls current) := by
    simp [Record.lines, Record.calls, ofCalls]
  rw [same_lines]
  refine .of_calls ?_
  intro c hc
  rw [Record.calls, List.mem_append, List.mem_cons] at hc
  rcases hc with (rfl | hc) | hc
  · simp [ProbeCall.HasClosedArguments, ProbeCall.arguments, native_argument]
  · -- the name and the type of a slot are quoted, and its field and count are as they are given
    obtain ⟨s, hs, rfl⟩ := List.mem_map.1 hc
    obtain ⟨field_argument, count_argument⟩ := slots_arguments s hs
    have count_arguments : ∀ a ∈ ProbeCall.countArguments s.count, ProbeCall.IsArgument a := by
      intro a ha
      unfold ProbeCall.countArguments at ha
      split at ha
      · rw [List.mem_singleton.1 ha]
        exact isArgument_digits _
      · rename_i expression hcount
        rw [List.mem_singleton.1 ha]
        exact isArgument_parenthesized (count_argument expression hcount)
      · cases ha
    intro a ha
    rw [ProbeCall.arguments, List.mem_append] at ha
    rcases ha with ha | ha
    · simp only [List.mem_cons, List.not_mem_nil, or_false] at ha
      rcases ha with rfl | rfl | rfl | rfl
      · exact native_argument
      · exact field_argument
      · exact ProbeCall.isArgument_cLiteral _
      · exact ProbeCall.isArgument_cLiteral _
    · exact count_arguments a ha
  · rw [List.mem_singleton.1 hc]
    simp [ProbeCall.HasClosedArguments, ProbeCall.arguments]

/-- **The calls of an entry.** In a probe, the lines of an entry that opens no module come down to
its calls. -/
theorem Entry.brings_calls {e : Entry} {k : Kind} (valid : e.Valid k) (hkind : k ∈ e.kinds)
    (hprobe : k ∈ Mode.probe.kinds) (hstays : e.module? = none) (htexts : e.HasClosedTexts)
    (hinert : e.HasInertText) (current : Option String) :
    Brings setting (textRows (e.added .probe current).lines) (e.calls setting.defined current) := by
  cases e with
  | verbatim lines | headers names =>
    refine brings_verbatim hinert ?_ rfl
    intro l hl
    obtain ⟨text, -, rfl⟩ := List.mem_map.1 hl
    rfl
  | define name value =>
    refine brings_verbatim hinert ?_ rfl
    intro l hl
    rw [List.mem_singleton.1 hl]
    cases value <;> rfl
  | typedef base name =>
    refine brings_verbatim hinert ?_ rfl
    intro l hl
    rw [List.mem_singleton.1 hl]
    rfl
  | flags words => exact .nil
  | packages names optional => exact .nil
  | inNamespace name => cases hstays
  | constant c => exact c.brings_calls valid
  | intAlias a =>
    have native_argument : ProbeCall.IsArgument a.native := htexts
    exact .of_call (by simp [ProbeCall.HasClosedArguments, ProbeCall.arguments, native_argument])
  | record r => exact r.brings_calls htexts current
  | enumeration e => exact e.brings_calls valid current
  | wrapper w =>
    -- wrappers are for libraries only
    simp only [kinds, List.mem_cons, List.not_mem_nil, or_false] at hkind
    rcases hkind with rfl | rfl <;> exact absurd hprobe (by decide)

/-! ## Sessions -/

/-- The calls of a module. -/
def Section.calls (defined : String → Bool) (s : Section) : List ProbeCall :=
  .namespaceBegin s.name :: (s.entries.flatMap fun p => p.entry.calls defined (some s.name)) ++
    [.namespaceEnd]

/-- The calls of entries at the root, and of modules. -/
def wordOf (defined : String → Bool) (root : List Placed) (sections : List Section) :
    List ProbeCall :=
  (root.flatMap fun p => p.entry.calls defined none) ++ sections.flatMap (Section.calls defined)

theorem isWord_wordOf (defined : String → Bool) (root : List Placed) (sections : List Section) :
    IsWord (wordOf defined root sections) := by
  have at_root : AreItems (root.flatMap fun p => p.entry.calls defined none) :=
    .flatMap fun p _ => p.entry.areItems_calls defined none
  refine ⟨_, sections.map (Section.calls defined), ?_, at_root, ?_⟩
  · rw [wordOf, ← List.flatMap_def]
  · intro m hm
    obtain ⟨s, -, rfl⟩ := List.mem_map.1 hm
    exact .mk s.name (.flatMap fun p _ => p.entry.areItems_calls defined (some s.name))

/-- The entry is one of a probe, as far as its texts are concerned. -/
structure Placed.Printable (p : Placed) : Prop where
  understood : ∃ d, (Dialect.ofMode .probe).interpret d = .ok p
  texts : p.entry.HasClosedTexts
  inert : p.entry.HasInertText

theorem Placed.Printable.brings_calls {p : Placed} (h : p.Printable)
    (hstays : p.entry.module? = none) (current : Option String) :
    Brings setting (textRows (p.entry.added .probe current).lines)
      (p.entry.calls setting.defined current) := by
  obtain ⟨d, hd⟩ := h.understood
  have understood := Dialect.interpret_eq_ok.1 hd
  have valid : p.entry.Valid p.kind := Entry.valid_of_shape understood.2.2.2
  exact Entry.brings_calls valid (Dialect.kind_mem_kinds hd) understood.2.1 hstays h.texts h.inert
    current

theorem Section.brings_calls {s : Section} (hprintable : ∀ p ∈ s.entries, p.Printable)
    (hstays : ∀ p ∈ s.entries, p.entry.module? = none) :
    Brings setting (textRows s.probeLines) (s.calls setting.defined) := by
  have start : Brings setting (textRows [.call (.namespaceBegin s.name)]) _ :=
    .of_call (by simp [ProbeCall.HasClosedArguments, ProbeCall.arguments])
  have finish : Brings setting (textRows [.call .namespaceEnd]) _ :=
    .of_call (by simp [ProbeCall.HasClosedArguments, ProbeCall.arguments])
  have inside : Brings setting
      (textRows (s.entries.flatMap fun p => (p.entry.added .probe (some s.name)).lines)) _ :=
    brings_flatMap fun p hp => (hprintable p hp).brings_calls (hstays p hp) (some s.name)
  have whole := (start.append inside).append finish
  rw [← textRows_append, ← textRows_append] at whole
  exact whole

namespace Draft

/-- The second draft is the first one after it has been given some entries, each of them in some
world. An entry that fails is passed over. -/
inductive Given : Draft → List Placed → Draft → Prop
  | nil (s : Draft) : Given s [] s
  | cons {s s' s'' : Draft} {p : Placed} {ps : List Placed} {w w' : World}
    {outcome : Except GenerationError Unit}
    (first : StateT.run (s.accept p) w = ((outcome, s'), w')) (rest : Given s' ps s'') :
    Given s (p :: ps) s''

/-- An entry that fails has no lines, and so it is as good as taken. -/
theorem takes_of_given {s s' : Draft} {p : Placed} {w w' : World}
    {outcome : Except GenerationError Unit}
    (h : StateT.run (s.accept p) w = ((outcome, s'), w')) : s.Takes p s' := by
  cases outcome with
  | ok _ => exact takes_of_accept h
  | error e =>
    cases hentry : p.entry with
    | packages names optional =>
      rw [accept, hentry] at h
      dsimp only at h
      rw [run_addPackages] at h
      -- only packages that may not be missing fail, and they leave the draft as it was
      cases hflags : (Command.packageFlags names).outcome w with
      | mk result w₁ =>
        rw [hflags] at h
        cases result with
        | ok flags => cases h
        | error cause =>
          cases optional with
          | true => cases h
          | false =>
            cases h
            exact takes_of_packages hentry rfl rfl rfl rfl
    | _ =>
      rw [accept, hentry] at h
      cases h

theorem Given.collects {s s' : Draft} {ps : List Placed} (h : s.Given ps s') :
    s.Collects ps s' := by
  induction h with
  | nil => exact .nil _
  | cons first rest ih => exact .cons (takes_of_given first) ih

/-- Directives of a probe: lines of C with a conditional, a switch, and a constant. -/
def errnoDirectives : List Directive :=
  [⟨"c", [.string "#ifndef READY", .string "# define READY 1", .string "#endif /* once */"], 1⟩,
    ⟨"in-namespace", [.symbol ⟨none, "errno"⟩], 2⟩,
    ⟨"constant", [.list [.symbol ⟨some "errno", "eagain"⟩, .string "EAGAIN"]], 3⟩]

/-- The entries that they stand for. -/
def errnoEntries : List Placed :=
  [⟨.verbatim, 1, .verbatim ["#ifndef READY", "# define READY 1", "#endif /* once */"]⟩,
    ⟨.inNamespace, 2, .inNamespace "errno"⟩,
    ⟨.constant, 3, .constant ⟨"EAGAIN", ["EAGAIN"], none, false, .integer⟩⟩]

/-- What a draft has written comes down to the calls of a word. -/
def ComesToWord (setting : Setting) (s : Draft) : Prop :=
  ∃ kept calls, resolve setting (read (textRows s.closeModule.lines)) = some kept ∧
    CallsAmong kept calls ∧ IsWord calls

/-- Every session whose entries meet a condition comes down to a word, in every setting. The native
types, fields and counts of the entries have no newline in them. -/
def IsWordIf (condition : Entry → Prop) : Prop :=
  ∀ (ps : List Placed) (s : Draft) (setting : Setting),
    (∀ p ∈ ps, (∃ d, (Dialect.ofMode .probe).interpret d = .ok p) ∧ p.entry.HasRowTexts ∧
      condition p.entry) →
    (start .probe).Given ps s → s.ComesToWord setting

/-- A line of C. -/
def lineOfC (text : String) : Placed :=
  ⟨.verbatim, 1, .verbatim [text]⟩

theorem lineOfC_understood (text : String) :
    (∃ d, (Dialect.ofMode .probe).interpret d = .ok (lineOfC text)) ∧
      (lineOfC text).entry.HasRowTexts ∧ (lineOfC text).entry.HasClosedTexts :=
  ⟨⟨⟨"c", [.string text], 1⟩, rfl⟩, trivial, trivial⟩

/-- A constant whose documentation looks like the end of a comment. -/
def markedConstant : Placed :=
  ⟨.constant, 1, .constant ⟨"X", ["X"], some "*/", false, .integer⟩⟩

theorem markedConstant_understood :
    (∃ d, (Dialect.ofMode .probe).interpret d = .ok markedConstant) ∧
      markedConstant.entry.HasRowTexts ∧ markedConstant.entry.HasInertText := by
  refine ⟨⟨⟨"constant", [.list [.symbol ⟨none, "X"⟩, .string "X"], .keyword "documentation",
    .string "*/"], 1⟩, rfl⟩, trivial, Entry.hasInertText_of_no_plain ?_⟩
  intro l hl
  rcases unbracketed_of_mem_candidateLines (fun n => rfl) l hl with ⟨d, rfl⟩ | ⟨c, rfl, -⟩
  · rfl
  · rfl

/-- A type whose native name opens a comment. -/
def openType : Placed :=
  ⟨.ctype, 1, .intAlias ⟨"t", "int /*", none⟩⟩

/-- No macro is defined, and no other condition holds. -/
def nothingDefined : Setting :=
  ⟨fun _ => false, fun _ => false⟩

/-- Entries that a session can be given, and whose text is not well nested. -/
theorem not_isWordIf {condition : Entry → Prop} {p q : Placed} {s : Draft}
    (given : (start .probe).Given [p, q] s)
    (hp : (∃ d, (Dialect.ofMode .probe).interpret d = .ok p) ∧ p.entry.HasRowTexts ∧
      condition p.entry)
    (hq : (∃ d, (Dialect.ofMode .probe).interpret d = .ok q) ∧ q.entry.HasRowTexts ∧
      condition q.entry)
    (unresolved : resolve nothingDefined (read (textRows s.closeModule.lines)) = none) :
    ¬ IsWordIf condition := by
  intro claimed
  obtain ⟨kept, calls, resolved, -⟩ :=
    claimed [p, q] s nothingDefined (by simpa using ⟨hp, hq⟩) given
  cases unresolved.symm.trans resolved

theorem given_markedConstant (text : String) :
    ∃ s, (start .probe).Given [lineOfC text, markedConstant] s ∧
      s.closeModule.lines = .plain text :: (markedConstant.entry.added .probe none).lines :=
  ⟨_, .cons (w := World.bare) rfl (.cons (w := World.bare) rfl (.nil _)), rfl⟩

end Draft

end ForeignBindings
