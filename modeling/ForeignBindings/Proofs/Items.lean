import ForeignBindings.Proofs.Conditionals
import ForeignBindings.Proofs.Dialects
import ForeignBindings.Source.Draft

/-!
# Items under a set of macros

The lines of a constant or an enumeration, for every set of defined macros. They hold one
conditional for each list of candidates, one for each optional plain enumerator, and the same
candidates again where members are declared as constants too.

* `Constant.calls` and `Enumeration.calls` are the helper calls of an item, read directly.
* `Constant.yields_lines` and `Enumeration.yields_lines` say that the lines come down to them.
* `Draft.adds_accepted_item` says so of the text that a draft takes for an accepted directive.
-/

namespace ForeignBindings

open Preprocessor

/-! ## Direct readings -/

/-- The calls for a constant, read directly. -/
def Constant.calls (defined : String → Bool) (c : Constant) : List ProbeCall :=
  candidateCalls defined c.candidates c.optional c.name fun native =>
    .constant c.type c.name native c.documentation

/-- The calls for a member of an enumeration, read directly. A plain enumerator that is optional
is there if its name is defined, and any other one always. -/
def Enumeration.memberCalls (defined : String → Bool) (e : Enumeration) (m : Member) :
    List ProbeCall :=
  if e.macroMembers then
    candidateCalls defined m.candidates m.optional (e.name ++ "::" ++ m.name) fun native =>
      .enumMember m.name native m.documentation
  else
    match m.native? with
    | none => []
    | some native =>
      if m.optional && !defined native then [] else [.enumMember m.name native m.documentation]

/-- The constant for a member, if one of its candidates is defined: it names the same candidate as
the member does. -/
def Member.constantCalls (defined : String → Bool) (m : Member) : List ProbeCall :=
  (m.candidates.find? defined).toList.map fun native =>
    .constant .integer m.name native m.documentation

/-- The calls for an enumeration, read directly: its members in their order, between its start and
its end, and then the constants of those members that are there, if it asks for constants. -/
def Enumeration.calls (defined : String → Bool) (e : Enumeration) (current : Option String) :
    List ProbeCall :=
  .enumBegin e.name (e.base.path current) e.documentation ::
    e.members.flatMap (e.memberCalls defined) ++
    .enumEnd ::
    if e.defineConstants then e.members.flatMap (Member.constantCalls defined) else []

theorem Enumeration.Valid.member {macros : Bool} {e : Enumeration} (h : e.Valid macros) :
    ∀ m ∈ e.members, m.Valid e.macroMembers := by
  rw [h.macroMembers_eq]
  exact h.members_valid

/-- A plain enumerator is printed by its only native name. -/
theorem Member.native?_of_valid {m : Member} (h : m.Valid false) :
    ∃ native, m.native? = some native ∧ Identifier.isIdentifier native = true := by
  obtain ⟨native, hnative⟩ := h.single rfl
  have native_mem : native ∈ m.candidates := by simp [hnative]
  exact ⟨native, by simp [Member.native?, hnative], h.candidates_identifiers native native_mem⟩

section Items

open SourceLine

variable (setting : Setting)

theorem yields_flatMap {α : Type} {xs : List α} {lines : α → List SourceLine}
    {calls : α → List ProbeCall}
    (h : ∀ x ∈ xs, Yields setting (codeLines (lines x)) (rows (ofCalls (calls x)))) :
    Yields setting (codeLines (xs.flatMap lines)) (rows (ofCalls (xs.flatMap calls))) := by
  induction xs with
  | nil => exact Yields.nil
  | cons x xs ih =>
    -- the lines of one item stand in front of those of the others
    have hx := h x (List.mem_cons_self ..)
    have hxs := ih fun y hy => h y (List.mem_cons_of_mem _ hy)
    simpa [ofCalls] using hx.append hxs

theorem Constant.yields_lines {c : Constant} (h : c.Valid) :
    Yields setting (codeLines c.lines) (rows (ofCalls (c.calls setting.defined))) :=
  yields_candidateLines setting _ h.candidates_ne_nil c.optional c.name

theorem Member.yields_asConstant {macros : Bool} {m : Member} (h : m.Valid macros) :
    Yields setting (codeLines m.asConstant.lines)
      (rows (ofCalls (m.constantCalls setting.defined))) := by
  have chain := yields_candidateLines setting
    (fun native => .constant .integer m.name native m.documentation) h.candidates_ne_nil true m.name
  -- an optional constant is never reported as missing, so only the call can be left
  have no_report : candidateCalls setting.defined m.candidates true m.name
      (fun native => .constant .integer m.name native m.documentation) =
        m.constantCalls setting.defined := by
    unfold candidateCalls constantCalls
    cases m.candidates.find? setting.defined <;> rfl
  rw [no_report] at chain
  exact chain

theorem Enumeration.yields_memberLines {e : Enumeration} {m : Member}
    (h : m.Valid e.macroMembers) :
    Yields setting (codeLines (e.memberLines m))
      (rows (ofCalls (e.memberCalls setting.defined m))) := by
  unfold memberLines memberCalls
  cases hmacros : e.macroMembers with
  | true =>
    -- macros are tried in their order
    rw [if_pos rfl, if_pos rfl]
    exact yields_candidateLines setting _ h.candidates_ne_nil m.optional _
  | false =>
    -- a plain enumerator depends on its own name at most
    rw [if_neg (by decide), if_neg (by decide)]
    rw [hmacros] at h
    obtain ⟨native, native_eq, -⟩ := m.native?_of_valid h
    unfold Member.plainLines
    rw [native_eq]
    dsimp only
    cases m.optional with
    | true =>
      rw [if_pos rfl]
      have guarded := yields_ifdef setting native (.enumMember m.name native m.documentation)
      cases hd : setting.defined native <;> simpa [hd] using guarded
    | false => exact yields_call setting _

theorem Enumeration.yields_lines {macros : Bool} {e : Enumeration} (h : e.Valid macros)
    (current : Option String) :
    Yields setting (codeLines (e.lines current))
      (rows (ofCalls (e.calls setting.defined current))) := by
  have hmembers := h.member
  have start := yields_call setting (.enumBegin e.name (e.base.path current) e.documentation)
  have members := yields_flatMap setting fun m hm => e.yields_memberLines setting (hmembers m hm)
  have finish := yields_call setting .enumEnd
  have constants : Yields setting
      (codeLines (if e.defineConstants then e.members.flatMap fun m => m.asConstant.lines else []))
      (rows (ofCalls
        (if e.defineConstants then e.members.flatMap (Member.constantCalls setting.defined)
          else []))) := by
    cases e.defineConstants with
    | true =>
      exact yields_flatMap setting fun m hm => Member.yields_asConstant setting (hmembers m hm)
    | false => exact Yields.nil
  -- the four parts stand one after the other, and so do their calls
  have all := (start.append members).append (finish.append constants)
  simpa [Enumeration.lines, Enumeration.calls, ofCalls] using all

end Items

/-! ## Items line by line -/

section LinesOfItems

open SourceLine

theorem isLine_of_mem_branchLines {candidates : List String} {call : String → ProbeCall}
    (hnames : ∀ n ∈ candidates, Identifier.isIdentifier n = true)
    (hcalls : ∀ n, Identifier.isIdentifier n = true → (call n).HasClosedArguments) (first : Bool) :
    ∀ l ∈ branchLines call first candidates, l.IsLine := by
  induction candidates generalizing first with
  | nil => simp [branchLines]
  | cons candidate rest ih =>
    have hcandidate := hnames candidate (List.mem_cons_self ..)
    have hrest := ih (fun n hn => hnames n (List.mem_cons_of_mem _ hn)) false
    -- a branch is a conditional, a call, and the branches after it
    intro l hl
    rw [branchLines, List.mem_cons, List.mem_cons] at hl
    rcases hl with rfl | rfl | hl
    · have name_word := Identifier.word_of_isIdentifier hcandidate
      cases first with
      | true => exact isLine_conditional (c := .ifDefined candidate) name_word
      | false => exact isLine_conditional (c := .elifDefined candidate) name_word
    · exact ProbeCall.isLine_call (hcalls candidate hcandidate)
    · exact hrest l hl

theorem isLine_of_mem_candidateLines {candidates : List String} {call : String → ProbeCall}
    (hnames : ∀ n ∈ candidates, Identifier.isIdentifier n = true)
    (hcalls : ∀ n, Identifier.isIdentifier n = true → (call n).HasClosedArguments) (optional : Bool)
    (missingName : String) :
    ∀ l ∈ candidateLines candidates optional missingName call, l.IsLine := by
  have report_line : (SourceLine.call (.missing missingName)).IsLine :=
    ProbeCall.isLine_call (by simp [ProbeCall.HasClosedArguments, ProbeCall.arguments])
  have otherwise_line : (SourceLine.conditional .otherwise).IsLine := isLine_conditional trivial
  have endif_line : (SourceLine.conditional .endif).IsLine := isLine_conditional trivial
  intro l hl
  -- the branches, the report of a missing name, and the end
  rw [candidateLines, List.mem_append, List.mem_append] at hl
  rcases hl with (hl | hl) | hl
  · exact isLine_of_mem_branchLines hnames hcalls true l hl
  · cases optional with
    | true => cases hl
    | false =>
      rcases List.mem_cons.1 hl with rfl | hl
      · exact otherwise_line
      · rw [List.mem_singleton.1 hl]
        exact report_line
  · rw [List.mem_singleton.1 hl]
    exact endif_line

theorem Constant.isLine_of_mem_lines {c : Constant}
    (hnames : ∀ n ∈ c.candidates, Identifier.isIdentifier n = true) : ∀ l ∈ c.lines, l.IsLine := by
  apply isLine_of_mem_candidateLines hnames
  intro n hn
  simp [ProbeCall.HasClosedArguments, ProbeCall.arguments, ProbeCall.isArgument_of_isIdentifier hn]

theorem Enumeration.isLine_of_mem_memberLines {e : Enumeration} {m : Member}
    (h : m.Valid e.macroMembers) : ∀ l ∈ e.memberLines m, l.IsLine := by
  have member_line : ∀ n, Identifier.isIdentifier n = true →
      (ProbeCall.enumMember m.name n m.documentation).HasClosedArguments := by
    intro n hn
    simp [ProbeCall.HasClosedArguments, ProbeCall.arguments,
      ProbeCall.isArgument_of_isIdentifier hn]
  intro l hl
  unfold memberLines at hl
  split at hl
  · exact isLine_of_mem_candidateLines h.candidates_identifiers member_line m.optional _ l hl
  · rename_i plain
    rw [show e.macroMembers = false by simpa using plain] at h
    obtain ⟨native, native_eq, native_identifier⟩ := m.native?_of_valid h
    have call_line := ProbeCall.isLine_call (member_line native native_identifier)
    unfold Member.plainLines at hl
    rw [native_eq] at hl
    dsimp only at hl
    -- an optional enumerator is guarded by an `#ifdef`
    split at hl
    · simp only [List.mem_cons, List.not_mem_nil, or_false] at hl
      rcases hl with rfl | rfl | rfl
      · exact isLine_conditional (c := .ifdef native)
          (Identifier.word_of_isIdentifier native_identifier)
      · exact call_line
      · exact isLine_conditional trivial
    · rw [List.mem_singleton.1 hl]
      exact call_line

theorem Enumeration.isLine_of_mem_lines {macros : Bool} {e : Enumeration} (h : e.Valid macros)
    (current : Option String) : ∀ l ∈ e.lines current, l.IsLine := by
  have hmembers := h.member
  have start_line : (SourceLine.call
      (.enumBegin e.name (e.base.path current) e.documentation)).IsLine :=
    ProbeCall.isLine_call (by simp [ProbeCall.HasClosedArguments, ProbeCall.arguments])
  have end_line : (SourceLine.call .enumEnd).IsLine :=
    ProbeCall.isLine_call (by simp [ProbeCall.HasClosedArguments, ProbeCall.arguments])
  intro l hl
  rw [lines, List.cons_append, List.mem_cons, List.mem_append, List.mem_cons] at hl
  rcases hl with rfl | hl | rfl | hl
  · exact start_line
  · obtain ⟨m, hm, hl⟩ := List.mem_flatMap.1 hl
    exact e.isLine_of_mem_memberLines (hmembers m hm) l hl
  · exact end_line
  · -- the constants for the members name the same candidates
    split at hl
    · obtain ⟨m, hm, hl⟩ := List.mem_flatMap.1 hl
      exact Constant.isLine_of_mem_lines (c := m.asConstant)
        (hmembers m hm).candidates_identifiers l hl
    · cases hl

end LinesOfItems

/-! ## Accepted items -/

/-- What a draft gains in lines is complete, and its text comes down to exactly these calls in a
setting. -/
def Draft.Adds (setting : Setting) (s s' : Draft) (calls : List ProbeCall) : Prop :=
  ∃ added, s'.lines = s.lines ++ added ∧ IsComplete (SourceLine.textRows added) ∧
    resolve setting (read (SourceLine.textRows added)) =
      some (SourceLine.rows (SourceLine.ofCalls calls))

theorem Draft.adds_of_yields {setting : Setting} {added : List SourceLine}
    {calls : List ProbeCall} (hlines : ∀ l ∈ added, l.IsLine)
    (h : Yields setting (SourceLine.codeLines added) (SourceLine.rows (SourceLine.ofCalls calls)))
    (s : Draft) : Adds setting s (s.write added) calls := by
  obtain ⟨complete, lines⟩ := SourceLine.read_textRows hlines
  refine ⟨added, rfl, complete, ?_⟩
  rw [lines]
  exact h.resolve_eq

/-- **Accepted items.** Whichever macros are defined, the lines that a draft takes for an accepted
constant or enumeration are well nested and come down to the calls of its direct reading.
In what is accepted a list of candidates is never empty, a plain enumerator has one native name, and
only members that are macros are declared as constants. -/
theorem Draft.adds_accepted_item {directive : Spec.Directive} {placed : Placed}
    (h : (Dialect.ofMode .probe).interpret directive = .ok placed) (s : Draft)
    (setting : Setting) :
    (∀ c, placed.entry = .constant c →
      c.candidates ≠ [] ∧ Adds setting s (s.absorb placed.entry) (c.calls setting.defined)) ∧
    (∀ e, placed.entry = .enumeration e →
      (placed.kind = .enum ∧ e.macroMembers = false ∧
          (∀ m ∈ e.members, ∃ native, m.candidates = [native]) ∨
        placed.kind = .constantEnum ∧ e.macroMembers = true ∧
          ∀ m ∈ e.members, m.candidates ≠ []) ∧
      (e.defineConstants = true → e.macroMembers = true) ∧
      Adds setting s (s.absorb placed.entry) (e.calls setting.defined s.current)) := by
  obtain ⟨kind, line, entry⟩ := placed
  have shape_eq : kind.shape directive.arguments = .ok entry := (Dialect.interpret_eq_ok.1 h).2.2.2
  have kind_mem : kind ∈ entry.kinds := Dialect.kind_mem_kinds h
  constructor
  · rintro c rfl
    obtain rfl : kind = .constant := List.mem_singleton.1 kind_mem
    obtain ⟨c', heq, valid⟩ := constantShape_spec shape_eq
    cases heq
    exact ⟨valid.candidates_ne_nil, adds_of_yields
      (Constant.isLine_of_mem_lines valid.candidates_identifiers)
      (Constant.yields_lines setting valid) s⟩
  · rintro e rfl
    -- the two kinds of enumerations share one shape, up to what their members are
    have of_valid : ∀ {macros}, e.Valid macros →
        (e.defineConstants = true → e.macroMembers = true) ∧
          Adds setting s (s.absorb (.enumeration e)) (e.calls setting.defined s.current) := by
      intro macros valid
      refine ⟨?_, ?_⟩
      · rw [valid.macroMembers_eq]
        exact valid.macros_of_defineConstants
      · exact adds_of_yields (e.isLine_of_mem_lines valid s.current)
          (e.yields_lines setting valid s.current) s
    have enum_kinds : kind = .enum ∨ kind = .constantEnum := by
      simpa [Entry.kinds] using kind_mem
    rcases enum_kinds with rfl | rfl
    · obtain ⟨e', heq, valid⟩ := enumShape_spec shape_eq
      cases heq
      exact ⟨.inl ⟨rfl, valid.macroMembers_eq, fun m hm => (valid.members_valid m hm).single rfl⟩,
        of_valid valid⟩
    · obtain ⟨e', heq, valid⟩ := enumShape_spec shape_eq
      cases heq
      exact ⟨.inr ⟨rfl, valid.macroMembers_eq,
        fun m hm => (valid.members_valid m hm).candidates_ne_nil⟩, of_valid valid⟩

/-- An enumeration of macros that declares constants too: a member with two candidates, a member
that may be missing, and one that may not. -/
def Enumeration.families : Enumeration :=
  { name := "family", base := .primitive .int, documentation := none, macroMembers := true,
    defineConstants := true,
    members := [⟨"INET", ["AF_INET", "PF_INET"], none, false⟩, ⟨"UNIX", ["AF_UNIX"], none, true⟩,
      ⟨"LOCAL", ["AF_LOCAL"], none, false⟩] }

/-- A directive that asks for it. -/
def Spec.Directive.families : Spec.Directive :=
  ⟨"constantenum",
    [.list [.symbol ⟨none, "family"⟩, .keyword "define-constants", .symbol ⟨none, "true"⟩],
      .list [.symbol ⟨none, "inet"⟩, .string "AF_INET", .string "PF_INET"],
      .list [.symbol ⟨none, "unix"⟩, .string "AF_UNIX", .keyword "optional",
        .symbol ⟨none, "true"⟩],
      .list [.symbol ⟨none, "local"⟩, .string "AF_LOCAL"]], 1⟩

/-- Where only the second name of the first member is defined, the member that may be missing
leaves nothing, the last one is reported once, and one constant is left. -/
theorem Draft.adds_families :
    (Dialect.ofMode .probe).interpret Spec.Directive.families =
      .ok ⟨.constantEnum, 1, .enumeration Enumeration.families⟩ ∧
    Adds ⟨fun name => name == "PF_INET", fun _ => false⟩ (start .probe)
      ((start .probe).absorb (.enumeration Enumeration.families))
      [.enumBegin "family" "::core::ffi::c_int" none, .enumMember "INET" "PF_INET" none,
        .missing "family::LOCAL", .enumEnd, .constant .integer "INET" "PF_INET" none] := by
  have accepted : (Dialect.ofMode .probe).interpret Spec.Directive.families =
      .ok ⟨.constantEnum, 1, .enumeration Enumeration.families⟩ := rfl
  have adds := ((adds_accepted_item accepted (start .probe)
    ⟨fun name => name == "PF_INET", fun _ => false⟩).2 Enumeration.families rfl).2.2
  exact ⟨accepted, adds⟩

end ForeignBindings
