import ForeignBindings.Proofs.Drafts

/-!
# Valid entries

What holds of every entry that a directive stands for, whatever its arguments look like, and what
its lines can rely on for that reason.

* `Entry.Valid` is the invariant, with one case for each form of entry, and `Entry.valid_of_shape`
  says that every shape establishes it.
* `Identifier.isDeclarable_iff` says what the names of an entry are written like.
* `SourceLine.WellChained` says of some lines that each chain of conditionals starts with an `#if`
  and is ended; `Entry.wellChained_added` says so of the lines of a valid entry.
* `Dialect.valid_of_interpret` puts both together for every directive that is understood.
-/

namespace ForeignBindings

open Spec Checks

/-! ## Names -/

namespace Identifier

/-- The name is written as an identifier of C: a letter or an underscore, and then letters, digits
and underscores. -/
def IsWritten (name : String) : Prop :=
  ∃ c cs, name.toList = c :: cs ∧ (c = '_' ∨ c.isAlpha = true) ∧
    ∀ d ∈ cs, d = '_' ∨ d.isAlphanum = true

theorem isIdentifier_iff (name : String) :
    isIdentifier name = true ↔ IsWritten name ∧ name ≠ "_" := by
  unfold isIdentifier IsWritten
  cases hname : name.toList with
  | nil => simp
  | cons c cs =>
    simp only [isStart, isContinue, Bool.and_eq_true, Bool.or_eq_true, beq_iff_eq, bne_iff_ne,
      List.all_eq_true]
    constructor
    · rintro ⟨⟨hstart, hne⟩, hcontinue⟩
      exact ⟨⟨c, cs, rfl, hstart, hcontinue⟩, hne⟩
    · rintro ⟨⟨c', cs', heq, hstart, hcontinue⟩, hne⟩
      cases heq
      exact ⟨⟨hstart, hne⟩, hcontinue⟩

/-- A name can be declared if it is an identifier, but neither a lone underscore nor a keyword. -/
theorem isDeclarable_iff (name : String) :
    IsDeclarable name ↔ IsWritten name ∧ name ≠ "_" ∧ name ∉ keywords := by
  have not_keyword : isKeyword name = false ↔ name ∉ keywords := by simp [isKeyword]
  rw [IsDeclarable, isIdentifier_iff, not_keyword, and_assoc]

end Identifier

/-! ## The invariant -/

namespace Entry

/-- An entry that a directive of the given kind stands for. -/
def Valid (k : Kind) : Entry → Prop
  | .verbatim lines => lines ≠ []
  | .headers names => names ≠ []
  | .define .. | .typedef .. => True
  | .flags words => words ≠ []
  | .packages names _ => names ≠ []
  | .inNamespace name => Identifier.IsDeclarable name
  | .constant c => c.Valid
  | .intAlias a => Identifier.IsDeclarable a.name
  | .record r => r.Valid
  | .enumeration e => e.Valid (k == .constantEnum)
  | .wrapper w => w.Valid

/-- The names that the bindings declare for an entry, those of its parts included. -/
def declaredNames : Entry → List String
  | .inNamespace name => [name]
  | .constant c => [c.name]
  | .intAlias a => [a.name]
  | .record r => r.name :: r.slots.map Slot.name
  | .enumeration e => e.name :: e.members.map Member.name
  | .wrapper w => w.name :: w.parameters.map Prod.fst
  | _ => []

/-- The names of the C program that an entry tests for, or calls. -/
def nativeNames : Entry → List String
  | .constant c => c.candidates
  | .enumeration e => e.members.flatMap Member.candidates
  | .wrapper w => [w.native]
  | _ => []

/-- Every shape establishes the invariant. -/
theorem valid_of_shape {k : Kind} {forms : List Form} {entry : Entry}
    (h : k.shape forms = .ok entry) : entry.Valid k := by
  cases k with
  | verbatim | header | flag | compilerFlags =>
    obtain ⟨texts, htexts, rfl⟩ := map_eq_ok.1 h
    exact stringList_ne_nil htexts
  | define =>
    obtain ⟨name, value, rfl⟩ := defineShape_spec h
    trivial
  | typedef =>
    obtain ⟨base, name, rfl⟩ := typedefShape_spec h
    trivial
  | packageFlags =>
    obtain ⟨names, optional, rfl, names_ne⟩ := packagesShape_spec h
    exact names_ne
  | inNamespace =>
    obtain ⟨s, -, rfl, declarable⟩ := namespaceShape_spec h
    exact declarable
  | constant =>
    obtain ⟨c, rfl, valid⟩ := constantShape_spec h
    exact valid
  | ctype =>
    obtain ⟨a, rfl, declarable⟩ := ctypeShape_spec h
    exact declarable
  | struct | union =>
    obtain ⟨r, rfl, valid⟩ := recordShape_spec h
    exact valid
  | enum | constantEnum =>
    obtain ⟨e, rfl, valid⟩ := enumShape_spec h
    exact valid
  | wrapper =>
    obtain ⟨w, rfl, valid⟩ := wrapperShape_spec h
    exact valid
  | wrapperWithBody =>
    obtain ⟨w, rfl, valid⟩ := wrapperWithBodyShape_spec h
    exact valid

variable {k : Kind} {e : Entry}

theorem Valid.declarable (h : e.Valid k) : ∀ n ∈ e.declaredNames, Identifier.IsDeclarable n := by
  intro n hn
  cases e with
  | inNamespace name =>
    rw [List.mem_singleton.1 hn]
    exact h
  | constant c =>
    rw [List.mem_singleton.1 hn]
    exact Constant.Valid.declarable h
  | intAlias a =>
    rw [List.mem_singleton.1 hn]
    exact h
  | record r =>
    rcases List.mem_cons.1 hn with rfl | hn
    · exact Record.Valid.declarable h
    · obtain ⟨s, hs, rfl⟩ := List.mem_map.1 hn
      exact (Record.Valid.slots_valid h s hs).declarable
  | enumeration e =>
    rcases List.mem_cons.1 hn with rfl | hn
    · exact Enumeration.Valid.declarable h
    · obtain ⟨m, hm, rfl⟩ := List.mem_map.1 hn
      exact (Enumeration.Valid.members_valid h m hm).declarable
  | wrapper w =>
    rcases List.mem_cons.1 hn with rfl | hn
    · exact Wrapper.Valid.declarable h
    · obtain ⟨p, hp, rfl⟩ := List.mem_map.1 hn
      exact Wrapper.Valid.parameters_declarable h p hp
  | _ => cases hn

theorem Valid.written (h : e.Valid k) : ∀ n ∈ e.nativeNames, Identifier.IsWritten n := by
  intro n hn
  have identifier : Identifier.isIdentifier n = true := by
    cases e with
    | constant c => exact Constant.Valid.candidates_identifiers h n hn
    | enumeration e =>
      obtain ⟨m, hm, hn⟩ := List.mem_flatMap.1 hn
      exact (Enumeration.Valid.members_valid h m hm).candidates_identifiers n hn
    | wrapper w =>
      rw [List.mem_singleton.1 hn]
      exact Wrapper.Valid.native_identifier h
    | _ => cases hn
  exact ((Identifier.isIdentifier_iff n).1 identifier).1

end Entry

/-! ## Chains of conditionals -/

/-- Where a line stands among the conditionals around it. -/
inductive Nesting where
  | outside
  /-- In a chain that an `#if` has started. -/
  | chain
  /-- After the `#else` of such a chain. -/
  | last
  /-- Under an `#ifdef`, which has no other branch. -/
  | guarded
deriving Repr, DecidableEq

/-- Where the line after a line stands, or nothing if the line may not stand there. -/
def Nesting.after : Nesting → SourceLine → Option Nesting
  | outside, .conditional (.ifDefined _) => some chain
  | outside, .conditional (.ifdef _) => some guarded
  | chain, .conditional (.elifDefined _) => some chain
  | chain, .conditional .otherwise => some last
  | chain, .conditional .endif => some outside
  | last, .conditional .endif => some outside
  | guarded, .conditional .endif => some outside
  | _, .conditional _ => none
  | n, _ => some n

namespace SourceLine

/-- Every chain of conditionals starts with an `#if`, is ended, and has none inside. -/
def WellChained (ls : List SourceLine) : Prop :=
  ls.foldlM Nesting.after .outside = some .outside

/-- The line is no conditional. -/
def IsUnconditional (l : SourceLine) : Prop :=
  ∀ c, l ≠ .conditional c

theorem isUnconditional_plain (text : String) : (plain text).IsUnconditional := nofun

theorem isUnconditional_call (c : ProbeCall) : (call c).IsUnconditional := nofun

theorem IsUnconditional.after {l : SourceLine} (h : l.IsUnconditional) (n : Nesting) :
    n.after l = some n := by
  cases l with
  | plain text => cases n <;> rfl
  | call c => cases n <;> rfl
  | conditional c => exact absurd rfl (h c)

namespace WellChained

theorem nil : WellChained [] := rfl

theorem append {ls ls' : List SourceLine} (h : WellChained ls) (h' : WellChained ls') :
    WellChained (ls ++ ls') := by
  unfold WellChained at *
  rw [List.foldlM_append, h]
  exact h'

theorem flatMap {α : Type} {xs : List α} {lines : α → List SourceLine}
    (h : ∀ x ∈ xs, WellChained (lines x)) : WellChained (xs.flatMap lines) := by
  induction xs with
  | nil => exact nil
  | cons x xs ih =>
    rw [List.flatMap_cons]
    exact (h x (List.mem_cons_self ..)).append (ih fun y hy => h y (List.mem_cons_of_mem _ hy))

theorem of_unconditional {ls : List SourceLine} (h : ∀ l ∈ ls, l.IsUnconditional) :
    WellChained ls := by
  induction ls with
  | nil => exact nil
  | cons l ls ih =>
    have first : WellChained [l] := by
      rw [WellChained, List.foldlM_cons, (h l (List.mem_cons_self ..)).after]
      rfl
    exact first.append (ih fun l' hl' => h l' (List.mem_cons_of_mem _ hl'))

end WellChained

/-- Candidates after the first go on with the chain that they stand in. -/
theorem foldlM_branchLines (call : String → ProbeCall) (candidates : List String) :
    (branchLines call false candidates).foldlM Nesting.after .chain = some .chain := by
  induction candidates with
  | nil => rfl
  | cons candidate rest ih => exact ih

/-- A chain for at least one candidate. -/
theorem wellChained_candidateLines {candidates : List String} (h : candidates ≠ [])
    (optional : Bool) (missingName : String) (call : String → ProbeCall) :
    WellChained (candidateLines candidates optional missingName call) := by
  obtain ⟨candidate, rest, rfl⟩ := List.exists_cons_of_ne_nil h
  -- the first candidate opens the chain, and the others stay in it
  have branches : (branchLines call true (candidate :: rest)).foldlM Nesting.after .outside =
      some .chain := foldlM_branchLines call rest
  unfold WellChained candidateLines
  rw [List.append_assoc, List.foldlM_append, branches]
  cases optional <;> rfl

end SourceLine

open SourceLine

theorem Constant.wellChained_lines {c : Constant} (h : c.candidates ≠ []) :
    WellChained c.lines :=
  wellChained_candidateLines h c.optional c.name _

theorem Member.wellChained_plainLines (m : Member) : WellChained m.plainLines := by
  unfold plainLines
  split
  · exact .nil
  · -- a guard has one line in it, and without it the line stands alone
    split
    · rfl
    · exact .of_unconditional (by simp [isUnconditional_call])

theorem Enumeration.wellChained_lines {e : Enumeration} (h : ∀ m ∈ e.members, m.candidates ≠ [])
    (current : Option String) : WellChained (e.lines current) := by
  have start : WellChained [.call (.enumBegin e.name (e.base.path current) e.documentation)] :=
    .of_unconditional (by simp [isUnconditional_call])
  have finish : WellChained [.call .enumEnd] := .of_unconditional (by simp [isUnconditional_call])
  have members : WellChained (e.members.flatMap e.memberLines) := by
    refine .flatMap fun m hm => ?_
    unfold memberLines
    split
    · exact wellChained_candidateLines (h m hm) m.optional _ _
    · exact m.wellChained_plainLines
  have constants : WellChained
      (if e.defineConstants then e.members.flatMap fun m => m.asConstant.lines else []) := by
    split
    · exact .flatMap fun m hm => Constant.wellChained_lines (h m hm)
    · exact .nil
  have all := (start.append members).append (finish.append constants)
  simpa [lines] using all

theorem Record.isUnconditional_lines (r : Record) (current : Option String) :
    ∀ l ∈ r.lines current, l.IsUnconditional := by
  intro l hl
  rcases List.mem_append.1 hl with hl | hl
  · rcases List.mem_cons.1 hl with rfl | hl
    · exact isUnconditional_call _
    · obtain ⟨s, -, rfl⟩ := List.mem_map.1 hl
      exact isUnconditional_call _
  · rw [List.mem_singleton.1 hl]
    exact isUnconditional_call _

/-- The lines of a valid entry, in any module. -/
theorem Entry.wellChained_added {k : Kind} {e : Entry} (h : e.Valid k) (mode : Mode)
    (current : Option String) : WellChained (e.added mode current).lines := by
  cases e with
  | constant c => exact Constant.wellChained_lines (Constant.Valid.candidates_ne_nil h)
  | enumeration e =>
    exact e.wellChained_lines
      (fun m hm => (Enumeration.Valid.members_valid h m hm).candidates_ne_nil) current
  | inNamespace name =>
    -- only a probe prints modules
    refine .of_unconditional ?_
    cases mode <;> cases current <;>
      simp [added, Draft.absorb, Draft.openModule, Draft.write, Draft.declare, Draft.closingLines,
        isUnconditional_call]
  | define name value =>
    refine .of_unconditional ?_
    cases value <;> simp [added, Draft.absorb, Draft.write, Draft.defineLine, isUnconditional_plain]
  | wrapper w =>
    refine .of_unconditional ?_
    intro l hl
    obtain ⟨text, -, rfl⟩ := List.mem_map.1 hl
    exact isUnconditional_plain text
  | record r => exact .of_unconditional (r.isUnconditional_lines current)
  | _ =>
    refine .of_unconditional ?_
    simp [added, Draft.absorb, Draft.write, Draft.withFlags, Alias.lines, isUnconditional_plain,
      isUnconditional_call]

/-! ## Directives that are understood -/

/-- A directive that is understood stands for a valid entry. -/
theorem Dialect.entry_valid {mode : Mode} {d : Directive} {p : Placed}
    (h : (ofMode mode).interpret d = .ok p) : p.entry.Valid p.kind :=
  Entry.valid_of_shape (interpret_eq_ok.1 h).2.2.2

/-- **Valid entries.** Every directive that the dialect of a mode understands stands for a valid
entry: all names that it declares are identifiers, but no keywords and no lone underscore, and all
names of C that it tests for or calls are identifiers. A member is always printed by one of its own
candidates, and whatever a draft has collected before, in the lines that the entry adds every chain
of conditionals starts with an `#if`. -/
theorem Dialect.valid_of_interpret {mode : Mode} {d : Directive} {p : Placed}
    (h : (ofMode mode).interpret d = .ok p) :
    p.entry.Valid p.kind ∧
      (∀ n ∈ p.entry.declaredNames,
        Identifier.IsWritten n ∧ n ≠ "_" ∧ n ∉ Identifier.keywords) ∧
      (∀ n ∈ p.entry.nativeNames, Identifier.IsWritten n) ∧
      (∀ e, p.entry = .enumeration e → ∀ m ∈ e.members,
        ∃ native ∈ m.candidates, m.native? = some native) ∧
      ∀ s : Draft, ∃ lines, (s.absorb p.entry).lines = s.lines ++ lines ∧ WellChained lines := by
  have valid : p.entry.Valid p.kind := entry_valid h
  refine ⟨valid, ?_, valid.written, ?_, ?_⟩
  · intro n hn
    exact (Identifier.isDeclarable_iff n).1 (valid.declarable n hn)
  · intro e he m hm
    rw [he] at valid
    have candidates_ne := (Enumeration.Valid.members_valid valid m hm).candidates_ne_nil
    obtain ⟨native, rest, hcandidates⟩ := List.exists_cons_of_ne_nil candidates_ne
    exact ⟨native, by simp [hcandidates], by simp [Member.native?, hcandidates]⟩
  · intro s
    exact ⟨_, (s.takes_absorb p).lines_eq, Entry.wellChained_added valid s.mode s.current⟩

/-- All entries of a specification are valid. -/
theorem Dialect.valid_of_interpretAll {mode : Mode} {ds : List Directive} {ps : List Placed}
    (h : (ofMode mode).interpretAll ds = .ok ps) {p : Placed} (hp : p ∈ ps) :
    p.entry.Valid p.kind := by
  obtain ⟨d, -, hd⟩ := exists_interpret_of_mem h hp
  exact entry_valid hd

/-- A record with one slot of four elements and one of as many as a macro says. -/
def Record.address : Record :=
  { kind := .struct, name := "sock_address", native := "struct sockaddr", documentation := none,
    slots := [⟨"SA_DATA", "sa_data", .primitive .char, .fixed 4⟩,
      ⟨"PAD", "sa_pad", .pointer (.primitive .void), .named "PADDING"⟩] }

/-- A directive that asks for it. -/
def Spec.Directive.address : Directive :=
  ⟨"cstruct",
    [.symbol ⟨some "net", "sock-address"⟩, .string "struct sockaddr",
      .list [.symbol ⟨some "net", "sa-data"⟩, .string "sa_data", .keyword "type",
        .keyword "char", .keyword "count", .integer ⟨4, "0x4"⟩],
      .list [.symbol ⟨some "net", "*pad*"⟩, .string "sa_pad", .keyword "count",
        .symbol ⟨some "net", "PADDING"⟩, .keyword "type",
        .list [.keyword "pointer", .keyword "void"]]], 7⟩

theorem Dialect.valid_address :
    (ofMode .probe).interpret Directive.address = .ok ⟨.struct, 7, .record Record.address⟩ ∧
      Record.address.Valid := by
  have understood : (ofMode .probe).interpret Directive.address =
      .ok ⟨.struct, 7, .record Record.address⟩ := rfl
  exact ⟨understood, (valid_of_interpret understood).1⟩

end ForeignBindings
