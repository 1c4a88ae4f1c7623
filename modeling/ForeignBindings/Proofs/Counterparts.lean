import ForeignBindings.Build.Pipeline
import ForeignBindings.Proofs.Layout
import ForeignBindings.Proofs.Refusals
import ForeignBindings.Proofs.Sections
import ForeignBindings.Proofs.Validity

/-!
# Definitions and declarations of wrappers

A wrapper is written down twice: as a function in the C source, and as a declaration in the
bindings. A call goes right only where the two agree.

* `Counterparts` is all that the two texts of one wrapper have in common.
* `Sectioned.render_eq` says in which module of the bindings each declaration stands.
* `Generated.wrapper_counterparts` puts both together for a whole specification, in its order.
-/

namespace ForeignBindings

open Spec Checks Packages

/-! ## Names in quotes -/

/-- What holds of each of the 128 characters of ASCII holds of every character below 128. -/
theorem Text.forall_ascii (P : Char → Prop) (h : ∀ n < 128, P (Char.ofNat n)) {c : Char}
    (hc : c.toNat < 128) : P c := by
  have this_one := h c.toNat hc
  rwa [Char.ofNat_toNat] at this_one

/-- The characters of identifiers are ASCII. -/
theorem Identifier.lt_of_isContinue {c : Char} (h : isContinue c = true) : c.toNat < 128 := by
  have below : ∀ last : Char, last.toNat < 128 → c.val ≤ last.val → c.toNat < 128 :=
    fun last hlast hc => Nat.lt_of_le_of_lt (UInt32.le_iff_toNat_le.1 hc) hlast
  rcases Bool.or_eq_true_iff.1 h with underscore | h
  · rw [beq_iff_eq.1 underscore]
    decide
  · rcases Bool.or_eq_true_iff.1 h with letter | digit
    · rcases Bool.or_eq_true_iff.1 letter with capital | small
      · exact below 'Z' (by decide) (of_decide_eq_true capital).2
      · exact below 'z' (by decide) (of_decide_eq_true (Bool.and_eq_true_iff.1 small).2)
    · exact below '9' (by decide) (of_decide_eq_true (Bool.and_eq_true_iff.1 digit).2)

namespace Text

/-- A code point is in no range if all ranges are below it or above it. -/
theorem inRanges_eq_false {ranges : List CodeRange} {code low high : Nat}
    (h : ∀ r ∈ ranges, r.2 < low ∨ high ≤ r.1) (hlow : low ≤ code) (hhigh : code < high) :
    inRanges ranges code = false := by
  rw [inRanges, List.any_eq_false]
  intro r hr
  have apart := h r hr
  simp only [Bool.and_eq_true, decide_eq_true_eq]
  omega

/-- A character of an identifier stands for itself between quotes. -/
theorem quoteChar_of_isContinue {c : Char} (h : Identifier.isContinue c = true) :
    quoteChar c = [c] := by
  have small := Identifier.lt_of_isContinue h
  have bounds : '0'.toNat ≤ c.toNat ∧ c.toNat < 127 :=
    forall_ascii (fun d => Identifier.isContinue d = true → '0'.toNat ≤ d.toNat ∧ d.toNat < 127)
      (by decide +kernel) small h
  have basic : c.toNat < 0x10000 := by omega
  -- the controls are below the digits, and no other range starts before the last control of ASCII
  have shown : isPrintable c = true := by
    have ranges_apart : ∀ r ∈ shapelessBasic, r.2 < '0'.toNat ∨ 127 ≤ r.1 := by decide +kernel
    rw [isPrintable, if_pos basic, inRanges_eq_false ranges_apart bounds.1 bounds.2, Bool.not_false]
  have alone : extendsGrapheme c = false := by
    have ranges_apart : ∀ r ∈ extendingBasic, r.2 < '0'.toNat ∨ 127 ≤ r.1 := by decide +kernel
    rw [extendsGrapheme, if_pos basic, inRanges_eq_false ranges_apart bounds.1 bounds.2]
  -- no character with an escape of its own can be in an identifier
  have not_escaped : ∀ d, Identifier.isContinue d = false → c ≠ d := by
    rintro d hd rfl
    rw [h] at hd
    cases hd
  unfold quoteChar
  rw [if_neg (not_escaped _ (by decide)), if_neg (not_escaped _ (by decide)),
    if_neg (not_escaped _ (by decide)), if_neg (not_escaped _ (by decide)),
    if_neg (not_escaped _ (by decide)), if_neg (not_escaped _ (by decide)), shown, alone]
  rfl

theorem quoted_of_isContinue {name : String}
    (h : ∀ c ∈ name.toList, Identifier.isContinue c = true) :
    quoted name = "\"" ++ name ++ "\"" := by
  have unchanged : ∀ cs : List Char, (∀ c ∈ cs, Identifier.isContinue c = true) →
      cs.flatMap quoteChar = cs := by
    intro cs
    induction cs with
    | nil => simp
    | cons c cs ih =>
      intro hcs
      have first := quoteChar_of_isContinue (hcs c (List.mem_cons_self ..))
      have rest := ih fun d hd => hcs d (List.mem_cons_of_mem _ hd)
      rw [List.flatMap_cons, first, rest]
      rfl
  apply String.toList_injective
  rw [quoted, unchanged name.toList h]
  simp

end Text

theorem Identifier.isContinue_of_mem {name : String} (h : isIdentifier name = true) :
    ∀ c ∈ name.toList, isContinue c = true := by
  unfold isIdentifier at h
  split at h
  · cases h
  · rename_i c cs letters
    rw [letters]
    simp only [Bool.and_eq_true] at h
    obtain ⟨⟨hstart, -⟩, hcontinue⟩ := h
    intro d hd
    rcases List.mem_cons.1 hd with rfl | hd
    · -- what an identifier may start with, it may go on with
      rcases Bool.or_eq_true_iff.1 hstart with underscore | letter
      · exact Bool.or_eq_true_iff.2 (.inl underscore)
      · exact Bool.or_eq_true_iff.2 (.inr (Bool.or_eq_true_iff.2 (.inl letter)))
    · exact List.all_eq_true.1 hcontinue d hd

/-! ## One wrapper -/

/-- What the definition of a wrapper and its declaration in a module, or at the root, have in
common. -/
structure Counterparts (w : Wrapper) (current : Option String) (d : Definition)
    (f : DeclaredFunction) : Prop where
  /-- The bindings link to the name that the C function has. -/
  linked : d.name = w.native ++ "_wrap" ∧ ∀ link,
    ["    #[link_name = \"" ++ d.name ++ "\"]", "    " ++ Bindings.signature f, "\x7d"] <:+
      Bindings.blockLines link f
  parameter_names : f.parameters.map Prod.fst = d.parameters.map Prod.snd
  no_parameters : d.parameterList = "void" ↔ f.parameters = []
  /-- Both have no result where the result of the wrapper is the type of no value. -/
  no_result : f.result = none ↔ w.result = .primitive .void
  declared : Bindings.signature f = "pub fn " ++ w.name ++ "(" ++
    ", ".intercalate (f.parameters.map fun (name, type) => name ++ ": " ++ type) ++
    (if w.result = .primitive .void then ");" else ") -> " ++ w.result.path current ++ ";")
  /-- A type of the name `void` is a type like any other, but C takes it for no result too. -/
  void_result : d.result = "void" ↔
    w.result = .primitive .void ∨ ∃ scope, w.result = .named ⟨scope, "void"⟩
  forwards : w.body = .forward →
    d.body = [(if w.result = .primitive .void then "" else "return ") ++ w.native ++ "(" ++
      ", ".intercalate (d.parameters.map Prod.snd) ++ ");"]

theorem ForeignType.isVoid_iff (t : ForeignType) : t.isVoid = true ↔ t = .primitive .void := by
  cases t with
  | primitive p => cases p <;> simp [isVoid]
  | named s => simp [isVoid]
  | pointer target => simp [isVoid]

/-- Only a dash is changed, and then into an underscore. -/
theorem Identifier.typeName_of_no_underscore {name : String}
    (h : '_' ∉ (typeName name).toList) : typeName name = name := by
  have unchanged : ∀ cs : List Char, '_' ∉ cs.map undash → cs.map undash = cs := by
    intro cs
    induction cs with
    | nil => simp
    | cons c cs ih =>
      intro hcs
      rw [List.map_cons, List.mem_cons, not_or] at hcs
      have first : undash c = c := by
        unfold undash at hcs ⊢
        split at hcs
        · exact absurd rfl hcs.1
        · rename_i not_dash
          rw [if_neg not_dash]
      rw [List.map_cons, first, ih hcs.2]
  rw [typeName, String.toList_ofList] at h
  rw [typeName, unchanged name.toList h, String.ofList_toList]

/-- In C, a type is spelled `void` if it is the type of no value, or is named so. -/
theorem ForeignType.cSpelling_eq_void (t : ForeignType) :
    t.cSpelling = "void" ↔ t = .primitive .void ∨ ∃ scope, t = .named ⟨scope, "void"⟩ := by
  cases t with
  | primitive p => cases p <;> simp [cSpelling, Primitive.cSpelling]
  | named s =>
    obtain ⟨scope, name⟩ := s
    constructor
    · intro h
      have spelled : Identifier.typeName name = "void" := h
      have same : Identifier.typeName name = name :=
        Identifier.typeName_of_no_underscore (by rw [spelled]; decide)
      exact .inr ⟨scope, by rw [← same, spelled]⟩
    · rintro (h | ⟨scope', h⟩)
      · cases h
      · cases h
        show Identifier.typeName "void" = "void"
        decide
  | pointer target =>
    constructor
    · intro h
      -- a pointer is spelled with a star
      have star : '*' ∈ "void".toList := by
        rw [← h, cSpelling]
        simp
      exact absurd star (by decide)
    · rintro (h | ⟨scope, h⟩)
      · cases h
      · cases h

/-- A parameter list says `void` just if it is empty. -/
theorem Definition.parameterList_eq_void (d : Definition) :
    d.parameterList = "void" ↔ d.parameters = [] := by
  unfold parameterList
  cases hparameters : d.parameters with
  | nil => simp
  | cons first rest =>
    obtain ⟨type, name⟩ := first
    constructor
    · intro h
      -- a parameter has a blank between its type and its name
      have blank : ' ' ∈ "void".toList := by
        rw [← h, List.isEmpty_cons, if_neg (by decide), String.toList_intercalate]
        cases rest with
        | nil => simp
        | cons next rest => simp [List.intercalate_cons_cons]
      exact absurd blank (by decide)
    · intro h
      cases h

theorem Wrapper.counterparts {w : Wrapper} (h : w.Valid) (current : Option String) :
    Counterparts w current w.definition (w.declaration current) where
  linked := by
    refine ⟨rfl, fun link => ?_⟩
    have quoted : Text.quoted w.symbol = "\"" ++ w.symbol ++ "\"" := by
      apply Text.quoted_of_isContinue
      intro c hc
      rw [symbol, String.toList_append, List.mem_append] at hc
      rcases hc with hc | hc
      · exact Identifier.isContinue_of_mem h.native_identifier c hc
      · have suffix_ok : "_wrap".toList.all Identifier.isContinue = true := by decide
        exact List.all_eq_true.1 suffix_ok c hc
    have link_line : "    #[link_name = " ++ Text.quoted w.symbol ++ "]" =
        "    #[link_name = \"" ++ w.definition.name ++ "\"]" := by
      rw [quoted]
      apply String.toList_injective
      simp [definition]
    rw [← link_line]
    exact List.suffix_append _ _
  parameter_names := by
    simp [declaration, definition]
  no_parameters := by
    rw [Definition.parameterList_eq_void]
    simp [declaration, definition]
  no_result := by
    rw [← ForeignType.isVoid_iff, declaration]
    cases w.result.isVoid <;> simp
  declared := by
    unfold declaration Bindings.signature
    by_cases no_value : w.result = .primitive .void
    · have is_void := (ForeignType.isVoid_iff w.result).2 no_value
      rw [if_pos no_value, if_pos is_void]
      simp [String.append_assoc]
    · have not_void : ¬ w.result.isVoid = true := fun h =>
        no_value ((ForeignType.isVoid_iff w.result).1 h)
      rw [if_neg no_value, if_neg not_void]
      apply String.toList_injective
      simp
  void_result := ForeignType.cSpelling_eq_void w.result
  forwards := by
    intro hbody
    have arguments : w.definition.parameters.map Prod.snd = w.parameters.map Prod.fst := by
      simp [definition]
    rw [arguments]
    show w.statements = _
    unfold statements forwardingCall
    rw [hbody]
    by_cases no_value : w.result = .primitive .void
    · have is_void := (ForeignType.isVoid_iff w.result).2 no_value
      rw [if_pos no_value]
      simp [is_void]
    · have not_void : ¬ w.result.isVoid = true := fun h =>
        no_value ((ForeignType.isVoid_iff w.result).1 h)
      rw [if_neg no_value]
      simp [not_void, String.append_assoc]

/-! ## All wrappers of a specification -/

/-- The wrapper that an entry asks for. -/
def Entry.wrapper? : Entry → Option Wrapper
  | .wrapper w => some w
  | _ => none

/-- The wrappers that some entries ask for, in their order. -/
def wrappersIn (ps : List Placed) : List Wrapper :=
  ps.filterMap fun p => p.entry.wrapper?

/-- The tags of the directives that ask for wrappers. -/
def Spec.wrapperTags : List String := ["defwrapper", "defwrapper*"]

/-- The lines of an entry in the source of a library. A wrapper has its definition there. -/
def Entry.libraryLines : Entry → List SourceLine
  | .wrapper w => w.definition.lines
  | e => (e.added .wrapper none).lines

/-- The block of a declaration in the bindings, with an empty line in front of it. -/
def Bindings.indentedBlock (link indent : String) (f : DeclaredFunction) : List String :=
  "" :: (blockLines link f).map (indent ++ ·)

/-- The module of a section in the bindings. -/
def Section.moduleLines (link : String) (s : Section) : List String :=
  ["", "pub mod " ++ s.name ++ " \x7b"] ++
    (wrappersIn s.entries).flatMap (fun w =>
      Bindings.indentedBlock link "    " (w.declaration (some s.name))) ++
    ["\x7d"]

theorem wrappersIn_append (ps qs : List Placed) :
    wrappersIn (ps ++ qs) = wrappersIn ps ++ wrappersIn qs :=
  List.filterMap_append

theorem wrappersIn_cons (p : Placed) (ps : List Placed) :
    wrappersIn (p :: ps) = p.entry.wrapper?.toList ++ wrappersIn ps := by
  rw [wrappersIn, List.filterMap_cons]
  cases p.entry.wrapper? <;> rfl

/-- In one module, entries declare their wrappers. -/
theorem declarations_of_stays {ps : List Placed} (h : ∀ p ∈ ps, p.entry.module? = none)
    (current : Option String) :
    (ps.flatMap fun p => (p.entry.added .wrapper current).declarations) =
      (wrappersIn ps).map fun w => .function (w.declaration current) := by
  induction ps with
  | nil => rfl
  | cons p ps ih =>
    have hrest := ih fun q hq => h q (List.mem_cons_of_mem _ hq)
    have stays := h p (List.mem_cons_self ..)
    rw [List.flatMap_cons, hrest, wrappersIn_cons]
    cases hentry : p.entry with
    | wrapper w => rfl
    | inNamespace name =>
      rw [hentry] at stays
      cases stays
    | _ => rfl

theorem Bindings.declarationLines_functions {α : Type} (link : String) (inModule : Bool)
    (xs : List α) (f : α → DeclaredFunction) (rest : List Declaration) :
    declarationLines link inModule ((xs.map fun x => .function (f x)) ++ rest) =
      xs.flatMap (fun x => indentedBlock link (if inModule then "    " else "") (f x)) ++
        declarationLines link inModule rest := by
  induction xs with
  | nil => rfl
  | cons x xs ih =>
    rw [List.map_cons, List.cons_append, declarationLines, ih, List.flatMap_cons,
      List.append_assoc]
    rfl

/-- The declarations of some modules, each of them behind its start. A module that is still open is
ended first. -/
theorem Bindings.declarationLines_modules {α : Type} (link : String) (inModule : Bool)
    (xs : List α) (name : α → String) (functions : α → List DeclaredFunction) :
    declarationLines link inModule
        (xs.flatMap fun x => .inNamespace (name x) :: (functions x).map .function) =
      (if inModule then ["\x7d"] else []) ++ xs.flatMap fun x =>
        ["", "pub mod " ++ name x ++ " \x7b"] ++
          (functions x).flatMap (indentedBlock link "    ") ++ ["\x7d"] := by
  induction xs generalizing inModule with
  | nil =>
    rw [List.flatMap_nil, List.flatMap_nil, declarationLines, List.append_nil]
  | cons x xs ih =>
    -- the blocks of the module stand behind its start, and the rest ends it
    have blocks := declarationLines_functions link true (functions x) id
      (xs.flatMap fun y => .inNamespace (name y) :: (functions y).map .function)
    rw [List.flatMap_cons, List.flatMap_cons, List.cons_append, declarationLines]
    simp only [id] at blocks
    rw [blocks, ih true]
    simp

/-- The declarations of sections, in the modules of the bindings. -/
theorem Bindings.declarationLines_sections (link : String) (inModule : Bool)
    (sections : List Section) :
    declarationLines link inModule (sections.flatMap fun s => .inNamespace s.name ::
        (wrappersIn s.entries).map fun w => .function (w.declaration (some s.name))) =
      (if inModule then ["\x7d"] else []) ++ sections.flatMap (Section.moduleLines link) := by
  have modules := declarationLines_modules link inModule sections Section.name fun s =>
    (wrappersIn s.entries).map fun w => w.declaration (some s.name)
  unfold Section.moduleLines
  simpa [List.flatMap_map, Function.comp_def] using modules

/-- **Modules of the bindings.** The block of each wrapper stands in the module of the last switch
before it, or at the root, in the order of the entries. -/
theorem Sectioned.render_eq {ps root : List Placed} {sections : List Section}
    (h : Sectioned ps root sections) (library : Library) :
    Bindings.render (declarationsFrom .wrapper none ps) library =
      String.join ((Bindings.banner ++ Bindings.libraryLines library ++
        ((wrappersIn root).flatMap (fun w =>
          Bindings.indentedBlock library.name "" (w.declaration none)) ++
        sections.flatMap (Section.moduleLines library.name))).map (· ++ "\n")) := by
  have in_sections : (sections.flatMap fun s => Declaration.inNamespace s.name ::
      s.entries.flatMap fun p => (p.entry.added .wrapper (some s.name)).declarations) =
        sections.flatMap fun s => .inNamespace s.name ::
          (wrappersIn s.entries).map fun w => .function (w.declaration (some s.name)) := by
    rw [List.flatMap_def, List.flatMap_def]
    refine congrArg List.flatten (List.map_congr_left fun s hs => ?_)
    rw [declarations_of_stays (h.stays s hs)]
  rw [Bindings.render, h.declarations_eq, declarations_of_stays h.root_stays, in_sections,
    Bindings.declarationLines_functions, Bindings.declarationLines_sections]
  rfl

/-- Each wrapper is one function of the bindings. -/
theorem countP_declarationsFrom (current : Option String) (ps : List Placed) :
    (declarationsFrom .wrapper current ps).countP Declaration.isFunction =
      (wrappersIn ps).length := by
  induction ps generalizing current with
  | nil => rfl
  | cons p ps ih =>
    rw [declarationsFrom, List.countP_append, ih, wrappersIn_cons, List.length_append]
    cases p.entry <;> rfl

theorem Sectioned.wrappersIn_eq {ps root : List Placed} {sections : List Section}
    (h : Sectioned ps root sections) :
    wrappersIn ps = wrappersIn root ++ sections.flatMap fun s => wrappersIn s.entries := by
  have in_sections : ∀ sections : List Section,
      (∀ s ∈ sections, s.switch.entry = .inNamespace s.name) →
      wrappersIn (sections.flatMap Section.all) =
        sections.flatMap fun s => wrappersIn s.entries := by
    intro sections
    induction sections with
    | nil => exact fun _ => rfl
    | cons s sections ih =>
      intro hswitch
      have rest := ih fun t ht => hswitch t (List.mem_cons_of_mem _ ht)
      rw [List.flatMap_cons, List.flatMap_cons, wrappersIn_append, rest, Section.all,
        wrappersIn_cons, hswitch s (List.mem_cons_self ..)]
      rfl
  rw [h.eq, wrappersIn_append, in_sections sections h.switch_eq]

theorem Spec.Kind.contains_wrapperTags (k : Kind) :
    wrapperTags.contains k.tag = (k == .wrapper || k == .wrapperWithBody) := by
  cases k <;> decide

/-- A wrapper comes from a directive with one of two tags, and nothing else does. -/
theorem Entry.isSome_wrapper? {e : Entry} {k : Kind} (h : k ∈ e.kinds) :
    e.wrapper?.isSome = wrapperTags.contains k.tag := by
  rw [Kind.contains_wrapperTags]
  cases e with
  | flags words | record r | enumeration e | wrapper w =>
    -- these entries come from two kinds of directives each
    simp only [kinds, List.mem_cons, List.not_mem_nil, or_false] at h
    rcases h with rfl | rfl <;> rfl
  | _ =>
    obtain rfl := List.mem_singleton.1 h
    rfl

/-- In a library, what an entry adds does not depend on the module that it is in. -/
theorem Entry.lines_added_wrapper {e : Entry} {k : Kind} (h : k ∈ e.kinds)
    (hk : k ∈ Mode.wrapper.kinds) (current : Option String) :
    (e.added .wrapper current).lines = e.libraryLines := by
  cases e with
  | record r | enumeration e =>
    -- the entries whose types would be spelled from the module are for probes only
    simp only [kinds, List.mem_cons, List.not_mem_nil, or_false] at h
    rcases h with rfl | rfl <;> exact absurd hk (by decide)
  | _ => rfl

namespace Dialect

variable {ds : List Directive} {ps : List Placed}

/-- The entries of wrapper directives are those that ask for wrappers. -/
theorem interpretAll_wrappers (h : (ofMode .wrapper).interpretAll ds = .ok ps) :
    (ofMode .wrapper).interpretAll (ds.filter fun d => wrapperTags.contains d.tag) =
      .ok (ps.filter fun p => p.entry.wrapper?.isSome) := by
  apply interpretAll_filter _ h
  intro d p hd
  rw [← (interpret_eq_ok.1 hd).1]
  exact Entry.isSome_wrapper? (kind_mem_kinds hd)

/-- All wrappers of a specification are valid. -/
theorem valid_of_mem_wrappersIn (h : (ofMode .wrapper).interpretAll ds = .ok ps) {w : Wrapper}
    (hw : w ∈ wrappersIn ps) : w.Valid := by
  obtain ⟨p, hp, hentry⟩ := List.mem_filterMap.1 hw
  have valid := valid_of_interpretAll h hp
  cases hp_entry : p.entry with
  | wrapper w' =>
    rw [hp_entry] at hentry valid
    cases hentry
    exact valid
  | _ =>
    rw [hp_entry] at hentry
    cases hentry

/-- The source of a library has the lines of its entries, in their order. -/
theorem linesFrom_wrapper (h : (ofMode .wrapper).interpretAll ds = .ok ps)
    (current : Option String) :
    linesFrom .wrapper current ps = ps.flatMap fun p => p.entry.libraryLines := by
  have each : ∀ p ∈ ps, ∀ current,
      (p.entry.added .wrapper current).lines = p.entry.libraryLines := by
    intro p hp current
    obtain ⟨d, -, hd⟩ := exists_interpret_of_mem h hp
    exact Entry.lines_added_wrapper (kind_mem_kinds hd) (interpret_eq_ok.1 hd).2.1 current
  clear h
  induction ps generalizing current with
  | nil => rfl
  | cons p ps ih =>
    have rest := ih (p.entry.module?.or current) fun q hq => each q (List.mem_cons_of_mem _ hq)
    rw [linesFrom, rest, each p (List.mem_cons_self ..), List.flatMap_cons]

end Dialect

/-! ## A whole library -/

namespace Pipeline

/-- What a run prepares is generated from the directives of its input. -/
theorem generated_of_prepare {mode : Mode} {input : String} {output : Option String}
    {g : Generated} {o : Outputs} {w w' : World}
    (h : (prepare mode input output).outcome w = (.ok (g, o), w')) :
    ∃ ds w₁ w₂, (directivesIn input).outcome w = (.ok ds, w₁) ∧
      (Generated.ofDirectives mode ds).outcome w₁ = (.ok g, w₂) := by
  obtain ⟨ds, w₁, hread, h⟩ := Action.outcome_bind_eq_ok.1 h
  obtain ⟨g', w₂, hgenerated, h⟩ := Action.outcome_bind_eq_ok.1 h
  refine ⟨ds, w₁, w₂, hread, ?_⟩
  -- the outputs have to be named before the rest of the run can be looked at
  cases houtputs : Outputs.ofInput input output mode with
  | error cause =>
    rw [houtputs] at h
    obtain ⟨o', w₃, hthrow, -⟩ := Action.outcome_bind_eq_ok.1 h
    cases hthrow
  | ok o' =>
    rw [houtputs] at h
    obtain ⟨o'', w₃, -, h⟩ := Action.outcome_bind_eq_ok.1 h
    obtain ⟨_, w₄, -, h⟩ := Action.outcome_bind_eq_ok.1 h
    cases h
    exact Action.outcome_mapError_eq_ok.1 hgenerated

/-- A run that makes a library has generated it from the directives of its input, and reports the
number of functions that it declares. -/
theorem wrapper_eq_ok {input : String} {output : Option String} {compiler : Compiler}
    {report : LibraryReport} {w w' : World} {text : String} {ds : List Directive}
    (htext : w.readText input = .ok text) (hds : directivesOf text = .ok ds)
    (h : (wrapper input output compiler).outcome w = (.ok report, w')) :
    ∃ g w₁ w₂, (Generated.wrapper ds).outcome w₁ = (.ok g, w₂) ∧
      report.functions = g.declarations.countP Declaration.isFunction := by
  obtain ⟨⟨g, o⟩, w₁, hprepare, h⟩ := Action.outcome_bind_eq_ok.1 h
  obtain ⟨ds', w₂, w₃, hread, hgenerated⟩ := generated_of_prepare hprepare
  rw [outcome_directivesIn, htext] at hread
  dsimp only at hread
  rw [hds] at hread
  cases hread
  refine ⟨g, w, w₃, hgenerated, ?_⟩
  -- all that is left to do changes nothing of what has been generated
  obtain ⟨_, w₄, -, h⟩ := Action.outcome_bind_eq_ok.1 h
  obtain ⟨_, w₅, -, h⟩ := Action.outcome_bind_eq_ok.1 h
  obtain ⟨searchPath, w₆, -, h⟩ := Action.outcome_bind_eq_ok.1 h
  obtain ⟨_, w₇, -, h⟩ := Action.outcome_bind_eq_ok.1 h
  obtain ⟨_, w₈, -, h⟩ := Action.outcome_bind_eq_ok.1 h
  cases h
  rfl

end Pipeline

namespace Generated

/-- The parts of a library that has been generated. -/
theorem wrapper_parts {ds : List Directive} {g : Generated} {w w' : World}
    (h : (wrapper ds).outcome w = (.ok g, w')) :
    ∃ ps, (Dialect.ofMode .wrapper).interpretAll ds = .ok ps ∧
      g.lines = banner ++ ps.flatMap (fun p => p.entry.libraryLines) ∧
      g.declarations = declarationsFrom .wrapper none ps := by
  obtain ⟨ps, s, hps, hall, rfl⟩ := wrapper_eq_ok h
  refine ⟨ps, hps, ?_, ?_⟩
  · have lines := hall.lines_eq
    rw [← Dialect.linesFrom_wrapper hps none]
    exact lines
  · exact hall.declarations_eq

/-- **Wrappers and their declarations.** The C source of a library and its bindings have the same
wrappers in the same order, one for each directive that asks for one: each has a definition in the
source and a block in the bindings, which are counterparts of each other. The block stands in the
module of the last switch before the directive, or at the root. A run that makes the library reports
as many functions. -/
theorem wrapper_counterparts {ds : List Directive} {g : Generated} {w w' : World}
    (h : (wrapper ds).outcome w = (.ok g, w')) :
    ∃ ps, (Dialect.ofMode .wrapper).interpretAll ds = .ok ps ∧
      (Dialect.ofMode .wrapper).interpretAll (ds.filter fun d => wrapperTags.contains d.tag) =
        .ok (ps.filter fun p => p.entry.wrapper?.isSome) ∧
      Sectioned ps (rootOf ps) (sectionsOf ps) ∧
      wrappersIn ps =
        (wrappersIn (rootOf ps) ++ (sectionsOf ps).flatMap fun s => wrappersIn s.entries) ∧
      g.source = SourceLine.render (banner ++ ps.flatMap fun p => p.entry.libraryLines) ∧
      (∀ library, Bindings.render g.declarations library =
        String.join ((Bindings.banner ++ Bindings.libraryLines library ++
          ((wrappersIn (rootOf ps)).flatMap (fun x =>
            Bindings.indentedBlock library.name "" (x.declaration none)) ++
          (sectionsOf ps).flatMap (Section.moduleLines library.name))).map (· ++ "\n"))) ∧
      (∀ x ∈ wrappersIn ps, ∀ current,
        Counterparts x current x.definition (x.declaration current)) ∧
      ∀ input output compiler text report v v', v.readText input = .ok text →
        directivesOf text = .ok ds →
        (Pipeline.wrapper input output compiler).outcome v = (.ok report, v') →
        report.functions = (wrappersIn ps).length := by
  obtain ⟨ps, hps, hlines, hdeclarations⟩ := wrapper_parts h
  have hsections := sectioned ps
  refine ⟨ps, hps, Dialect.interpretAll_wrappers hps, hsections, hsections.wrappersIn_eq, ?_, ?_,
    ?_, ?_⟩
  · rw [source, hlines]
  · intro library
    rw [hdeclarations]
    exact hsections.render_eq library
  · intro x hx current
    exact Wrapper.counterparts (Dialect.valid_of_mem_wrappersIn hps hx) current
  · intro input output compiler text report v v' htext hds hrun
    -- the run may have met other packages, but not other directives
    obtain ⟨g', w₁, w₂, hg', hcount⟩ := Pipeline.wrapper_eq_ok htext hds hrun
    obtain ⟨ps', hps', -, hdeclarations'⟩ := wrapper_parts hg'
    rw [hps] at hps'
    cases hps'
    rw [hcount, hdeclarations', countP_declarationsFrom]

/-- A wrapper in a module, with two parameters. -/
def Wrapper.shutdown : Wrapper :=
  { name := "shut_down", native := "shutdown", convention := .c, documentation := none,
    result := .primitive .int,
    parameters := [("fd", .primitive .int), ("how", .primitive .int)], body := .forward }

/-- The directives that ask for it. -/
def shutdownDirectives : List Directive :=
  [⟨"in-namespace", [.symbol ⟨none, "net"⟩], 1⟩,
    ⟨"defwrapper",
      [.list [.string "shutdown", .symbol ⟨some "net", "shut-down"⟩], .keyword "int",
        .list [.symbol ⟨some "net", "fd"⟩, .keyword "int"],
        .list [.symbol ⟨some "net", "how"⟩, .keyword "int"]], 2⟩]

/-- The function of the module is called as it is defined. -/
theorem wrapper_counterparts_shutdown :
    ∃ g, (wrapper shutdownDirectives).outcome World.bare = (.ok g, World.bare) ∧
      g.declarations = [.inNamespace "net",
        .function (Wrapper.shutdown.declaration (some "net"))] ∧
      Counterparts Wrapper.shutdown (some "net") Wrapper.shutdown.definition
        (Wrapper.shutdown.declaration (some "net")) := by
  have generated : ∃ g, (wrapper shutdownDirectives).outcome World.bare = (.ok g, World.bare) ∧
      g.declarations = [.inNamespace "net",
        .function (Wrapper.shutdown.declaration (some "net"))] := ⟨_, rfl, rfl⟩
  obtain ⟨g, generated, declared⟩ := generated
  obtain ⟨ps, hps, -, -, -, -, -, agree, -⟩ := wrapper_counterparts generated
  cases (show .ok _ = Except.ok ps from hps)
  exact ⟨g, generated, declared, agree Wrapper.shutdown (List.mem_cons_self ..) (some "net")⟩

/-- A wrapper whose result has a type of the name `void`. -/
def voidDirective : Directive :=
  ⟨"defwrapper", [.string "f", .symbol ⟨none, "void"⟩], 1⟩

/-- A C function without a result may be declared with one, and return the call of another. -/
theorem void_type_is_a_result :
    (¬ ∀ (ds : List Directive) (g : Generated) (w w' : World) (ps : List Placed),
      (wrapper ds).outcome w = (.ok g, w') → (Dialect.ofMode .wrapper).interpretAll ds = .ok ps →
        ∀ x ∈ wrappersIn ps, ∀ current,
          ((x.declaration current).result.isSome ↔ x.definition.result ≠ "void")) ∧
    ¬ ∀ (ds : List Directive) (g : Generated) (w w' : World) (ps : List Placed),
      (wrapper ds).outcome w = (.ok g, w') → (Dialect.ofMode .wrapper).interpretAll ds = .ok ps →
        ∀ x ∈ wrappersIn ps, x.body = .forward →
          (x.definition.body = ["return " ++ x.forwardingCall] ↔
            x.definition.result ≠ "void") := by
  let x : Wrapper :=
    { name := "f", native := "f", convention := .c, documentation := none,
      result := .named ⟨none, "void"⟩, parameters := [], body := .forward }
  have generated : ∃ g, (wrapper [voidDirective]).outcome World.bare = (.ok g, World.bare) :=
    ⟨_, rfl⟩
  obtain ⟨g, generated⟩ := generated
  have understood : (Dialect.ofMode .wrapper).interpretAll [voidDirective] =
      .ok [⟨.wrapper, 1, .wrapper x⟩] := rfl
  have is_wrapper : x ∈ wrappersIn [⟨.wrapper, 1, .wrapper x⟩] := List.mem_cons_self ..
  have no_result : x.definition.result = "void" := by decide
  constructor
  · intro claimed
    have declared := claimed [voidDirective] g _ _ _ generated understood x is_wrapper none
    exact declared.1 rfl no_result
  · intro claimed
    have returned := claimed [voidDirective] g _ _ _ generated understood x is_wrapper rfl
    exact returned.1 rfl no_result

end Generated

end ForeignBindings
