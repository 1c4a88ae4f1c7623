import ForeignBindings.Proofs.Counterparts
import ForeignBindings.Proofs.Notices

/-!
# Parameters of wrappers

The names of the parameters of a wrapper are those of a C function as well, where other words are
keywords, and where the function that is called has a name too. They are only checked for the
bindings.

* `cKeywords` are the keywords of C, and `cOnlyKeywords` those that the bindings can declare.
* `Definition.referent` is what a name stands for in the body of a C function, and `calledName` the
  name that a statement calls.
* `Dialect.interpret_forwarding` says that no other check is made.
* `Dialect.parameters_in_c` says how far the names can be used in C.
-/

namespace ForeignBindings

open Spec Checks

/-! ## Names in C -/

/-- The keywords of C, as of its standard of 2011. -/
def cKeywords : List String :=
  ["auto", "break", "case", "char", "const", "continue", "default", "do", "double", "else", "enum",
    "extern", "float", "for", "goto", "if", "inline", "int", "long", "register", "restrict",
    "return", "short", "signed", "sizeof", "static", "struct", "switch", "typedef", "union",
    "unsigned", "void", "volatile", "while", "_Alignas", "_Alignof", "_Atomic", "_Bool",
    "_Complex", "_Generic", "_Imaginary", "_Noreturn", "_Static_assert", "_Thread_local"]

/-- Those among them that are no keywords of the language of the bindings. -/
def cOnlyKeywords : List String :=
  ["auto", "case", "char", "default", "double", "float", "goto", "inline", "int", "long",
    "register", "restrict", "short", "signed", "sizeof", "switch", "typedef", "union", "unsigned",
    "void", "volatile", "_Alignas", "_Alignof", "_Atomic", "_Bool", "_Complex", "_Generic",
    "_Imaginary", "_Noreturn", "_Static_assert", "_Thread_local"]

theorem mem_cOnlyKeywords {name : String} :
    name ∈ cOnlyKeywords ↔ name ∈ cKeywords ∧ name ∉ Identifier.keywords := by
  have filtered : cKeywords.filter (fun k => !Identifier.keywords.contains k) = cOnlyKeywords := by
    decide +kernel
  rw [← filtered, List.mem_filter]
  simp

/-- What a name stands for in the body of a C function. -/
inductive Referent where
  /-- A parameter of this type. -/
  | parameter (type : String)
  /-- Whatever has the name outside of the function. -/
  | outside (name : String)
deriving Repr, DecidableEq

namespace Definition

/-- A parameter hides what has its name outside of the function. -/
def referent (d : Definition) (name : String) : Referent :=
  match d.parameters.find? fun p => p.2 == name with
  | some p => .parameter p.1
  | none => .outside name

theorem referent_eq_outside {d : Definition} {name : String} :
    d.referent name = .outside name ↔ name ∉ d.parameters.map Prod.snd := by
  unfold referent
  cases hfind : d.parameters.find? fun p => p.2 == name with
  | none =>
    have others : ∀ p ∈ d.parameters, ¬ p.2 = name := by simpa using hfind
    refine iff_of_true rfl fun hname => ?_
    obtain ⟨p, hp, same⟩ := List.mem_map.1 hname
    exact others p hp same
  | some p =>
    have same : p.2 = name := by simpa using List.find?_some hfind
    refine iff_of_false nofun fun hname => hname ?_
    exact List.mem_map.2 ⟨p, List.mem_of_find?_eq_some hfind, same⟩

end Definition

/-- The name that a statement calls, perhaps in order to return the result. -/
def calledName (statement : String) : String :=
  String.ofList (((Missing.dropFront? "return ".toList statement.toList).getD
    statement.toList).takeWhile Identifier.isContinue)

/-- An identifier is what stands in front of a bracket. -/
theorem takeWhile_identifier {name : String} (h : Identifier.isIdentifier name = true)
    (rest : List Char) :
    (name.toList ++ '(' :: rest).takeWhile Identifier.isContinue = name.toList := by
  rw [List.takeWhile_append_of_pos (Identifier.isContinue_of_mem h),
    List.takeWhile_cons_of_neg (by decide), List.append_nil]

/-- Whether its result is returned or not, the call of a function calls that function. -/
theorem calledName_call {name : String} (h : Identifier.isIdentifier name = true)
    {front : String} (hfront : front = "" ∨ front = "return ") (rest : String) :
    calledName (front ++ name ++ "(" ++ rest) = name := by
  have call : (front ++ name ++ "(" ++ rest).toList =
      front.toList ++ (name.toList ++ '(' :: rest.toList) := by
    simp
  unfold calledName
  rw [call]
  rcases hfront with rfl | rfl
  · have no_return : Missing.dropFront? "return ".toList (name.toList ++ '(' :: rest.toList) =
        none := by
      rw [Option.eq_none_iff_forall_ne_some]
      intro behind found
      have same := Missing.dropFront?_eq_some.1 found
      -- then the name would be `return`, and a blank would stand in place of the bracket
      have name_eq : name.toList = "return".toList := by
        rw [← takeWhile_identifier h rest.toList, same]
        rfl
      rw [name_eq] at same
      exact absurd (List.head_eq_of_cons_eq (List.append_cancel_left same)) (by decide)
    rw [show "".toList = [] from rfl, List.nil_append, no_return, Option.getD_none,
      takeWhile_identifier h, String.ofList_toList]
  · have returned : Missing.dropFront? "return ".toList
        ("return ".toList ++ (name.toList ++ '(' :: rest.toList)) =
          some (name.toList ++ '(' :: rest.toList) := Missing.dropFront?_eq_some.2 rfl
    rw [returned, Option.getD_some, takeWhile_identifier h, String.ofList_toList]

/-! ## Accepted parameters -/

/-- Dashes are all that is ever changed, and an identifier has none. -/
theorem Identifier.typeName_of_isIdentifier {name : String} (h : isIdentifier name = true) :
    typeName name = name := by
  have same : ∀ c ∈ name.toList, undash c = c := by
    intro c hc
    have no_dash : c ≠ '-' := by
      rintro rfl
      exact absurd (isContinue_of_mem h _ hc) (by decide)
    simp [undash, no_dash]
  rw [typeName, List.map_congr_left same, List.map_id', String.ofList_toList]

theorem Identifier.IsDeclarable.declaredName_eq {name : String} (h : IsDeclarable name)
    (scope : Option String) : declaredName typeName (.symbol ⟨scope, name⟩) = .ok name := by
  have checked : declaredName typeName (.symbol ⟨scope, name⟩) =
      declarable (typeName name) name := rfl
  rw [checked, typeName_of_isIdentifier h.1, declarable, h.1, h.2]
  rfl

/-- Parameters of the type of integers, as they are written. -/
def integerParameters (names : List String) : List Form :=
  names.map fun n => .list [.symbol ⟨none, n⟩, .keyword "int"]

/-- They are accepted if their names can be declared and are all different. -/
theorem parameterArguments_integerParameters {seen names : List String}
    (h : ∀ n ∈ names, Identifier.IsDeclarable n ∧ n ∉ seen) (hnodup : names.Nodup) :
    parameterArguments seen (integerParameters names) =
      .ok (names.map fun n => (n, .primitive .int)) := by
  -- for all names seen before, as these grow with each parameter
  induction names generalizing seen with
  | nil => rfl
  | cons n names ih =>
    obtain ⟨declarable, fresh⟩ := h n (List.mem_cons_self ..)
    obtain ⟨not_later, hnodup⟩ := List.nodup_cons.1 hnodup
    have others : ∀ m ∈ names, Identifier.IsDeclarable m ∧ m ∉ n :: seen := by
      intro m hm
      obtain ⟨hdeclarable, hfresh⟩ := h m (List.mem_cons_of_mem _ hm)
      refine ⟨hdeclarable, fun hseen => ?_⟩
      rcases List.mem_cons.1 hseen with rfl | hseen
      · exact not_later hm
      · exact hfresh hseen
    rw [integerParameters, List.map_cons, parameterArguments]
    refine bind_eq_ok.2 ⟨n, declarable.declaredName_eq none, ?_⟩
    refine guard_eq_ok.2 ⟨by simpa using fresh, ?_⟩
    refine bind_eq_ok.2 ⟨.primitive .int, rfl, ?_⟩
    exact guard_eq_ok.2 ⟨by decide, bind_eq_ok.2 ⟨_, ih others hnodup, rfl⟩⟩

/-- A directive for a wrapper of a function on integers. -/
def Spec.Directive.forwarding (native : String) (names : List String) : Directive :=
  ⟨"defwrapper", .string native :: .keyword "int" :: integerParameters names, 1⟩

/-- The wrapper that it asks for. -/
def Wrapper.forwarding (native : String) (names : List String) : Wrapper :=
  { name := native, native, convention := .c, documentation := none, result := .primitive .int,
    parameters := names.map fun n => (n, .primitive .int), body := .forward }

namespace Dialect

/-- Whatever names the parameters have, and be it the name of the function, the wrapper is accepted
as long as the bindings can declare them and all of them are different. -/
theorem interpret_forwarding {native : String} (hnative : Identifier.IsDeclarable native)
    {names : List String} (h : ∀ n ∈ names, Identifier.IsDeclarable n) (hnodup : names.Nodup) :
    (ofMode .wrapper).interpret (Directive.forwarding native names) =
      .ok ⟨.wrapper, 1, .wrapper (Wrapper.forwarding native names)⟩ := by
  have head : headingArgument (.string native) = .ok ⟨native, native, .c, none⟩ := by
    refine bind_eq_ok.2 ⟨(native, none, []), rfl, ?_⟩
    refine guard_eq_ok.2 ⟨by simp [hnative.1], ?_⟩
    have name : declarable native native = .ok native := by
      rw [declarable, hnative.1, hnative.2]
      rfl
    exact bind_eq_ok.2 ⟨native, name, rfl⟩
  have parameters : parameterArguments [] (integerParameters names) =
      .ok (names.map fun n => (n, .primitive .int)) :=
    parameterArguments_integerParameters (fun n hn => ⟨h n hn, List.not_mem_nil⟩) hnodup
  have kind : Kind.wrapper ∈ Mode.wrapper.kinds := by decide
  refine interpret_eq_ok.2 ⟨rfl, kind, rfl, ?_⟩
  refine bind_eq_ok.2 ⟨_, head, ?_⟩
  refine bind_eq_ok.2 ⟨.primitive .int, rfl, ?_⟩
  exact bind_eq_ok.2 ⟨_, parameters, rfl⟩

/-- **Parameters in C.** The parameters of a wrapper that is understood have the same names in the C
function and in the bindings. The names are different identifiers that are no keywords of the
bindings, so those among them that are keywords of C are the ones of C alone. A wrapper that
forwards calls its native function by name, and in the C function this name stands for the native
function if and only if no parameter has it. -/
theorem parameters_in_c {mode : Mode} {d : Directive} {p : Placed}
    (hp : (ofMode mode).interpret d = .ok p) {w : Wrapper} (hw : p.entry = .wrapper w) :
    (w.definition.parameters.map Prod.snd = w.parameters.map Prod.fst ∧
      ∀ current, (w.declaration current).parameters.map Prod.fst = w.parameters.map Prod.fst) ∧
    (w.parameters.map Prod.fst).Nodup ∧
    (∀ n ∈ w.parameters.map Prod.fst,
      Identifier.IsWritten n ∧ n ≠ "_" ∧ n ∉ Identifier.keywords ∧
        (n ∈ cKeywords ↔ n ∈ cOnlyKeywords)) ∧
    (w.body = .forward → ∃ statement, w.definition.body = [statement] ∧
      calledName statement = w.native ∧
      (w.definition.referent (calledName statement) = .outside w.native ↔
        w.native ∉ w.parameters.map Prod.fst)) := by
  have valid := entry_valid hp
  rw [hw] at valid
  have h : w.Valid := valid
  have in_bindings : ∀ current,
      (w.declaration current).parameters.map Prod.fst = w.parameters.map Prod.fst := by
    intro current
    simp [Wrapper.declaration]
  have in_c : w.definition.parameters.map Prod.snd = w.parameters.map Prod.fst := by
    rw [← (w.counterparts h none).parameter_names, in_bindings none]
  refine ⟨⟨in_c, in_bindings⟩, h.parameters_distinct, ?_, ?_⟩
  · intro n hn
    obtain ⟨parameter, hparameter, rfl⟩ := List.mem_map.1 hn
    obtain ⟨written, not_lone, not_keyword⟩ :=
      (Identifier.isDeclarable_iff parameter.1).1 (h.parameters_declarable parameter hparameter)
    refine ⟨written, not_lone, not_keyword, ?_⟩
    rw [mem_cOnlyKeywords]
    exact ⟨fun keyword => ⟨keyword, not_keyword⟩, And.left⟩
  · intro forward
    -- the body is one statement, which begins with the name of the native function
    have body := (w.counterparts h none).forwards forward
    have called : calledName ((if w.result = .primitive .void then "" else "return ") ++
        w.native ++ "(" ++ ", ".intercalate (w.definition.parameters.map Prod.snd) ++ ");") =
          w.native := by
      rw [String.append_assoc]
      refine calledName_call h.native_identifier ?_ _
      split
      · exact .inl rfl
      · exact .inr rfl
    refine ⟨_, body, called, ?_⟩
    rw [called, Definition.referent_eq_outside, in_c]

/-- The function `stat` fills a record of its own name. -/
theorem parameters_in_c_stat :
    (ofMode .wrapper).interpret (Directive.forwarding "stat" ["path", "stat"]) =
      .ok ⟨.wrapper, 1, .wrapper (Wrapper.forwarding "stat" ["path", "stat"])⟩ ∧
    ∃ statement, (Wrapper.forwarding "stat" ["path", "stat"]).definition.body = [statement] ∧
      calledName statement = "stat" ∧
      (Wrapper.forwarding "stat" ["path", "stat"]).definition.referent (calledName statement) ≠
        .outside "stat" := by
  have understood : (ofMode .wrapper).interpret (Directive.forwarding "stat" ["path", "stat"]) =
      .ok ⟨.wrapper, 1, .wrapper (Wrapper.forwarding "stat" ["path", "stat"])⟩ := rfl
  obtain ⟨-, -, -, forwards⟩ := parameters_in_c understood rfl
  obtain ⟨statement, body, called, stands_for⟩ := forwards rfl
  exact ⟨understood, statement, body, called, fun outside => stands_for.1 outside (by decide)⟩

/-- A parameter may be a keyword of C, and it may hide the native function from its own wrapper. -/
theorem parameters_clash :
    (¬ ∀ (mode : Mode) (d : Directive) (p : Placed) (w : Wrapper),
      (ofMode mode).interpret d = .ok p → p.entry = .wrapper w →
        ∀ n ∈ w.parameters.map Prod.fst, n ∉ cKeywords) ∧
    ¬ ∀ (mode : Mode) (d : Directive) (p : Placed) (w : Wrapper),
      (ofMode mode).interpret d = .ok p → p.entry = .wrapper w → w.body = .forward →
        w.definition.referent w.native = .outside w.native := by
  have function : Identifier.IsDeclarable "f" := ⟨by decide, by decide⟩
  constructor
  · intro no_keyword
    have integer : Identifier.IsDeclarable "int" := ⟨by decide, by decide⟩
    have understood := interpret_forwarding function
      (List.forall_mem_singleton.2 integer) (List.pairwise_singleton ..)
    exact no_keyword _ _ _ _ understood rfl "int" (by decide) (by decide)
  · intro outside
    have understood := interpret_forwarding function
      (List.forall_mem_singleton.2 function) (List.pairwise_singleton ..)
    have hidden := Definition.referent_eq_outside.1 (outside _ _ _ _ understood rfl rfl)
    exact hidden (by decide)

end Dialect

end ForeignBindings
