import ForeignBindings.Proofs.Blocks
import ForeignBindings.Proofs.OptionSites

/-!
# Spellings of types

What the bindings write for a type must be one there. A name that a directive declares is checked,
and a name that a type refers to is not: whatever symbol stands there is written.

* `Identifier.IsPath` is a path to something that can be declared, and `IsTypeSpelling` is a type in
  the bindings: marks of pointers, and then a primitive type or a path.
* `Spec.Symbol.IsNameable` says of a symbol that the path to it is one.
* `Dialect.spelling_iff_nameable` says that a type is well spelled if its symbol is nameable, and
  only then.
-/

namespace ForeignBindings

open Spec Checks

/-! ## Paths -/

namespace Identifier

/-- One part of a path: a name that can be declared, or the module around. -/
def IsSegment (text : String) : Prop :=
  text = "super" ∨ IsDeclarable text

/-- Segments with `::` between them. -/
inductive IsPath : String → Prop where
  | segment {text : String} (h : IsSegment text) : IsPath text
  | cons {text rest : String} (h : IsSegment text) (hrest : IsPath rest) :
    IsPath (text ++ "::" ++ rest)

/-- A segment starts as identifiers do. -/
theorem IsSegment.starts {text : String} (h : IsSegment text) :
    ∃ c cs, text.toList = c :: cs ∧ isStart c = true := by
  rcases h with rfl | declarable
  · exact ⟨'s', _, rfl, rfl⟩
  · obtain ⟨⟨c, cs, hcs, start, -⟩, -⟩ := (isDeclarable_iff text).1 declarable
    exact ⟨c, cs, hcs, by simpa [isStart] using start⟩

/-- A segment has no colon in it. -/
theorem IsSegment.colon_not_mem {text : String} (h : IsSegment text) : ':' ∉ text.toList := by
  rcases h with rfl | ⟨identifier, -⟩
  · decide
  · intro colon
    exact absurd (isContinue_of_mem identifier ':' colon) (by decide)

/-- A path starts as identifiers do. -/
theorem IsPath.starts {text : String} (h : IsPath text) :
    ∃ c cs, text.toList = c :: cs ∧ isStart c = true := by
  cases h with
  | segment h => exact h.starts
  | cons h hrest =>
    obtain ⟨c, cs, hcs, start⟩ := h.starts
    exact ⟨c, _, by rw [String.toList_append, String.toList_append, hcs]; rfl, start⟩

/-- **Paths in two.** A text with `::` in it, wherever that stands, is a path if what is in front of
it is one and what is behind it is one. -/
theorem isPath_append_iff {front back : String} :
    IsPath (front ++ "::" ++ back) ↔ IsPath front ∧ IsPath back := by
  constructor
  · intro h
    generalize htext : front ++ "::" ++ back = text at h
    induction h generalizing front with
    | segment h =>
      have colon : ':' ∈ (front ++ "::" ++ back).toList := by simp
      rw [htext] at colon
      exact absurd colon h.colon_not_mem
    | @cons text rest h hrest ih =>
      have cut : front.toList ++ ':' :: ':' :: back.toList =
          text.toList ++ ':' :: ':' :: rest.toList := by
        simpa using congrArg String.toList htext
      have at_first (hf : front.toList = text.toList) (hb : back.toList = rest.toList) :
          IsPath front ∧ IsPath back := by
        rw [String.toList_inj] at hf hb
        rw [hf, hb]
        exact ⟨.segment h, hrest⟩
      rcases List.append_eq_append_iff.1 cut with ⟨more, hmore, hback⟩ | ⟨more, hmore, hback⟩
      · -- the cut is not inside of the first segment
        rcases more with _ | ⟨c, more⟩
        · exact at_first (by simpa using hmore.symm) (by simpa using hback)
        · simp only [List.cons_append, List.cons.injEq] at hback
          obtain ⟨rfl, -⟩ := hback
          exact absurd (by simp [hmore]) h.colon_not_mem
      · rcases more with _ | ⟨c, _ | ⟨d, more⟩⟩
        · exact at_first (by simpa using hmore) (by simpa using hback.symm)
        · -- nor between the colons behind it, since no segment starts with a colon
          obtain ⟨c', cs, hcs, start⟩ := hrest.starts
          rw [hcs] at hback
          cases hback
          cases start
        · -- so it is a cut of what is behind them
          simp only [List.cons_append, List.cons.injEq] at hback
          obtain ⟨rfl, rfl, hback⟩ := hback
          have later : String.ofList more ++ "::" ++ back = rest := by
            apply String.toList_inj.1
            simp [hback]
          have whole : front = text ++ "::" ++ String.ofList more := by
            apply String.toList_inj.1
            simp [hmore]
          obtain ⟨hmore, hback⟩ := ih later
          rw [whole]
          exact ⟨.cons h hmore, hback⟩
  · rintro ⟨hfront, hback⟩
    induction hfront with
    | segment h => exact .cons h hback
    | @cons text rest h _ ih =>
      have regrouped : text ++ "::" ++ rest ++ "::" ++ back =
          text ++ "::" ++ (rest ++ "::" ++ back) := by
        simp only [String.append_assoc]
      rw [regrouped]
      exact .cons h ih

theorem isPath_iff_of_colon_not_mem {text : String} (h : ':' ∉ text.toList) :
    IsPath text ↔ IsSegment text := by
  refine ⟨fun hpath => ?_, .segment⟩
  cases hpath with
  | segment h => exact h
  | cons => exact absurd (by simp) h

theorem isPath_super_iff {text : String} : IsPath ("super::" ++ text) ↔ IsPath text := by
  have cut : "super::" ++ text = "super" ++ "::" ++ text := rfl
  rw [cut, isPath_append_iff, and_iff_right (.segment (.inl rfl))]

end Identifier

/-- The path to a symbol is one exactly if its name makes one, and so does its namespace where that
is in it. -/
theorem Spec.Symbol.isPath_pathFrom_iff {s : Symbol} {current : Option String} :
    Identifier.IsPath (s.pathFrom current) ↔
      Identifier.IsPath (Identifier.typeName s.name) ∧
        ∀ target ∈ s.scope, current ≠ some target → Identifier.IsPath target := by
  unfold Symbol.pathFrom
  split
  · rename_i hscope
    simp [hscope]
  · rename_i hscope
    simp [hscope, Identifier.isPath_super_iff]
  · rename_i target hscope
    simp [hscope, Identifier.isPath_append_iff, and_comm]
  · rename_i target here hscope
    by_cases same : target = here
    · simp [hscope, same]
    · have behind_super : "super::" ++ target ++ "::" ++ Identifier.typeName s.name =
          "super::" ++ (target ++ "::" ++ Identifier.typeName s.name) := by
        simp only [String.append_assoc]
      rw [if_neg (by simpa using same), behind_super, Identifier.isPath_super_iff,
        Identifier.isPath_append_iff]
      simp [hscope, Ne.symm same, and_comm]

/-! ## Types -/

/-- What is written for a primitive type behind the mark of a pointer, if it is one. -/
def Primitive.target : Primitive → String
  | pointer => "::core::ffi::c_void"
  | string => "::core::ffi::c_char"
  | p => p.path

theorem Primitive.mem_all (p : Primitive) : p ∈ all := by
  cases p <;> decide

/-- A type in the bindings: a primitive type or a path, behind any number of marks. -/
inductive IsTypeSpelling : String → Prop where
  | primitive (p : Primitive) : IsTypeSpelling p.target
  | path {text : String} (h : Identifier.IsPath text) : IsTypeSpelling text
  | pointer {text : String} (h : IsTypeSpelling text) : IsTypeSpelling ("*mut " ++ text)

theorem isTypeSpelling_pointer_iff {text : String} :
    IsTypeSpelling ("*mut " ++ text) ↔ IsTypeSpelling text := by
  refine ⟨fun h => ?_, .pointer⟩
  have starts : ("*mut " ++ text).toList.head? = some '*' := by simp
  generalize htext : "*mut " ++ text = whole at h starts
  cases h with
  | primitive p =>
    -- no target has a mark itself
    cases p <;> simp [Primitive.target, Primitive.path] at starts
  | path h =>
    obtain ⟨c, cs, hcs, start⟩ := h.starts
    rw [hcs] at starts
    cases starts
    cases start
  | pointer h =>
    rw [String.append_right_inj] at htext
    rwa [htext]

theorem Primitive.isTypeSpelling_path (p : Primitive) : IsTypeSpelling p.path := by
  have marked : p.path = p.target ∨ p.path = "*mut " ++ p.target := by
    cases p <;> decide
  rcases marked with plain | marked
  · rw [plain]
    exact .primitive p
  · rw [marked]
    exact .pointer (.primitive p)

/-- A type is well spelled if the symbol that it names is, in the path to it. -/
theorem ForeignType.isTypeSpelling_path_iff {t : ForeignType} {current : Option String} :
    IsTypeSpelling (t.path current) ↔ ∀ s ∈ t.symbol?, IsTypeSpelling (s.pathFrom current) := by
  fun_induction path current t with
  | case1 p => simpa [symbol?] using p.isTypeSpelling_path
  | case2 s => simp [symbol?]
  | case3 =>
    have spelled : IsTypeSpelling "*mut ::core::ffi::c_void" :=
      Primitive.pointer.isTypeSpelling_path
    simpa [symbol?] using spelled
  | case4 target not_void ih => rw [isTypeSpelling_pointer_iff, ih, symbol?]

/-- What a reference to the symbol spells is a type in the bindings: the name as a path, behind the
namespace as one if it is in the way, or what is written for a primitive type. -/
def Spec.Symbol.IsNameable (s : Symbol) (current : Option String) : Prop :=
  (∃ p : Primitive, s.pathFrom current = p.target) ∨
    (Identifier.IsPath (Identifier.typeName s.name) ∧
      ∀ target ∈ s.scope, current ≠ some target → Identifier.IsPath target)

theorem Spec.Symbol.IsNameable.isTypeSpelling {s : Symbol} {current : Option String}
    (h : s.IsNameable current) : IsTypeSpelling (s.pathFrom current) := by
  rcases h with ⟨p, hp⟩ | hpath
  · rw [hp]
    exact .primitive p
  · exact .path (Symbol.isPath_pathFrom_iff.2 hpath)

/-- A symbol that is made of the characters of words is well spelled only in this way. -/
theorem Spec.Symbol.IsLexed.isNameable {s : Symbol} (hs : s.IsLexed) {current : Option String}
    (h : IsTypeSpelling (s.pathFrom current)) : s.IsNameable current := by
  have no_blank : ' ' ∉ (s.pathFrom current).toList :=
    s.not_mem_pathFrom (by decide) (fun blank => absurd (hs.name _ blank).1 (by decide))
      (fun target htarget blank => absurd (hs.scope target htarget _ blank).1 (by decide)) current
  generalize hspelling : s.pathFrom current = spelling at h no_blank
  cases h with
  | primitive p => exact .inl ⟨p, hspelling⟩
  | path h =>
    rw [← hspelling] at h
    exact .inr (Symbol.isPath_pathFrom_iff.1 h)
  | pointer h =>
    -- there is a blank in a mark
    exact absurd (by simp) no_blank

/-- A path ends with the name of the type. -/
theorem Spec.Symbol.suffix_pathFrom (s : Symbol) (current : Option String) :
    (Identifier.typeName s.name).toList <:+ (s.pathFrom current).toList := by
  unfold Symbol.pathFrom
  split
  · exact List.suffix_rfl
  · rw [String.toList_append]
    exact List.suffix_append ..
  · rw [String.toList_append]
    exact List.suffix_append ..
  · split
    · exact List.suffix_rfl
    · rw [String.toList_append]
      exact List.suffix_append ..

/-- A symbol whose name is a keyword is not nameable, save by the one for the module around. -/
theorem Spec.Symbol.not_isNameable_keyword {s : Symbol}
    (h : Identifier.typeName s.name ∈ Identifier.keywords)
    (hne : Identifier.typeName s.name ≠ "super") (current : Option String) :
    ¬ s.IsNameable current := by
  have checked : ∀ k ∈ Identifier.keywords, ':' ∉ k.toList ∧
      ∀ p ∈ Primitive.all, ¬ k.toList <:+ p.target.toList := by
    decide +kernel
  obtain ⟨no_colon, ends_no_primitive⟩ := checked _ h
  rintro (⟨p, hp⟩ | ⟨hpath, -⟩)
  · have ends := s.suffix_pathFrom current
    rw [hp] at ends
    exact ends_no_primitive p p.mem_all ends
  · rw [Identifier.isPath_iff_of_colon_not_mem no_colon] at hpath
    rcases hpath with is_super | declarable
    · exact hne is_super
    · exact ((Identifier.isDeclarable_iff _).1 declarable).2.2 h

/-! ## Types that are written -/

namespace Entry

/-- The entry writes a type into the bindings with this spelling, in the module `current` or at the
root. -/
inductive Writes (current : Option String) : Entry → ForeignType → String → Prop where
  | base {e : Enumeration} {spelling : String}
    (h : (e.lines current).head? = some (.call (.enumBegin e.name spelling e.documentation))) :
    Writes current (.enumeration e) e.base spelling
  | result {w : Wrapper} {spelling : String} (h : (w.declaration current).result = some spelling) :
    Writes current (.wrapper w) w.result spelling
  | parameter {w : Wrapper} {i : Nat} {name spelling : String} {type : ForeignType}
    (hwritten : w.parameters[i]? = some (name, type))
    (h : (w.declaration current).parameters[i]? = some (name, spelling)) :
    Writes current (.wrapper w) type spelling

/-- The spelling is the path of the type, which is one of those of the entry. -/
theorem Writes.eq_path {e : Entry} {current : Option String} {t : ForeignType} {spelling : String}
    (h : e.Writes current t spelling) : spelling = t.path current ∧ t ∈ e.types := by
  cases h with
  | base h =>
    cases h
    exact ⟨rfl, List.mem_singleton_self _⟩
  | result h =>
    unfold Wrapper.declaration at h
    dsimp only at h
    split at h
    · cases h
    · cases h
      exact ⟨rfl, List.mem_cons_self ..⟩
  | parameter hwritten h =>
    simp only [Wrapper.declaration, List.getElem?_map, hwritten, Option.map_some,
      Option.some.injEq, Prod.mk.injEq, true_and] at h
    exact ⟨h.symm, List.mem_cons_of_mem _ (List.mem_map_of_mem (List.mem_of_getElem? hwritten))⟩

end Entry

/-- The options of an enumeration are in its head. -/
theorem symbol_mem_of_enumHead {head name : Form} {options : List Form}
    (h : enumHead head = .ok (name, options)) {f : Form} (hf : f ∈ options) {s : Symbol}
    (hs : s ∈ f.symbols) : s ∈ head.symbols := by
  unfold enumHead at h
  split at h
  · cases h
  · cases h
    exact Form.mem_symbolsOfAll.2 ⟨f, List.mem_cons_of_mem _ hf, hs⟩
  · cases h
    cases hf

/-- The base of an enumeration names nothing that the arguments of its directive do not name. -/
theorem symbol_mem_of_enumShape {macros : Bool} {forms : List Form} {e : Enumeration}
    (h : enumShape macros forms = .ok (.enumeration e)) {s : Symbol} (hs : s ∈ e.base.symbol?) :
    s ∈ Form.symbolsOfAll forms := by
  unfold enumShape at h
  split at h
  · cases h
  · rename_i head rest
    obtain ⟨⟨name, written⟩, hhead, h⟩ := bind_eq_ok.1 h
    obtain ⟨options, hoptions, h⟩ := bind_eq_ok.1 h
    obtain ⟨documentation, parts⟩ := leadingText rest
    dsimp only at h
    split at h
    · rename_i type htype
      obtain ⟨base, hbase, h⟩ := bind_eq_ok.1 h
      obtain ⟨-, h⟩ := guard_eq_ok.1 h
      obtain ⟨members, -, h⟩ := bind_eq_ok.1 h
      obtain ⟨name', -, h⟩ := bind_eq_ok.1 h
      obtain ⟨defineConstants, -, h⟩ := bind_eq_ok.1 h
      cases h
      have in_head : s ∈ head.symbols :=
        symbol_mem_of_enumHead hhead (Options.mem_of_get? hoptions htype)
          (symbol_mem_of_typeArgument hbase hs)
      exact Form.mem_symbolsOfAll.2 ⟨head, List.mem_cons_self .., in_head⟩
    · -- the type that is taken where none is given has no name
      obtain ⟨base, hbase, h⟩ := bind_eq_ok.1 h
      obtain ⟨-, h⟩ := guard_eq_ok.1 h
      obtain ⟨members, -, h⟩ := bind_eq_ok.1 h
      obtain ⟨name', -, h⟩ := bind_eq_ok.1 h
      obtain ⟨defineConstants, -, h⟩ := bind_eq_ok.1 h
      cases h
      cases hbase
      cases hs

/-- A type that is written names nothing that the arguments of its directive do not name. -/
theorem Entry.Writes.symbol_mem {k : Kind} {forms : List Form} {e : Entry}
    (hshape : k.shape forms = .ok e) {current : Option String} {t : ForeignType} {spelling : String}
    (h : e.Writes current t spelling) {s : Symbol} (hs : s ∈ t.symbol?) :
    s ∈ Form.symbolsOfAll forms := by
  have ht := h.eq_path.2
  cases h with
  | base =>
    have kind_mem := mem_kinds_of_shape hshape
    simp only [kinds, List.mem_cons, List.not_mem_nil, or_false] at kind_mem
    rcases kind_mem with rfl | rfl
    · have accepted : enumShape false forms = .ok (.enumeration _) := hshape
      exact symbol_mem_of_enumShape accepted hs
    · have accepted : enumShape true forms = .ok (.enumeration _) := hshape
      exact symbol_mem_of_enumShape accepted hs
  | result => exact Entry.symbol_mem_of_shape hshape ht hs
  | parameter => exact Entry.symbol_mem_of_shape hshape ht hs

namespace Dialect

/-- **Spellings of types.** A type that an understood directive writes into the bindings is well
spelled, in any module, where the symbol that it names is nameable from there, and a primitive type
always is. In a directive whose symbols are made of the characters of words, as they are in every
text, it is well spelled nowhere else: nothing refuses the other symbols. -/
theorem spelling_iff_nameable {mode : Mode} {d : Directive} {p : Placed}
    (h : (ofMode mode).interpret d = .ok p) {current : Option String} {t : ForeignType}
    {spelling : String} (hwrites : p.entry.Writes current t spelling) :
    ((∀ s ∈ t.symbol?, s.IsNameable current) → IsTypeSpelling spelling) ∧
      (d.IsLexed → IsTypeSpelling spelling → ∀ s ∈ t.symbol?, s.IsNameable current) := by
  rw [hwrites.eq_path.1, ForeignType.isTypeSpelling_path_iff]
  constructor
  · intro nameable s hs
    exact (nameable s hs).isTypeSpelling
  · intro lexed spelled s hs
    have named : s ∈ Form.symbolsOfAll d.arguments :=
      hwrites.symbol_mem (interpret_eq_ok.1 h).2.2.2 hs
    exact (lexed s named).isNameable (spelled s hs)

/-- A function with a result of a type in a namespace, and a parameter of a type that has a keyword
for its name. -/
def stampText : String :=
  "(defwrapper \"stamp\" sys::time-t (f fn))"

/-- The directive of that text. -/
def stamp : Directive :=
  ⟨"defwrapper", [.string "stamp", .symbol ⟨some "sys", "time-t"⟩,
    .list [.symbol ⟨none, "f"⟩, .symbol ⟨none, "fn"⟩]], 1⟩

/-- The function that it declares. -/
def stampWrapper : Wrapper :=
  ⟨"stamp", "stamp", .c, none, .named ⟨some "sys", "time-t"⟩, [("f", .named ⟨none, "fn"⟩)],
    .forward⟩

theorem interpret_stamp :
    (ofMode .wrapper).interpret stamp = .ok ⟨.wrapper, 1, .wrapper stampWrapper⟩ := rfl

/-- In a module, the result is well spelled, and the parameter is not. -/
theorem spelling_iff_nameable_stamp :
    directivesOf stampText = .ok [stamp] ∧
    (Entry.wrapper stampWrapper).Writes (some "net") (.named ⟨some "sys", "time-t"⟩)
        "super::sys::time_t" ∧
    IsTypeSpelling "super::sys::time_t" ∧
    (Entry.wrapper stampWrapper).Writes (some "net") (.named ⟨none, "fn"⟩) "super::fn" ∧
    ¬ IsTypeSpelling "super::fn" := by
  have read : directivesOf stampText = .ok [stamp] := by decide +kernel
  have result : (Entry.wrapper stampWrapper).Writes (some "net") (.named ⟨some "sys", "time-t"⟩)
      "super::sys::time_t" := .result rfl
  have parameter : (Entry.wrapper stampWrapper).Writes (some "net") (.named ⟨none, "fn"⟩)
      "super::fn" := .parameter (i := 0) rfl rfl
  refine ⟨read, result, ?_, parameter, ?_⟩
  · apply (spelling_iff_nameable interpret_stamp result).1
    rintro s ⟨⟩
    refine .inr ⟨.segment (.inr ⟨by decide, by decide⟩), ?_⟩
    rintro target ⟨⟩ -
    exact .segment (.inr ⟨by decide, by decide⟩)
  · intro spelled
    have lexed : stamp.IsLexed := isLexed_of_directivesOf read _ (List.mem_singleton_self _)
    have nameable := (spelling_iff_nameable interpret_stamp parameter).2 lexed spelled _ rfl
    exact Symbol.not_isNameable_keyword (by decide) (by decide) _ nameable

/-- Not all that is written for a type is one: a keyword as the result of a function is taken. -/
theorem keyword_written :
    ¬ ∀ (text : String) (ds : List Directive) (mode : Mode), directivesOf text = .ok ds →
      ∀ d ∈ ds, ∀ p, (ofMode mode).interpret d = .ok p → ∀ current t spelling,
        p.entry.Writes current t spelling → IsTypeSpelling spelling := by
  intro spelled
  have read : directivesOf "(defwrapper \"f\" fn)" =
      .ok [⟨"defwrapper", [.string "f", .symbol ⟨none, "fn"⟩], 1⟩] := by
    decide +kernel
  have understood := spelled _ _ .wrapper read _ (List.mem_singleton_self _)
    ⟨.wrapper, 1, .wrapper ⟨"f", "f", .c, none, .named ⟨none, "fn"⟩, [], .forward⟩⟩ rfl none _ "fn"
    (.result rfl)
  have lexed : (Symbol.mk none "fn").IsLexed :=
    isLexed_of_directivesOf read _ (List.mem_singleton_self _) _ (by decide)
  exact Symbol.not_isNameable_keyword (by decide) (by decide) none (lexed.isNameable understood)

end Dialect

end ForeignBindings
