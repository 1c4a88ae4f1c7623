import ForeignBindings.Proofs.Spellings

/-!
# Pointers in both spellings

A type has one spelling in C and one in the bindings. A pointer is a star behind its target in the
one and a mark in front of it in the other, so each can be taken apart without looking at the type.

* `ForeignType.base` is what a type is behind its pointers, and `ForeignType.pointers` how many they
  are; two of the primitive types are pointers themselves.
* `ForeignType.cSpelling_eq` and `ForeignType.path_eq` put both spellings together from these.
* `Spec.Form.RefersTo` says which arguments are types.
* `ForeignType.spellings_agree` says that the two spellings are of the same type.
-/

namespace ForeignBindings

open Spec Checks

/-! ## Occurrences -/

namespace Text

/-- How often a text occurs in another one. -/
def occurrences (part : List Char) : List Char → Nat
  | [] => 0
  | c :: cs => occurrences part cs + if part.isPrefixOf (c :: cs) then 1 else 0

/-- A text does not occur where its first character does not. -/
theorem occurrences_eq_zero {c : Char} {part cs : List Char} (h : c ∉ cs) :
    occurrences (c :: part) cs = 0 := by
  induction cs with
  | nil => rfl
  | cons d cs ih =>
    rw [List.mem_cons, not_or] at h
    have no_start : (c :: part).isPrefixOf (d :: cs) = false := by
      rw [List.isPrefixOf, beq_eq_false_iff_ne.2 h.1, Bool.false_and]
    rw [occurrences, ih h.2, no_start]
    rfl

/-- A single character occurs as often as it is counted. -/
theorem occurrences_singleton (c : Char) (cs : List Char) : occurrences [c] cs = cs.count c := by
  induction cs with
  | nil => rfl
  | cons d cs ih =>
    have start : [c].isPrefixOf (d :: cs) = (d == c) := by
      rw [List.isPrefixOf, List.isPrefixOf, Bool.and_true, Bool.beq_comm]
    rw [occurrences, ih, start, List.count_cons]

end Text

/-! ## Spellings in parts -/

/-- What a type is behind its pointers: a primitive type, or a type of some name. -/
inductive Base where
  | primitive (p : Primitive)
  | named (s : Symbol)

namespace Base

def symbol? : Base → Option Symbol
  | primitive _ => none
  | named s => some s

theorem symbol?_eq_some_iff {b : Base} {s : Symbol} : b = named s ↔ b.symbol? = some s := by
  cases b with
  | primitive p => exact ⟨nofun, nofun⟩
  | named s' => rw [symbol?, Option.some.injEq, named.injEq]

/-- The spelling in C. -/
def cSpelling : Base → String
  | primitive p => p.cSpelling
  | named s => Identifier.typeName s.name

/-- The spelling in the bindings behind a number of marks. Behind one, the type of no value is data
of unknown type. -/
def pathBehind (current : Option String) (marks : Nat) : Base → String
  | primitive p => if p = .void ∧ 0 < marks then "::core::ffi::c_void" else p.path
  | named s => s.pathFrom current

end Base

namespace ForeignType

/-- What the type is behind its pointers. -/
def base : ForeignType → Base
  | primitive .pointer => .primitive .void
  | primitive .string => .primitive .char
  | primitive p => .primitive p
  | named s => .named s
  | pointer target => target.base

/-- How many pointers there are in front of the base. -/
def pointers : ForeignType → Nat
  | primitive .pointer => 1
  | primitive .string => 1
  | primitive _ => 0
  | named _ => 0
  | pointer target => target.pointers + 1

/-- A spelling in C with a number of stars behind it. -/
def starred (spelling : String) : Nat → String
  | 0 => spelling
  | n + 1 => starred spelling n ++ " *"

/-- A spelling in the bindings with a number of marks in front of it. -/
def marked (spelling : String) : Nat → String
  | 0 => spelling
  | n + 1 => "*mut " ++ marked spelling n

theorem symbol?_base (t : ForeignType) : t.base.symbol? = t.symbol? := by
  induction t with
  | primitive p => cases p <;> rfl
  | named s => rfl
  | pointer target ih => exact ih

/-- Only with a pointer, another type than that of no value has it as its base. -/
theorem pointers_pos {t : ForeignType} (not_void : t ≠ primitive .void)
    (hbase : t.base = .primitive .void) : 0 < t.pointers := by
  cases t with
  | primitive p =>
    cases p with
    | void => exact absurd rfl not_void
    | pointer => exact Nat.one_pos
    | _ => cases hbase
  | named s => cases hbase
  | pointer target => exact Nat.succ_pos _

theorem cSpelling_eq (t : ForeignType) : t.cSpelling = starred t.base.cSpelling t.pointers := by
  induction t with
  | primitive p => cases p <;> rfl
  | named s => rfl
  | pointer target ih => rw [cSpelling, ih, base, pointers, starred]

theorem path_eq (t : ForeignType) (current : Option String) :
    t.path current = marked (t.base.pathBehind current t.pointers) t.pointers := by
  fun_induction path current t with
  | case1 p => cases p <;> rfl
  | case2 s => rfl
  | case3 => rfl
  | case4 target not_void ih =>
    -- the target is not the type of no value, so a further mark does not change what is behind it
    have behind : target.base.pathBehind current (target.pointers + 1) =
        target.base.pathBehind current target.pointers := by
      cases hbase : target.base with
      | primitive p =>
        have marked_before : p = .void → 0 < target.pointers := by
          rintro rfl
          exact pointers_pos not_void hbase
        by_cases void : p = .void
        · simp [Base.pathBehind, void, marked_before void]
        · simp [Base.pathBehind, void]
      | named s => rfl
    rw [ih, base, pointers, marked, behind]

/-! ## Spellings taken apart -/

/-- A spelling in C without the stars at its end. -/
def withoutStars (spelling : String) : String :=
  String.ofList (spelling.toList.reverse.dropWhile fun c => c == ' ' || c == '*').reverse

/-- The characters behind all marks. -/
def afterMarks : List Char → List Char
  | '*' :: 'm' :: 'u' :: 't' :: ' ' :: cs => afterMarks cs
  | cs => cs

/-- A spelling in the bindings without the marks in front of it. -/
def withoutMarks (spelling : String) : String :=
  String.ofList (afterMarks spelling.toList)

section Apart

variable {spelling : String} (star_not_mem : '*' ∉ spelling.toList) (n : Nat)
include star_not_mem

theorem occurrences_starred : Text.occurrences ['*'] (starred spelling n).toList = n := by
  rw [Text.occurrences_singleton]
  induction n with
  | zero => exact List.count_eq_zero.2 star_not_mem
  | succ n ih =>
    rw [starred, String.toList_append, List.count_append, ih]
    rfl

theorem withoutStars_starred (last_ne_blank : spelling.toList.getLast? ≠ some ' ') :
    withoutStars (starred spelling n) = spelling := by
  induction n with
  | zero =>
    -- the last character is neither a blank nor a star
    have unchanged : spelling.toList.reverse.dropWhile (fun c => c == ' ' || c == '*') =
        spelling.toList.reverse := by
      cases hlast : spelling.toList.reverse with
      | nil => rfl
      | cons c cs =>
        have last : spelling.toList.getLast? = some c := by
          rw [← List.head?_reverse, hlast, List.head?_cons]
        have no_blank : c ≠ ' ' := by
          rintro rfl
          exact last_ne_blank last
        have no_star : c ≠ '*' := by
          rintro rfl
          exact star_not_mem (List.mem_of_getLast? last)
        rw [List.dropWhile_cons_of_neg (by simp [no_blank, no_star])]
    rw [starred, withoutStars, unchanged, List.reverse_reverse, String.ofList_toList]
  | succ n ih =>
    rw [starred, withoutStars, String.toList_append, List.reverse_append]
    exact ih

theorem occurrences_marked :
    Text.occurrences ['*', 'm', 'u', 't'] (marked spelling n).toList = n := by
  induction n with
  | zero => exact Text.occurrences_eq_zero star_not_mem
  | succ n ih =>
    -- a mark occurs at its own start only, since the rest of it has no star
    rw [marked, String.toList_append]
    show Text.occurrences ['*', 'm', 'u', 't']
      ('*' :: 'm' :: 'u' :: 't' :: ' ' :: (marked spelling n).toList) = n + 1
    simp [Text.occurrences, ih]

theorem withoutMarks_marked : withoutMarks (marked spelling n) = spelling := by
  induction n with
  | zero =>
    have unchanged : afterMarks spelling.toList = spelling.toList := by
      unfold afterMarks
      split
      · rename_i cs hcs
        exact absurd (by simp [hcs]) star_not_mem
      · rfl
    rw [marked, withoutMarks, unchanged, String.ofList_toList]
  | succ n ih =>
    rw [marked, withoutMarks, String.toList_append]
    exact ih

end Apart

theorem not_mem_marked {c : Char} (hc : c ∉ "*mut ".toList) {spelling : String}
    (h : c ∉ spelling.toList) (n : Nat) : c ∉ (marked spelling n).toList := by
  induction n with
  | zero => exact h
  | succ n ih =>
    rw [marked, String.toList_append, List.mem_append]
    exact not_or.2 ⟨hc, ih⟩

end ForeignType

/-! ## Bases -/

/-- The names in the symbol are identifiers of C, once their dashes are underscores. -/
structure Spec.Symbol.IsNative (s : Symbol) : Prop where
  name : Identifier.IsWritten (Identifier.typeName s.name)
  scope : ∀ scope ∈ s.scope, Identifier.IsWritten (Identifier.typeName scope)

theorem Identifier.isContinue_of_isWritten {name : String} (h : IsWritten name) :
    ∀ c ∈ name.toList, isContinue c = true := by
  obtain ⟨first, rest, hname, hfirst, hrest⟩ := h
  have of_class : ∀ c : Char, c = '_' ∨ c.isAlphanum = true → isContinue c = true := by
    intro c hc
    simpa [Identifier.isContinue] using hc
  rw [hname, List.forall_mem_cons]
  refine ⟨of_class first ?_, fun c hc => of_class c (hrest c hc)⟩
  rcases hfirst with underscore | letter
  · exact .inl underscore
  · exact .inr (Bool.or_eq_true_iff.2 (.inl letter))

namespace Spec.Symbol.IsNative

variable {s : Symbol} (h : s.IsNative) {c : Char}
include h

/-- A character that no identifier and no path has in it is not in the path to such a symbol. -/
theorem not_mem_path (hc : Identifier.isContinue c = false) (hpath : c ∉ "super::-".toList)
    (current : Option String) : c ∉ (s.pathFrom current).toList := by
  have no_dash : c ≠ '-' := by
    rintro rfl
    exact absurd (by decide) hpath
  have not_written : ∀ name, Identifier.IsWritten (Identifier.typeName name) →
      c ∉ name.toList := by
    intro name hname hmem
    have undashed : c ∈ (Identifier.typeName name).toList := by
      rw [Identifier.typeName, String.toList_ofList]
      exact List.mem_map.2 ⟨c, hmem, by simp [Identifier.undash, no_dash]⟩
    rw [Identifier.isContinue_of_isWritten hname c undashed] at hc
    cases hc
  refine s.not_mem_pathFrom ⟨?_, fun within => hpath ?_⟩ (not_written _ h.name)
    (fun target htarget => not_written _ (h.scope target htarget)) current
  · rintro rfl
    cases hc
  · exact List.mem_append_left ['-'] within

end Spec.Symbol.IsNative

namespace Spec.Symbol

/-- In one namespace, different names give different paths. -/
theorem pathFrom_inj {s s' : Symbol} (h : s.scope = s'.scope) (current : Option String) :
    s.pathFrom current = s'.pathFrom current ↔
      Identifier.typeName s.name = Identifier.typeName s'.name := by
  unfold pathFrom
  rw [h]
  split
  · exact Iff.rfl
  · exact String.append_right_inj ..
  · exact String.append_right_inj ..
  · split
    · exact Iff.rfl
    · exact String.append_right_inj ..

end Spec.Symbol

namespace Base

/-- No two primitive types are spelled alike, be it in C or in the bindings. -/
theorem primitive_inj (p q : Primitive) (current : Option String) (marks : Nat) :
    (primitive p).cSpelling = (primitive q).cSpelling ↔
      (primitive p).pathBehind current marks = (primitive q).pathBehind current marks := by
  -- both tables are decided; data of unknown type is spelled by no primitive type
  have in_c : ∀ p ∈ Primitive.all, ∀ q ∈ Primitive.all, p.cSpelling = q.cSpelling → p = q := by
    decide +kernel
  have in_bindings : ∀ p ∈ Primitive.all, p.path ≠ "::core::ffi::c_void" ∧
      ∀ q ∈ Primitive.all, p.path = q.path → p = q := by
    decide +kernel
  constructor
  · intro same
    rw [in_c p p.mem_all q q.mem_all same]
  · intro same
    have equal : p = q := by
      simp only [pathBehind] at same
      split_ifs at same with hp hq hq
      · exact hp.1.trans hq.1.symm
      · exact absurd same.symm (in_bindings q q.mem_all).1
      · exact absurd same (in_bindings p p.mem_all).1
      · exact (in_bindings p p.mem_all).2 q q.mem_all same
    rw [equal]

/-- Of bases of one kind, those that are spelled alike in C are spelled alike in the bindings, and
the other way round. -/
theorem cSpelling_eq_iff {b b' : Base}
    (h : b.symbol?.map Symbol.scope = b'.symbol?.map Symbol.scope) (current : Option String)
    (marks : Nat) :
    b.cSpelling = b'.cSpelling ↔ b.pathBehind current marks = b'.pathBehind current marks := by
  cases b with
  | primitive p =>
    cases b' with
    | primitive q => exact primitive_inj p q current marks
    | named s => cases h
  | named s =>
    cases b' with
    | primitive q => cases h
    | named s' => exact (Symbol.pathFrom_inj (Option.some.inj h) current).symm

/-- What a type can be behind its pointers: a primitive type that is no pointer itself, or a type
whose names are identifiers of C. -/
inductive IsPlain : Base → Prop
  | primitive {p : Primitive} (h : p ≠ .pointer ∧ p ≠ .string) : IsPlain (.primitive p)
  | named {s : Symbol} (h : s.IsNative) : IsPlain (.named s)

namespace IsPlain

variable {b : Base} (h : b.IsPlain)
include h

theorem star_not_mem_cSpelling :
    '*' ∉ b.cSpelling.toList ∧ b.cSpelling.toList.getLast? ≠ some ' ' := by
  have in_table : ∀ p ∈ Primitive.all, p ≠ .pointer ∧ p ≠ .string →
      '*' ∉ p.cSpelling.toList ∧ p.cSpelling.toList.getLast? ≠ some ' ' := by
    decide +kernel
  cases h with
  | @primitive p no_pointer => exact in_table p p.mem_all no_pointer
  | named native =>
    have continues := Identifier.isContinue_of_isWritten native.name
    constructor
    · intro star
      exact absurd (continues _ star) (by decide)
    · intro last
      exact absurd (continues _ (List.mem_of_getLast? last)) (by decide)

theorem star_not_mem_pathBehind (current : Option String) (marks : Nat) :
    '*' ∉ (b.pathBehind current marks).toList := by
  have in_table : ∀ p ∈ Primitive.all, p ≠ .pointer ∧ p ≠ .string → '*' ∉ p.path.toList := by
    decide +kernel
  cases h with
  | @primitive p no_pointer =>
    rw [pathBehind]
    split
    · decide
    · exact in_table p p.mem_all no_pointer
  | named native => exact native.not_mem_path (by decide) (by decide) current

/-- The unit type is not written behind a mark. -/
theorem parenthesis_not_mem_pathBehind (current : Option String) {marks : Nat}
    (hmarks : b = .primitive .void → 0 < marks) :
    '(' ∉ (b.pathBehind current marks).toList := by
  have in_table : ∀ p ∈ Primitive.all, p ≠ .void → '(' ∉ p.path.toList := by decide +kernel
  cases h with
  | @primitive p no_pointer =>
    rw [pathBehind]
    split
    · decide
    · rename_i no_data
      -- the type of no value would be marked, and then written in another way
      refine in_table p p.mem_all fun void => ?_
      exact no_data ⟨void, hmarks (congrArg _ void)⟩
  | named native => exact native.not_mem_path (by decide) (by decide) current

end IsPlain

end Base

namespace ForeignType

variable {t : ForeignType} (h : ∀ s ∈ t.symbol?, s.IsNative)
include h

theorem base_isPlain : t.base.IsPlain := by
  induction t with
  | primitive p => cases p <;> exact .primitive ⟨nofun, nofun⟩
  | named s => exact .named (h s rfl)
  | pointer target ih => exact ih h

/-- The unit type is written for the type of no value, and in no other type. -/
theorem occurrences_unit (current : Option String) :
    Text.occurrences ['(', ')'] (t.path current).toList =
      if t = primitive .void then 1 else 0 := by
  by_cases void : t = primitive .void
  · rw [if_pos void, void, path]
    decide
  · have not_behind := (base_isPlain h).parenthesis_not_mem_pathBehind current (pointers_pos void)
    rw [if_neg void, path_eq]
    exact Text.occurrences_eq_zero (not_mem_marked (by decide) not_behind t.pointers)

end ForeignType

/-! ## Arguments that are types -/

/-- The argument refers to a type: a keyword to the primitive type that has it, a symbol to the type
of its name, and a list of `:pointer` and an argument to a pointer to what that refers to. -/
inductive Spec.Form.RefersTo : Form → ForeignType → Prop
  | primitive (p : Primitive) : RefersTo (.keyword p.keyword) (.primitive p)
  | named (s : Symbol) : RefersTo (.symbol s) (.named s)
  | pointer {f : Form} {t : ForeignType} (h : RefersTo f t) :
    RefersTo (.list [.keyword "pointer", f]) (.pointer t)

/-- An argument is read as a type if it refers to one, and as that type. -/
theorem ForeignType.ofForm_eq_ok_iff {f : Form} {t : ForeignType} :
    ofForm f = .ok t ↔ f.RefersTo t := by
  constructor
  · intro h
    fun_induction ofForm f generalizing t with
    | case1 name p hp =>
      cases h
      have found : p.keyword = name := by simpa using List.find?_some hp
      rw [← found]
      exact .primitive p
    | case3 s =>
      cases h
      exact .named s
    | case4 name target is_pointer ih =>
      cases htarget : ofForm target with
      | error fault =>
        rw [htarget] at h
        cases h
      | ok t' =>
        rw [htarget] at h
        cases h
        rw [beq_iff_eq.1 is_pointer]
        exact .pointer (ih htarget)
    -- all other arguments are refused
    | _ => cases h
  · intro h
    induction h with
    | primitive p => rw [ofForm, Primitive.ofKeyword?_keyword]
    | named s => rfl
    | pointer h ih =>
      rw [ofForm, ih]
      rfl

/-! ## Both spellings -/

namespace ForeignType

/-- **Types in both spellings.** The arguments that are read as types are the keywords of primitive
types, the symbols, and pointers to either at any depth. If the names in a type are identifiers of
C, its spelling in C has as many stars as its spelling in the bindings has marks, and what is left
without them are the two spellings of what the type is behind its pointers: of a name, or of a
primitive type. C has no namespaces, so a name of the same namespace is meant, but of these, and of
the primitive types, one is left in C exactly if it is left in the bindings. The unit type is only
written for the type of no value itself. -/
theorem spellings_agree :
    (∀ f t, ofForm f = .ok t ↔ f.RefersTo t) ∧
    ∀ t : ForeignType, (∀ s ∈ t.symbol?, s.IsNative) → ∀ current,
      Text.occurrences "*".toList t.cSpelling.toList =
        Text.occurrences "*mut".toList (t.path current).toList ∧
      (∀ s, t.base = .named s ↔ t.symbol? = some s) ∧
      withoutStars t.cSpelling = t.base.cSpelling ∧
      withoutMarks (t.path current) = t.base.pathBehind current t.pointers ∧
      (∀ b : Base, b.symbol?.map Symbol.scope = t.symbol?.map Symbol.scope →
        (withoutStars t.cSpelling = b.cSpelling ↔
          withoutMarks (t.path current) = b.pathBehind current t.pointers)) ∧
      Text.occurrences "()".toList (t.path current).toList =
        if t = .primitive .void then 1 else 0 := by
  refine ⟨fun f t => ofForm_eq_ok_iff, fun t native current => ?_⟩
  have plain := base_isPlain native
  obtain ⟨no_star, last⟩ := plain.star_not_mem_cSpelling
  have no_mark := plain.star_not_mem_pathBehind current t.pointers
  have c_base : withoutStars t.cSpelling = t.base.cSpelling := by
    rw [cSpelling_eq, withoutStars_starred no_star _ last]
  have bindings_base : withoutMarks (t.path current) = t.base.pathBehind current t.pointers := by
    rw [path_eq, withoutMarks_marked no_mark]
  have stars : Text.occurrences "*".toList t.cSpelling.toList = t.pointers := by
    rw [cSpelling_eq]
    exact occurrences_starred no_star t.pointers
  have marks : Text.occurrences "*mut".toList (t.path current).toList = t.pointers := by
    rw [path_eq]
    exact occurrences_marked no_mark t.pointers
  refine ⟨stars.trans marks.symm, fun s => ?_, c_base, bindings_base, fun b same_kind => ?_,
    occurrences_unit native current⟩
  · rw [← symbol?_base, Base.symbol?_eq_some_iff]
  · rw [c_base, bindings_base]
    rw [← symbol?_base] at same_kind
    exact Base.cSpelling_eq_iff same_kind.symm current t.pointers

/-- A pointer to a pointer to a type of another namespace. -/
def clock : ForeignType :=
  pointer (pointer (named ⟨some "a-b", "time-t"⟩))

/-- It has two stars in C and two marks in the bindings. -/
theorem spellings_agree_clock :
    (∀ s ∈ clock.symbol?, s.IsNative) ∧
    clock.cSpelling = "time_t * *" ∧
    clock.path (some "net") = "*mut *mut super::a-b::time_t" ∧
    Text.occurrences "*".toList clock.cSpelling.toList =
      Text.occurrences "*mut".toList (clock.path (some "net")).toList ∧
    withoutStars clock.cSpelling = "time_t" ∧
    withoutMarks (clock.path (some "net")) = "super::a-b::time_t" := by
  have native : ∀ s ∈ clock.symbol?, s.IsNative := by
    rintro s ⟨⟩
    refine ⟨((Identifier.isIdentifier_iff _).1 (by decide)).1, ?_⟩
    rintro scope ⟨⟩
    exact ((Identifier.isIdentifier_iff _).1 (by decide)).1
  obtain ⟨same_number, -, c_base, bindings_base, -⟩ :=
    spellings_agree.2 clock native (some "net")
  exact ⟨native, by decide, by decide, same_number, c_base, bindings_base⟩

end ForeignType

end ForeignBindings
