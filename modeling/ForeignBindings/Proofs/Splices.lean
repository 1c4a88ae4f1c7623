import ForeignBindings.Proofs.Forms
import ForeignBindings.Proofs.Reading
import ForeignBindings.Spec.Group

/-!
# Splices

A specification is read as if each group were replaced by its elements, at any depth, and what is
left were read from the first element to the last.

* `Sexp.spliced` is that replacement, and `Sexp.IsDirective` says what may be left.
* `WordReads` and `Sexp.Reads` say what an argument reads as under a namespace, from its spelling;
  `Sexp.reads_iff` says that they are what the reader does.
* `Sexp.directives_eq_ok` says that an element gives what its splice gives in turn.
* `directivesOf_spliced` says so of a whole text, with the namespace that each directive is read
  under.
-/

namespace ForeignBindings.Spec

open Checks

/-! ## Words -/

/-- Somewhere among the characters, a colon follows a colon. -/
def HasDoubleColon (cs : List Char) : Prop :=
  [':', ':'] <:+: cs

theorem hasDoubleColon_cons {c : Char} {cs : List Char} :
    HasDoubleColon (c :: cs) ↔ (c = ':' ∧ cs.head? = some ':') ∨ HasDoubleColon cs := by
  unfold HasDoubleColon
  rw [List.infix_cons_iff, List.cons_prefix_cons]
  cases cs with
  | nil => simp
  | cons d ds => simp [List.cons_prefix_cons, eq_comm]

/-- What is not the start of a double colon can be left out in front. -/
theorem hasDoubleColon_cons_of_not {c : Char} {cs : List Char}
    (h : ¬ (c = ':' ∧ cs.head? = some ':')) : HasDoubleColon (c :: cs) ↔ HasDoubleColon cs := by
  rw [hasDoubleColon_cons, or_iff_right h]

theorem head?_append_colon (cs rest : List Char) :
    (cs ++ [':']).head? = (cs ++ ':' :: rest).head? := by
  cases cs <;> rfl

/-- A word is split at the first double colon in it. -/
theorem splitQualified_eq_some {cs scope name : List Char} :
    splitQualified cs = some (scope, name) ↔
      cs = scope ++ ':' :: ':' :: name ∧ ¬ HasDoubleColon (scope ++ [':']) := by
  fun_induction splitQualified cs generalizing scope with
  | case1 => simp
  | case2 cs =>
    cases scope with
    | nil =>
      have no_more : ¬ HasDoubleColon [':'] := by
        rw [hasDoubleColon_cons]
        simp [HasDoubleColon]
      simp [no_more, eq_comm]
    | cons c scope =>
      -- the scope would have the first double colon in it, with the colon behind it
      constructor
      · intro h
        cases h
      · rintro ⟨heq, no_colons⟩
        rw [List.cons_append] at heq
        obtain ⟨rfl, hrest⟩ := List.cons.inj heq
        rw [List.cons_append, hasDoubleColon_cons, head?_append_colon scope (':' :: name),
          ← hrest] at no_colons
        exact absurd (.inl ⟨rfl, rfl⟩) no_colons
  | case3 c cs not_first ih =>
    have not_here : ¬ (c = ':' ∧ cs.head? = some ':') := by
      rintro ⟨rfl, hhead⟩
      obtain ⟨rest, rfl⟩ := List.head?_eq_some_iff.1 hhead
      exact not_first rest rfl rfl
    cases scope with
    | nil =>
      constructor
      · intro h
        obtain ⟨⟨_, _⟩, _, hpair⟩ := Option.map_eq_some_iff.1 h
        cases hpair
      · rintro ⟨heq, -⟩
        cases heq
        exact absurd ⟨rfl, rfl⟩ not_here
    | cons s scope =>
      constructor
      · intro h
        obtain ⟨⟨scope', name'⟩, hsplit, hpair⟩ := Option.map_eq_some_iff.1 h
        cases hpair
        obtain ⟨rfl, no_colons⟩ := ih.1 hsplit
        refine ⟨rfl, ?_⟩
        rw [← head?_append_colon] at not_here
        rw [List.cons_append, hasDoubleColon_cons_of_not not_here]
        exact no_colons
      · rintro ⟨heq, no_colons⟩
        obtain ⟨rfl, rfl⟩ := List.cons.inj heq
        rw [List.cons_append, hasDoubleColon_cons, not_or] at no_colons
        rw [ih.2 ⟨rfl, no_colons.2⟩]
        rfl

theorem splitQualified_eq_none {cs : List Char} :
    splitQualified cs = none ↔ ¬ HasDoubleColon cs := by
  fun_induction splitQualified cs with
  | case1 => simp [HasDoubleColon]
  | case2 cs => simp [hasDoubleColon_cons]
  | case3 c cs not_first ih =>
    have not_here : ¬ (c = ':' ∧ cs.head? = some ':') := by
      rintro ⟨rfl, hhead⟩
      obtain ⟨rest, rfl⟩ := List.head?_eq_some_iff.1 hhead
      exact not_first rest rfl rfl
    rw [hasDoubleColon_cons_of_not not_here, Option.map_eq_none_iff, ih]

/-- The word is a colon and the name of a keyword. -/
def IsKeywordWord (word name : String) : Prop :=
  name ≠ "" ∧ word = ":" ++ name

/-- The word is a namespace and a name, with the first double colon of the word between them. -/
def IsQualifiedWord (word scope name : String) : Prop :=
  scope ≠ "" ∧ name ≠ "" ∧ word = scope ++ "::" ++ name ∧ ¬ HasDoubleColon (scope ++ ":").toList

/-- What a word reads as under a namespace. -/
inductive WordReads (scope : Option String) (word : String) : Form → Prop
  | keyword {name : String} (h : IsKeywordWord word name) : WordReads scope word (.keyword name)
  | qualified {ns name : String} (hk : ∀ k, ¬ IsKeywordWord word k)
    (h : IsQualifiedWord word ns name) : WordReads scope word (.symbol ⟨some ns, name⟩)
  | plain (hk : ∀ k, ¬ IsKeywordWord word k) (hq : ∀ ns name, ¬ IsQualifiedWord word ns name) :
    WordReads scope word (.symbol ⟨scope, word⟩)

theorem isKeywordWord_iff {word name : String} :
    IsKeywordWord word name ↔
      ∃ c cs, word.toList = ':' :: c :: cs ∧ name = String.ofList (c :: cs) := by
  constructor
  · rintro ⟨name_ne, rfl⟩
    cases hname : name.toList with
    | nil => simp at hname; exact absurd hname name_ne
    | cons c cs => exact ⟨c, cs, by simp [hname], by rw [← hname, String.ofList_toList]⟩
  · rintro ⟨c, cs, hword, rfl⟩
    refine ⟨by simp [← String.toList_inj], ?_⟩
    rw [← String.toList_inj, hword]
    simp

theorem isQualifiedWord_iff {word ns name : String} :
    IsQualifiedWord word ns name ↔
      ns ≠ "" ∧ name ≠ "" ∧ splitQualified word.toList = some (ns.toList, name.toList) := by
  have spelled : word = ns ++ "::" ++ name ↔
      word.toList = ns.toList ++ ':' :: ':' :: name.toList := by
    rw [← String.toList_inj]
    simp
  rw [IsQualifiedWord, splitQualified_eq_some, spelled, String.toList_append]
  rfl

theorem wordForm_of_keyword {word name : String} (h : IsKeywordWord word name)
    (scope : Option String) : wordForm scope word = .keyword name := by
  obtain ⟨c, cs, hword, rfl⟩ := isKeywordWord_iff.1 h
  simp [wordForm, hword]

theorem wordForm_of_qualified {word ns name : String} (hk : ∀ k, ¬ IsKeywordWord word k)
    (h : IsQualifiedWord word ns name) (scope : Option String) :
    wordForm scope word = .symbol ⟨some ns, name⟩ := by
  obtain ⟨ns_ne, name_ne, hsplit⟩ := isQualifiedWord_iff.1 h
  unfold wordForm
  split
  · rename_i c cs hword
    exact absurd (isKeywordWord_iff.2 ⟨c, cs, hword, rfl⟩) (hk _)
  · rw [hsplit]
    split
    · rename_i s ss n ns' hpair
      obtain ⟨hns, hname⟩ := Prod.mk.inj (Option.some.inj hpair)
      rw [← hns, ← hname, String.ofList_toList, String.ofList_toList]
    · rename_i not_both
      -- neither part is empty, so both have a first character
      have ns_cons : ns.toList ≠ [] := fun h => ns_ne (String.toList_eq_nil_iff.1 h)
      have name_cons : name.toList ≠ [] := fun h => name_ne (String.toList_eq_nil_iff.1 h)
      obtain ⟨s, ss, hns⟩ := List.exists_cons_of_ne_nil ns_cons
      obtain ⟨n, ns', hname⟩ := List.exists_cons_of_ne_nil name_cons
      have both : some (ns.toList, name.toList) = some (s :: ss, n :: ns') := by rw [hns, hname]
      exact absurd both (not_both s ss n ns')

theorem wordForm_of_plain {word : String} (hk : ∀ k, ¬ IsKeywordWord word k)
    (hq : ∀ ns name, ¬ IsQualifiedWord word ns name) (scope : Option String) :
    wordForm scope word = .symbol ⟨scope, word⟩ := by
  unfold wordForm
  split
  · rename_i c cs hword
    exact absurd (isKeywordWord_iff.2 ⟨c, cs, hword, rfl⟩) (hk _)
  · split
    · rename_i s ss n ns hsplit
      have qualified :
          IsQualifiedWord word (String.ofList (s :: ss)) (String.ofList (n :: ns)) := by
        rw [isQualifiedWord_iff, String.toList_ofList, String.toList_ofList]
        exact ⟨by simp [← String.toList_inj], by simp [← String.toList_inj], hsplit⟩
      exact absurd qualified (hq _ _)
    · rfl

/-- A word reads as one form only, and that is the one that the reader gives. -/
theorem wordReads_iff {scope : Option String} {word : String} {f : Form} :
    WordReads scope word f ↔ f = wordForm scope word := by
  constructor
  · intro h
    cases h with
    | keyword h => exact (wordForm_of_keyword h scope).symm
    | qualified hk h => exact (wordForm_of_qualified hk h scope).symm
    | plain hk hq => exact (wordForm_of_plain hk hq scope).symm
  · rintro rfl
    by_cases hk : ∃ k, IsKeywordWord word k
    · obtain ⟨k, hk⟩ := hk
      rw [wordForm_of_keyword hk]
      exact .keyword hk
    · rw [not_exists] at hk
      by_cases hq : ∃ ns name, IsQualifiedWord word ns name
      · obtain ⟨ns, name, hq⟩ := hq
        rw [wordForm_of_qualified hk hq]
        exact .qualified hk hq
      · simp only [not_exists] at hq
        rw [wordForm_of_plain hk hq]
        exact .plain hk hq

/-! ## Arguments -/

mutual

/-- What an argument reads as under a namespace. -/
inductive Sexp.Reads (scope : Option String) : Sexp → Form → Prop
  | word {text : String} {f : Form} (h : WordReads scope text f) : Sexp.Reads scope (.word text) f
  | string (text : String) : Sexp.Reads scope (.string text) (.string text)
  | integer (n : Integer) : Sexp.Reads scope (.integer n) (.integer n)
  | list {items : List Sexp} {fs : List Form} (line : Nat) (h : Sexp.ReadsAll scope items fs) :
    Sexp.Reads scope (.list items line) (.list fs)

/-- What some arguments read as, one by one. -/
inductive Sexp.ReadsAll (scope : Option String) : List Sexp → List Form → Prop
  | nil : Sexp.ReadsAll scope [] []
  | cons {s : Sexp} {f : Form} {ss : List Sexp} {fs : List Form} (first : Sexp.Reads scope s f)
    (rest : Sexp.ReadsAll scope ss fs) : Sexp.ReadsAll scope (s :: ss) (f :: fs)

end

mutual

theorem Sexp.reads_iff {scope : Option String} :
    ∀ {s : Sexp} {f : Form}, s.Reads scope f ↔ f = s.toForm scope
  | .word text, f => by
    rw [toForm, ← wordReads_iff]
    constructor
    · intro h
      cases h with
      | word h => exact h
    · exact .word
  | .string text, f => by
    rw [toForm]
    constructor
    · intro h
      cases h
      rfl
    · rintro rfl
      exact .string text
  | .integer n, f => by
    rw [toForm]
    constructor
    · intro h
      cases h
      rfl
    · rintro rfl
      exact .integer n
  | .list items line, f => by
    rw [toForm]
    constructor
    · intro h
      cases h with
      | list _ h => rw [Sexp.readsAll_iff.1 h]
    · rintro rfl
      exact .list line (Sexp.readsAll_iff.2 rfl)

theorem Sexp.readsAll_iff {scope : Option String} :
    ∀ {ss : List Sexp} {fs : List Form}, ReadsAll scope ss fs ↔ fs = toForms scope ss
  | [], fs => by
    rw [toForms]
    constructor
    · intro h
      cases h
      rfl
    · rintro rfl
      exact .nil
  | s :: ss, fs => by
    rw [toForms]
    constructor
    · intro h
      cases h with
      | cons first rest => rw [Sexp.reads_iff.1 first, Sexp.readsAll_iff.1 rest]
    · rintro rfl
      exact .cons (Sexp.reads_iff.2 rfl) (Sexp.readsAll_iff.2 rfl)

end

/-! ## Elements -/

mutual

/-- What an element stands for once groups are replaced by their elements. -/
def Sexp.spliced : Sexp → List Sexp
  | .list (.word tag :: arguments) line =>
    if tag = groupTag then Sexp.splicedAll arguments else [.list (.word tag :: arguments) line]
  | s => [s]

/-- What some elements stand for, one after the other. -/
def Sexp.splicedAll : List Sexp → List Sexp
  | [] => []
  | s :: rest => Sexp.spliced s ++ Sexp.splicedAll rest

end

/-- The element may stand where a directive belongs: it is a list headed by a word without a leading
colon, and if that word switches the namespace, then the one argument is a plain word. -/
def Sexp.IsDirective : Sexp → Prop
  | .list (.word tag :: arguments) _ =>
    startsWithColon tag = false ∧
      (tag = Kind.inNamespace.tag → ∃ name, arguments = [.word name] ∧
        startsWithColon name = false ∧ ¬ HasDoubleColon name.toList)
  | _ => False

/-- The namespace that an element switches to. -/
def Sexp.switchesTo? : Sexp → Option String
  | .list [.word tag, .word name] _ => if tag = Kind.inNamespace.tag then some name else none
  | _ => none

/-- The directive that an element gives under a namespace. The argument of a switch is a symbol
without a namespace, whatever is in force. -/
inductive Sexp.Gives (scope : Option String) : Sexp → Directive → Prop
  | switch {name : String} (line : Nat) (hcolon : startsWithColon name = false)
    (hplain : ¬ HasDoubleColon name.toList) :
    Sexp.Gives scope (.list [.word Kind.inNamespace.tag, .word name] line)
      ⟨Kind.inNamespace.tag, [.symbol ⟨none, name⟩], line⟩
  | plain {tag : String} {arguments : List Sexp} {fs : List Form} (line : Nat)
    (hcolon : startsWithColon tag = false) (hne : tag ≠ Kind.inNamespace.tag)
    (h : Sexp.ReadsAll scope arguments fs) :
    Sexp.Gives scope (.list (.word tag :: arguments) line) ⟨tag, fs, line⟩

/-- The directives that some elements give in turn, from the namespace that is in force before them
to the one after them. -/
inductive GivesInTurn : Option String → List Sexp → List Directive → Option String → Prop
  | nil (scope : Option String) : GivesInTurn scope [] [] scope
  | cons {scope after : Option String} {s : Sexp} {d : Directive} {ss : List Sexp}
    {ds : List Directive} (first : s.Gives scope d)
    (rest : GivesInTurn (s.switchesTo?.or scope) ss ds after) :
    GivesInTurn scope (s :: ss) (d :: ds) after

/-- An element gives something if it is a directive, under every namespace. -/
theorem Sexp.exists_gives_iff (scope : Option String) {s : Sexp} :
    (∃ d, s.Gives scope d) ↔ s.IsDirective := by
  constructor
  · rintro ⟨d, h⟩
    cases h with
    | switch line hcolon hplain => exact ⟨rfl, fun _ => ⟨_, rfl, hcolon, hplain⟩⟩
    | plain line hcolon hne h => exact ⟨hcolon, fun htag => absurd htag hne⟩
  · intro h
    unfold IsDirective at h
    split at h
    · rename_i tag arguments line
      obtain ⟨hcolon, hswitch⟩ := h
      by_cases htag : tag = Kind.inNamespace.tag
      · obtain ⟨name, rfl, name_colon, name_plain⟩ := hswitch htag
        subst htag
        exact ⟨_, .switch line name_colon name_plain⟩
      · exact ⟨_, .plain line hcolon htag (Sexp.readsAll_iff.2 rfl)⟩
    · exact absurd h id

namespace GivesInTurn

variable {scope middle after : Option String} {ss ss' : List Sexp} {ds ds' : List Directive}

theorem append (h : GivesInTurn scope ss ds middle) (h' : GivesInTurn middle ss' ds' after) :
    GivesInTurn scope (ss ++ ss') (ds ++ ds') after := by
  induction h with
  | nil => exact h'
  | cons first rest ih => exact .cons first (ih h')

theorem split (h : GivesInTurn scope (ss ++ ss') ds after) :
    ∃ first middle others, ds = first ++ others ∧ GivesInTurn scope ss first middle ∧
      GivesInTurn middle ss' others after := by
  induction ss generalizing scope ds with
  | nil => exact ⟨[], scope, ds, rfl, .nil scope, h⟩
  | cons s ss ih =>
    cases h with
    | cons hfirst hrest =>
      obtain ⟨first, middle, others, rfl, hss, hothers⟩ := ih hrest
      exact ⟨_ :: first, middle, others, rfl, .cons hfirst hss, hothers⟩

theorem singleton_iff {s : Sexp} :
    GivesInTurn scope [s] ds after ↔
      ∃ d, s.Gives scope d ∧ ds = [d] ∧ after = s.switchesTo?.or scope := by
  constructor
  · intro h
    cases h with
    | cons first rest =>
      cases rest
      exact ⟨_, first, rfl, rfl⟩
  · rintro ⟨d, first, rfl, rfl⟩
    exact .cons first (.nil _)

/-- Directives are given wherever all elements are directives. -/
theorem exists_iff (scope : Option String) :
    (∃ ds after, GivesInTurn scope ss ds after) ↔ ∀ s ∈ ss, s.IsDirective := by
  induction ss generalizing scope with
  | nil => exact ⟨fun _ => by simp, fun _ => ⟨[], scope, .nil scope⟩⟩
  | cons s ss ih =>
    rw [List.forall_mem_cons, ← Sexp.exists_gives_iff scope, ← ih (s.switchesTo?.or scope)]
    constructor
    · rintro ⟨ds, after, h⟩
      cases h with
      | cons first rest => exact ⟨⟨_, first⟩, _, _, rest⟩
    · rintro ⟨⟨d, first⟩, ds, after, rest⟩
      exact ⟨_, _, .cons first rest⟩

end GivesInTurn

/-! ## Reading -/

theorem namespaceName?_eq_some {arguments : List Sexp} {name : String} :
    namespaceName? arguments = some name ↔
      arguments = [.word name] ∧ startsWithColon name = false ∧ ¬ HasDoubleColon name.toList := by
  unfold namespaceName?
  split
  · rename_i word
    have plain_iff : (startsWithColon word || (splitQualified word.toList).isSome) = false ↔
        startsWithColon word = false ∧ ¬ HasDoubleColon word.toList := by
      rw [Bool.or_eq_false_iff, ← splitQualified_eq_none, Option.isSome_eq_false_iff,
        Option.isNone_iff_eq_none]
    split
    · rename_i not_plain
      constructor
      · intro h
        cases h
      · rintro ⟨heq, plain⟩
        cases heq
        rw [plain_iff.2 plain] at not_plain
        cases not_plain
    · rename_i not_special
      have plain := plain_iff.1 (Bool.eq_false_iff.2 not_special)
      constructor
      · intro h
        cases h
        exact ⟨rfl, plain⟩
      · rintro ⟨heq, -⟩
        cases heq
        rfl
  · rename_i not_word
    constructor
    · intro h
      cases h
    · rintro ⟨heq, -⟩
      exact absurd heq (not_word name)

namespace Sexp

variable {scope after : Option String} {outer : Nat} {ds : List Directive}

theorem switchesTo?_of_ne {tag : String} {arguments : List Sexp} {line : Nat}
    (h : tag ≠ Kind.inNamespace.tag) :
    switchesTo? (.list (.word tag :: arguments) line) = none := by
  unfold switchesTo?
  split
  · rename_i heq
    cases heq
    exact if_neg h
  · rfl

/-- A list that is no group gives one directive or none. -/
theorem directives_eq_ok_of_ne_group {tag : String} {arguments : List Sexp} {line : Nat}
    (hgroup : tag ≠ groupTag) :
    directives scope outer (.list (.word tag :: arguments) line) = .ok (ds, after) ↔
      ∃ d, Gives scope (.list (.word tag :: arguments) line) d ∧ ds = [d] ∧
        after = (switchesTo? (.list (.word tag :: arguments) line)).or scope := by
  have not_group : (tag == groupTag) = false := by simpa using hgroup
  rw [directives, not_group]
  constructor
  · intro h
    split at h
    · cases h
    · rename_i hcolon
      have no_colon : startsWithColon tag = false := Bool.eq_false_iff.2 hcolon
      simp only [Bool.false_eq_true, if_false, beq_iff_eq] at h
      split at h
      · rename_i hswitch
        subst hswitch
        split at h
        · rename_i name hname
          obtain ⟨rfl, name_colon, name_plain⟩ := namespaceName?_eq_some.1 hname
          cases h
          exact ⟨_, .switch line name_colon name_plain, rfl, rfl⟩
        · cases h
      · rename_i hplain
        cases h
        refine ⟨_, .plain line no_colon hplain (readsAll_iff.2 rfl), rfl, ?_⟩
        rw [switchesTo?_of_ne hplain, Option.none_or]
  · rintro ⟨d, h, rfl, rfl⟩
    cases h with
    | switch line hcolon hplain =>
      rename_i name
      have named : namespaceName? [.word name] = some name :=
        namespaceName?_eq_some.2 ⟨rfl, hcolon, hplain⟩
      rw [named]
      rfl
    | plain line hcolon hne h =>
      have not_switch : (tag == Kind.inNamespace.tag) = false := by simpa using hne
      rw [hcolon, not_switch, switchesTo?_of_ne hne, readsAll_iff.1 h]
      rfl

/-- An element without a tag stands for itself. -/
theorem spliced_of_untagged {s : Sexp}
    (h : ∀ tag arguments line, s ≠ .list (.word tag :: arguments) line) : s.spliced = [s] := by
  unfold spliced
  split
  · exact absurd rfl (h _ _ _)
  · rfl

/-- An element without a tag is refused. -/
theorem directives_eq_ok_of_untagged {s : Sexp}
    (h : ∀ tag arguments line, s ≠ .list (.word tag :: arguments) line) :
    directives scope outer s = .ok (ds, after) ↔ GivesInTurn scope s.spliced ds after := by
  rw [spliced_of_untagged h, GivesInTurn.singleton_iff]
  constructor
  · intro hread
    unfold directives at hread
    split at hread
    · exact absurd rfl (h _ _ _)
    · cases hread
    · cases hread
  · rintro ⟨d, hgives, -⟩
    cases hgives with
    | switch line hcolon hplain => exact absurd rfl (h _ _ _)
    | plain line hcolon hne hreads => exact absurd rfl (h _ _ _)

end Sexp

mutual

/-- An element gives what its splice gives in turn. -/
theorem Sexp.directives_eq_ok {scope : Option String} {outer : Nat} :
    ∀ (s : Sexp) {ds : List Directive} {after : Option String},
      Sexp.directives scope outer s = .ok (ds, after) ↔ GivesInTurn scope s.spliced ds after
  | .list (.word tag :: arguments) line, ds, after => by
    rw [Sexp.spliced]
    split
    · -- a group is read as its elements are
      rename_i hgroup
      subst hgroup
      exact Sexp.directivesOfAll_eq_ok arguments
    · rename_i hgroup
      rw [GivesInTurn.singleton_iff]
      exact Sexp.directives_eq_ok_of_ne_group hgroup
  | .list [] _, _, _ => Sexp.directives_eq_ok_of_untagged nofun
  | .list (.string _ :: _) _, _, _ => Sexp.directives_eq_ok_of_untagged nofun
  | .list (.integer _ :: _) _, _, _ => Sexp.directives_eq_ok_of_untagged nofun
  | .list (.list _ _ :: _) _, _, _ => Sexp.directives_eq_ok_of_untagged nofun
  | .word _, _, _ => Sexp.directives_eq_ok_of_untagged nofun
  | .string _, _, _ => Sexp.directives_eq_ok_of_untagged nofun
  | .integer _, _, _ => Sexp.directives_eq_ok_of_untagged nofun

theorem Sexp.directivesOfAll_eq_ok {scope : Option String} {outer : Nat} :
    ∀ (lists : List Sexp) {ds : List Directive} {after : Option String},
      Sexp.directivesOfAll scope outer lists = .ok (ds, after) ↔
        GivesInTurn scope (Sexp.splicedAll lists) ds after
  | [], ds, after => by
    rw [Sexp.directivesOfAll, Sexp.splicedAll]
    constructor
    · intro h
      cases h
      exact .nil scope
    · intro h
      cases h
      rfl
  | s :: rest, ds, after => by
    rw [Sexp.directivesOfAll, Sexp.splicedAll]
    constructor
    · intro h
      obtain ⟨⟨first, middle⟩, hfirst, h⟩ := bind_eq_ok.1 h
      obtain ⟨⟨others, last⟩, hothers, h⟩ := bind_eq_ok.1 h
      cases h
      exact ((Sexp.directives_eq_ok s).1 hfirst).append
        ((Sexp.directivesOfAll_eq_ok rest).1 hothers)
    · intro h
      obtain ⟨first, middle, others, rfl, hfirst, hothers⟩ := h.split
      rw [(Sexp.directives_eq_ok s).2 hfirst]
      show (Sexp.directivesOfAll middle outer rest >>= _) = _
      rw [(Sexp.directivesOfAll_eq_ok rest).2 hothers]
      rfl

end

/-! ## Whole texts -/

/-- The namespace that the last switch among some elements names. -/
def lastSwitch (elements : List Sexp) : Option String :=
  (elements.filterMap Sexp.switchesTo?).getLast?

theorem lastSwitch_cons (s : Sexp) (elements : List Sexp) :
    lastSwitch (s :: elements) = (lastSwitch elements).or s.switchesTo? := by
  rw [lastSwitch, lastSwitch, List.filterMap_cons]
  cases s.switchesTo? with
  | none => simp
  | some name => rw [List.getLast?_cons, Option.or_some]

/-- There is one directive for each element, read under what the last switch before it names. -/
theorem GivesInTurn.gives {scope after : Option String} {ss : List Sexp} {ds : List Directive}
    (h : GivesInTurn scope ss ds after) :
    ds.length = ss.length ∧ ∀ (i : Nat) (s : Sexp) (d : Directive), ss[i]? = some s →
      ds[i]? = some d → s.Gives ((lastSwitch (ss.take i)).or scope) d := by
  induction h with
  | nil => simp
  | cons first rest ih =>
    obtain ⟨length_eq, gives⟩ := ih
    refine ⟨by simp [length_eq], ?_⟩
    intro i s d hs hd
    cases i with
    | zero =>
      cases hs
      cases hd
      exact first
    | succ i =>
      have later := gives i s d hs hd
      rw [← Option.or_assoc, ← lastSwitch_cons, ← List.take_succ_cons] at later
      exact later

/-- The element is a group. -/
def Sexp.IsGroup (s : Sexp) : Prop :=
  ∃ arguments line, s = .list (.word groupTag :: arguments) line

theorem Sexp.not_isGroup_of_untagged {s x : Sexp} (hx : x ∈ s.spliced)
    (h : ∀ tag arguments line, s ≠ .list (.word tag :: arguments) line) : ¬ x.IsGroup := by
  rw [spliced_of_untagged h, List.mem_singleton] at hx
  rw [hx]
  rintro ⟨arguments, line, heq⟩
  exact h _ _ _ heq

mutual

/-- No group is left. -/
theorem Sexp.not_isGroup_of_mem_spliced : ∀ {s x : Sexp}, x ∈ s.spliced → ¬ x.IsGroup
  | .list (.word tag :: arguments) line, x, hx => by
    rw [spliced] at hx
    split at hx
    · exact not_isGroup_of_mem_splicedAll hx
    · rename_i hgroup
      rw [List.mem_singleton.1 hx]
      rintro ⟨_, _, heq⟩
      cases heq
      exact hgroup rfl
  | .list [] _, _, hx => not_isGroup_of_untagged hx nofun
  | .list (.string _ :: _) _, _, hx => not_isGroup_of_untagged hx nofun
  | .list (.integer _ :: _) _, _, hx => not_isGroup_of_untagged hx nofun
  | .list (.list _ _ :: _) _, _, hx => not_isGroup_of_untagged hx nofun
  | .word _, _, hx => not_isGroup_of_untagged hx nofun
  | .string _, _, hx => not_isGroup_of_untagged hx nofun
  | .integer _, _, hx => not_isGroup_of_untagged hx nofun

theorem Sexp.not_isGroup_of_mem_splicedAll : ∀ {ss : List Sexp} {x : Sexp},
    x ∈ splicedAll ss → ¬ x.IsGroup
  | [], x, hx => by
    rw [splicedAll] at hx
    cases hx
  | s :: ss, x, hx => by
    rw [splicedAll] at hx
    rcases List.mem_append.1 hx with hx | hx
    · exact not_isGroup_of_mem_spliced hx
    · exact not_isGroup_of_mem_splicedAll hx

end

theorem Sexp.Gives.tag_ne_groupTag {scope : Option String} {s : Sexp} {d : Directive}
    (h : s.Gives scope d) (hs : ¬ s.IsGroup) : d.tag ≠ groupTag := by
  cases h with
  | switch line hcolon hplain =>
    show Kind.inNamespace.tag ≠ groupTag
    decide
  | plain line hcolon hne hreads =>
    rintro rfl
    exact hs ⟨_, _, rfl⟩

theorem directivesOf_eq_ok {text : String} {ds : List Directive} :
    directivesOf text = .ok ds ↔
      ∃ lists after, Sexp.ofText text = .ok lists ∧
        GivesInTurn none (Sexp.splicedAll lists) ds after := by
  constructor
  · intro h
    obtain ⟨lists, hlists, h⟩ := bind_eq_ok.1 h
    obtain ⟨⟨ds', after⟩, hread, h⟩ := bind_eq_ok.1 h
    cases h
    exact ⟨lists, after, hlists, (Sexp.directivesOfAll_eq_ok lists).1 hread⟩
  · rintro ⟨lists, after, hlists, hturn⟩
    have hread : Sexp.directivesOfAll none 1 lists = .ok (ds, after) :=
      (Sexp.directivesOfAll_eq_ok lists).2 hturn
    exact bind_eq_ok.2 ⟨lists, hlists, bind_eq_ok.2 ⟨(ds, after), hread, rfl⟩⟩

/-- **Whole texts.** A text gives directives if and only if it reads as lists, and each element of
their splice may stand where a directive belongs. It then gives one directive for each of these
elements, in their order, with the tag and the line of the element, which is the line of the opening
parenthesis that the element is written with. Its arguments read as they do under the namespace that
the last switch before it names, in the order of the splice, or under none; only the argument of a
switch itself is a symbol without a namespace. No directive is a group. -/
theorem directivesOf_spliced (text : String) :
    (∀ lists, Sexp.ofText text = .ok lists → Sexp.SpelledAll lists (lexemes text)) ∧
    ((∃ ds, directivesOf text = .ok ds) ↔
      ∃ lists, Sexp.ofText text = .ok lists ∧ ∀ s ∈ Sexp.splicedAll lists, s.IsDirective) ∧
    ∀ lists ds, Sexp.ofText text = .ok lists → directivesOf text = .ok ds →
      ds.length = (Sexp.splicedAll lists).length ∧
      (∀ (i : Nat) (s : Sexp) (d : Directive), (Sexp.splicedAll lists)[i]? = some s →
        ds[i]? = some d → s.Gives (lastSwitch ((Sexp.splicedAll lists).take i)) d) ∧
      ∀ d ∈ ds, d.tag ≠ groupTag := by
  refine ⟨?_, ?_, ?_⟩
  · intro lists hlists
    exact (Sexp.spelledAll_of_ofLexemes hlists).1
  · simp only [directivesOf_eq_ok]
    constructor
    · rintro ⟨ds, lists, after, hlists, hturn⟩
      exact ⟨lists, hlists, (GivesInTurn.exists_iff none).1 ⟨ds, after, hturn⟩⟩
    · rintro ⟨lists, hlists, all⟩
      obtain ⟨ds, after, hturn⟩ := (GivesInTurn.exists_iff none).2 all
      exact ⟨ds, lists, after, hlists, hturn⟩
  · intro lists ds hlists hds
    obtain ⟨lists', after, hlists', hturn⟩ := directivesOf_eq_ok.1 hds
    cases hlists.symm.trans hlists'
    obtain ⟨length_eq, gives⟩ := hturn.gives
    simp only [Option.or_none] at gives
    refine ⟨length_eq, gives, ?_⟩
    intro d hd
    obtain ⟨i, hi⟩ := List.mem_iff_getElem?.1 hd
    -- the element at the same place is what the directive is given by
    obtain ⟨bound, -⟩ := List.getElem?_eq_some_iff.1 hi
    have hs : (Sexp.splicedAll lists)[i]? = some (Sexp.splicedAll lists)[i] :=
      List.getElem?_eq_getElem (length_eq ▸ bound)
    have not_group := Sexp.not_isGroup_of_mem_splicedAll (List.mem_of_getElem? hs)
    exact (gives i _ d hs hi).tag_ne_groupTag not_group

/-- The namespace that a group ends in is in force after it. -/
theorem directivesOf_grouped :
    let text := "(group (in-namespace a) (group))\n(constant (x :type b::c))"
    let arguments : List Sexp := [.list [.word "x", .word ":type", .word "b::c"] 2]
    let constant : Directive :=
      ⟨"constant", [.list [.symbol ⟨some "a", "x"⟩, .keyword "type", .symbol ⟨some "b", "c"⟩]], 2⟩
    directivesOf text = .ok [⟨"in-namespace", [.symbol ⟨none, "a"⟩], 1⟩, constant] ∧
      (Sexp.list (.word "constant" :: arguments) 2).Gives (some "a") constant := by
  intro text arguments constant
  have read : Sexp.ofText text =
      .ok [.list [.word "group", .list [.word "in-namespace", .word "a"] 1,
        .list [.word "group"] 1] 1, .list (.word "constant" :: arguments) 2] := by
    decide +kernel
  have given : directivesOf text =
      .ok [⟨"in-namespace", [.symbol ⟨none, "a"⟩], 1⟩, constant] := by
    rw [directivesOf, read]
    rfl
  obtain ⟨-, gives, -⟩ := (directivesOf_spliced text).2.2 _ _ read given
  exact ⟨given, gives 1 _ _ rfl rfl⟩

/-- The argument of a second switch belongs to no namespace, although the first one is in force. -/
theorem switched_argument_unscoped :
    ¬ ∀ (text : String) (lists : List Sexp) (ds : List Directive),
      Sexp.ofText text = .ok lists → directivesOf text = .ok ds →
        ∀ (i : Nat) (tag : String) (arguments : List Sexp) (line : Nat) (d : Directive),
          (Sexp.splicedAll lists)[i]? = some (.list (.word tag :: arguments) line) →
          ds[i]? = some d →
            Sexp.ReadsAll (lastSwitch ((Sexp.splicedAll lists).take i)) arguments d.arguments := by
  intro everywhere
  have read : Sexp.ofText "(in-namespace a)(in-namespace b)" =
      .ok [.list [.word "in-namespace", .word "a"] 1,
        .list [.word "in-namespace", .word "b"] 1] := by
    decide +kernel
  have given : directivesOf "(in-namespace a)(in-namespace b)" =
      .ok [⟨"in-namespace", [.symbol ⟨none, "a"⟩], 1⟩,
        ⟨"in-namespace", [.symbol ⟨none, "b"⟩], 1⟩] := by
    rw [directivesOf, read]
    rfl
  have second := everywhere _ _ _ read given 1 _ _ _ _ rfl rfl
  have namespaced : [Form.symbol ⟨none, "b"⟩] = [Form.symbol ⟨some "a", "b"⟩] :=
    Sexp.readsAll_iff.1 second
  cases namespaced

end ForeignBindings.Spec
