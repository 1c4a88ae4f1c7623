import ForeignBindings.Proofs.Splices

/-!
# Namespaces in force

While a specification is read, plain words belong to the namespace in force. Which one that is can
be told from the directives read so far, whatever groups they stood in.

* `Spec.namespaceAfter` is the last namespace that some directives switch to.
* `Spec.readInTurn_of_directivesOf` says that the directives of a text are each read under the last
  namespace before them.
-/

namespace ForeignBindings.Spec

/-- The namespace that a directive switches to, as it is written. -/
def Directive.switchesTo? (d : Directive) : Option String :=
  if d.tag = Kind.inNamespace.tag then
    match d.arguments with
    | [.symbol s] => some s.name
    | _ => none
  else none

/-- The namespace in force after some directives. -/
def namespaceAfter (scope : Option String) (ds : List Directive) : Option String :=
  ds.foldl (fun scope d => d.switchesTo?.or scope) scope

@[simp] theorem namespaceAfter_nil (scope : Option String) : namespaceAfter scope [] = scope := rfl

@[simp] theorem namespaceAfter_cons (scope : Option String) (d : Directive) (ds : List Directive) :
    namespaceAfter scope (d :: ds) = namespaceAfter (d.switchesTo?.or scope) ds := rfl

/-- The directive is what a list reads as under a namespace: a switch to another one by its plain
name, or arguments whose plain words belong to it. -/
inductive Directive.ReadUnder (scope : Option String) : Directive → Prop
  | switch (name : String) (line : Nat) :
    ReadUnder scope ⟨Kind.inNamespace.tag, [.symbol ⟨none, name⟩], line⟩
  | plain {tag : String} (items : List Sexp) (line : Nat) (h : tag ≠ Kind.inNamespace.tag) :
    ReadUnder scope ⟨tag, Sexp.toForms scope items, line⟩

/-- Each directive is read under the namespace in force after those before it. -/
inductive ReadInTurn : Option String → List Directive → Prop
  | nil (scope : Option String) : ReadInTurn scope []
  | cons {scope : Option String} {d : Directive} {ds : List Directive} (first : d.ReadUnder scope)
    (rest : ReadInTurn (d.switchesTo?.or scope) ds) : ReadInTurn scope (d :: ds)

/-- What is in force at a directive is what the directives before it have left. -/
theorem ReadInTurn.readUnder {scope : Option String} {before after : List Directive}
    {d : Directive} (h : ReadInTurn scope (before ++ d :: after)) :
    d.ReadUnder (namespaceAfter scope before) := by
  induction before generalizing scope with
  | nil =>
    cases h with
    | cons first rest => exact first
  | cons x before ih =>
    cases h with
    | cons first rest => exact ih rest

/-! ## Reading -/

/-- An element that gives a switch switches to the same namespace. -/
theorem Sexp.Gives.switchesTo?_eq {scope : Option String} {s : Sexp} {d : Directive}
    (h : s.Gives scope d) : d.switchesTo? = s.switchesTo? := by
  cases h with
  | switch line hcolon hplain => rfl
  | plain line hcolon hne hreads =>
    rw [Sexp.switchesTo?_of_ne hne, Directive.switchesTo?, if_neg hne]

theorem Sexp.Gives.readUnder {scope : Option String} {s : Sexp} {d : Directive}
    (h : s.Gives scope d) : d.ReadUnder scope := by
  cases h with
  | switch line hcolon hplain => exact .switch _ line
  | plain line hcolon hne hreads =>
    rw [Sexp.readsAll_iff.1 hreads]
    exact .plain _ line hne

/-- Directives that some elements give in turn are read in turn. -/
theorem GivesInTurn.readInTurn {scope after : Option String} {ss : List Sexp} {ds : List Directive}
    (h : GivesInTurn scope ss ds after) : ReadInTurn scope ds := by
  induction h with
  | nil => exact .nil _
  | cons first rest ih =>
    rw [← first.switchesTo?_eq] at ih
    exact .cons first.readUnder ih

/-- The directives of a text are read in turn, from no namespace at all. -/
theorem readInTurn_of_directivesOf {text : String} {ds : List Directive}
    (h : directivesOf text = .ok ds) : ReadInTurn none ds := by
  obtain ⟨lists, after, -, hturn⟩ := directivesOf_eq_ok.1 h
  exact hturn.readInTurn

end ForeignBindings.Spec
