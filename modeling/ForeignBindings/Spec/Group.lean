import ForeignBindings.Spec.Sexp

/-!
# From nested lists to directives

A specification is read in the order it is written. A list headed by `group` stands for its
elements, at any depth, and `in-namespace` names the namespace that plain words belong to from
there on, across the ends of groups.

* `Sexp.toForm` turns an argument into a form under the namespace in force.
* `Sexp.directives` gives the directives that a list stands for and the namespace in force after
  it.
* `directivesOf` reads a whole text.
-/

namespace ForeignBindings.Spec

/-- The tag of a list that stands for its elements. -/
def groupTag : String := "group"

/-- What stands before and after the first `::`. -/
def splitQualified : List Char → Option (List Char × List Char)
  | [] => none
  | ':' :: ':' :: cs => some ([], cs)
  | c :: cs => (splitQualified cs).map fun (scope, name) => (c :: scope, name)

/-- The word starts with a colon. -/
def startsWithColon (word : String) : Bool :=
  word.toList.head? == some ':'

/-- A word as a form: a keyword if a colon and more stand in it, a symbol of another namespace if
it is written with one, and else a symbol of the namespace in force. -/
def wordForm (scope : Option String) (word : String) : Form :=
  match word.toList with
  | ':' :: c :: cs => .keyword (String.ofList (c :: cs))
  | cs =>
    match splitQualified cs with
    | some (s :: ss, n :: ns) => .symbol ⟨some (String.ofList (s :: ss)), String.ofList (n :: ns)⟩
    | _ => .symbol ⟨scope, word⟩

mutual

/-- An argument as a form, under the namespace in force. -/
def Sexp.toForm (scope : Option String) : Sexp → Form
  | .word text => wordForm scope text
  | .string text => .string text
  | .integer n => .integer n
  | .list items _ => .list (Sexp.toForms scope items)

/-- Arguments as forms, under the namespace in force. -/
def Sexp.toForms (scope : Option String) : List Sexp → List Form
  | [] => []
  | s :: rest => Sexp.toForm scope s :: Sexp.toForms scope rest

end

/-- The namespace that a switch names: one word, without a leading colon and without `::`. -/
def namespaceName? : List Sexp → Option String
  | [.word name] =>
    if startsWithColon name || (splitQualified name.toList).isSome then none else some name
  | _ => none

mutual

/-- The directives that a list stands for, read under the namespace in force, and the namespace in
force after it. The line is that of the list around it. -/
def Sexp.directives (scope : Option String) (outer : Nat) :
    Sexp → Except SyntaxError (List Directive × Option String)
  | .list (.word tag :: arguments) line =>
    if startsWithColon tag then .error (.notADirective line)
    else if tag == groupTag then Sexp.directivesOfAll scope line arguments
    else if tag == Kind.inNamespace.tag then
      match namespaceName? arguments with
      | some name => .ok ([⟨tag, [.symbol ⟨none, name⟩], line⟩], some name)
      | none => .error (.malformedNamespace line)
    else .ok ([⟨tag, Sexp.toForms scope arguments, line⟩], scope)
  | .list _ line => .error (.notADirective line)
  | _ => .error (.notADirective outer)

/-- The directives that some lists stand for, one after the other. -/
def Sexp.directivesOfAll (scope : Option String) (outer : Nat) :
    List Sexp → Except SyntaxError (List Directive × Option String)
  | [] => .ok ([], scope)
  | s :: rest => do
    let (first, scope) ← Sexp.directives scope outer s
    let (others, scope) ← Sexp.directivesOfAll scope outer rest
    return (first ++ others, scope)

end

/-- The directives of a specification text. -/
def directivesOf (text : String) : Except SyntaxError (List Directive) := do
  let lists ← Sexp.ofText text
  let (directives, _) ← Sexp.directivesOfAll none 1 lists
  return directives

end ForeignBindings.Spec
