import Mathlib.Data.List.TakeDrop
import ForeignBindings.Proofs.Dialects

/-!
# Meaning without namespaces

The namespace that the reader gives to a plain word is part of the symbol, and nothing but a type
keeps it. Everywhere else a symbol means what its name means: a name that is declared, a macro, a
flag, the type of a constant, a calling convention, the number of elements of a slot.

The two runs are compared through a third one, on arguments whose symbols have no namespaces at all.
What comes of these is what comes of the arguments as they are, less the namespaces.

* `Form.unscoped`, `ForeignType.unscoped`, `Entry.unscoped` and `InterpretError.unscoped` leave the
  namespaces out.
* `Follows` says of a check that its result on such arguments is the other result in this form. It
  goes along the steps of a check, and `shape_follows` says it of the shapes of all kinds.
* `Dialect.interpret_unscoped` compares any two directives that differ in namespaces alone.
-/

namespace ForeignBindings

open Spec Checks

/-! ## Leaving the namespaces out -/

/-- The symbol of the same name in no namespace. -/
def Spec.Symbol.unscoped (s : Symbol) : Symbol :=
  ⟨none, s.name⟩

namespace Spec.Form

mutual

/-- The form with no namespaces in its symbols, at any depth. -/
def unscoped : Form → Form
  | symbol s => symbol s.unscoped
  | keyword name => keyword name
  | string text => string text
  | integer n => integer n
  | list items => list (unscopedAll items)

/-- The forms with no namespaces in their symbols. -/
def unscopedAll : List Form → List Form
  | [] => []
  | f :: fs => unscoped f :: unscopedAll fs

end

theorem unscopedAll_eq_map (fs : List Form) : unscopedAll fs = fs.map unscoped := by
  induction fs with
  | nil => rfl
  | cons f fs ih => rw [unscopedAll, List.map_cons, ih]

@[simp] theorem isEmpty_unscopedAll (fs : List Form) :
    (unscopedAll fs).isEmpty = fs.isEmpty := by
  cases fs <;> rfl

@[simp] theorem length_unscopedAll (fs : List Form) : (unscopedAll fs).length = fs.length := by
  rw [unscopedAll_eq_map, List.length_map]

@[simp] theorem isKeyword_unscoped (f : Form) : f.unscoped.isKeyword = f.isKeyword := by
  cases f <;> rfl

end Spec.Form

/-- The directive with no namespaces in its arguments. -/
def Spec.Directive.unscoped (d : Directive) : Directive :=
  { d with arguments := Form.unscopedAll d.arguments }

/-- The type with no namespace for the symbol that it names. -/
def ForeignType.unscoped : ForeignType → ForeignType
  | primitive p => primitive p
  | named s => named s.unscoped
  | pointer target => pointer target.unscoped

@[simp] theorem ForeignType.isVoid_unscoped (t : ForeignType) : t.unscoped.isVoid = t.isVoid := by
  cases t <;> rfl

/-- The slot with no namespace in its type. -/
def Slot.unscoped (s : Slot) : Slot :=
  { s with type := s.type.unscoped }

/-- A parameter with no namespace in its type. -/
def unscopedParameter (p : String × ForeignType) : String × ForeignType :=
  (p.1, p.2.unscoped)

/-- The entry with no namespaces in the types that it refers to. All else of it stays. -/
def Entry.unscoped : Entry → Entry
  | record r => record { r with slots := r.slots.map Slot.unscoped }
  | enumeration e => enumeration { e with base := e.base.unscoped }
  | wrapper w =>
    wrapper { w with
      result := w.result.unscoped, parameters := w.parameters.map unscopedParameter }
  | e => e

/-- The entry with no namespaces, of the same kind and on the same line. -/
def Placed.unscoped (p : Placed) : Placed :=
  { p with entry := p.entry.unscoped }

/-- The fault with no namespaces in the form that it has found. -/
def TypeFault.unscoped : TypeFault → TypeFault
  | notAType found => notAType found.unscoped
  | fault => fault

/-- The fault with no namespaces in the form that it has found. -/
def ShapeFault.unscoped : ShapeFault → ShapeFault
  | notAString what found => notAString what found.unscoped
  | notAName found => notAName found.unscoped
  | notAType fault => notAType fault.unscoped
  | notAnOption found => notAnOption found.unscoped
  | optionNotAString key found => optionNotAString key found.unscoped
  | optionNotAFlag key found => optionNotAFlag key found.unscoped
  | optionNotAName key found => optionNotAName key found.unscoped
  | slotCountInvalid field found => slotCountInvalid field found.unscoped
  | wrapperHeadNotAName found => wrapperHeadNotAName found.unscoped
  | parameterShape found => parameterShape found.unscoped
  | fault => fault

/-- The error of the same kind, tag and line, with no namespaces in what it has found. -/
def InterpretError.unscoped : InterpretError → InterpretError
  | shape e => shape { e with fault := e.fault.unscoped }
  | unknownDirective tag line => unknownDirective tag line

/-! ## Checks that follow -/

/-- The second check comes to what the first one comes to, seen through one map for its results and
another for its errors. -/
def Follows {ε ε' α α' : Type} (r : ε → ε') (g : α → α') (x : Except ε α) (y : Except ε' α') :
    Prop :=
  y = (x.map g).mapError r

/-- The second check comes to what the first one comes to, with no namespaces in it. -/
abbrev Unscopes {α α' : Type} (g : α → α') (x : Except ShapeFault α) (y : Except ShapeFault α') :
    Prop :=
  Follows ShapeFault.unscoped g x y

namespace Follows

variable {ε ε' φ φ' α α' β β' : Type} {r : ε → ε'} {g : α → α'} {h : β → β'}
  {x : Except ε α} {y : Except ε' α'}

theorem ok (a : α) : Follows r g (.ok a) (.ok (g a)) := rfl

theorem error (e : ε) : Follows r g (.error e) (.error (r e)) := rfl

/-- Step by step: what is checked next may depend on what came of the first step. -/
theorem bind {f : α → Except ε β} {f' : α' → Except ε' β'} (hx : Follows r g x y)
    (hf : ∀ a, Follows r h (f a) (f' (g a))) : Follows r h (x >>= f) (y >>= f') := by
  unfold Follows at hx
  subst hx
  cases x with
  | ok a => exact hf a
  | error e => rfl

theorem map {f : α → β} {f' : α' → β'} (hx : Follows r g x y) (hf : ∀ a, f' (g a) = h (f a)) :
    Follows r h (f <$> x) (f' <$> y) := by
  unfold Follows at hx
  subst hx
  cases x with
  | ok a => exact congrArg Except.ok (hf a)
  | error e => rfl

theorem mapError {s : φ → φ'} {f : ε → φ} {f' : ε' → φ'} (hx : Follows r g x y)
    (hf : ∀ e, f' (r e) = s (f e)) : Follows s g (x.mapError f) (y.mapError f') := by
  unfold Follows at hx
  subst hx
  cases x with
  | ok a => rfl
  | error e => exact congrArg Except.error (hf e)

/-- A refusal in front of other checks, called for in the same cases. -/
theorem guard {c c' : Prop} [Decidable c] [Decidable c'] {e : ε} {e' : ε'}
    {f : PUnit → Except ε β} {f' : PUnit → Except ε' β'} (hc : c' ↔ c) (he : e' = r e)
    (hf : Follows r h (f ⟨⟩) (f' ⟨⟩)) :
    Follows r h (if c then (throw e >>= f) else f ⟨⟩)
      (if c' then (throw e' >>= f') else f' ⟨⟩) := by
  by_cases called : c
  · rw [if_pos called, if_pos (hc.2 called), he]
    rfl
  · rw [if_neg called, if_neg fun called' => called (hc.1 called')]
    exact hf

end Follows

/-! ## Parts of shapes -/

theorem stringArguments_follows (what : Listed) (forms : List Form) :
    Unscopes id (stringArguments what forms) (stringArguments what (Form.unscopedAll forms)) := by
  unfold stringArguments
  induction forms with
  | nil => exact .ok []
  | cons f forms ih =>
    rw [Form.unscopedAll, List.mapM_cons, List.mapM_cons]
    refine .bind (g := id) ?_ fun text => .bind ih fun texts => .ok (text :: texts)
    -- only a string is a string, and it has no namespace
    cases f with
    | string text => exact .ok text
    | _ => exact .error _

theorem stringList_follows (what : Listed) (forms : List Form) :
    Unscopes id (stringList what forms) (stringList what (Form.unscopedAll forms)) := by
  unfold stringList
  rw [Form.isEmpty_unscopedAll]
  by_cases hempty : forms.isEmpty = true
  · rw [if_pos hempty, if_pos hempty]
    exact .error _
  · rw [if_neg hempty, if_neg hempty]
    exact stringArguments_follows what forms

theorem identifierArguments_follows (what : Listed) (forms : List Form) :
    Unscopes id (identifierArguments what forms)
      (identifierArguments what (Form.unscopedAll forms)) := by
  refine .bind (stringArguments_follows what forms) fun names => ?_
  dsimp only [id]
  cases names.find? fun n => !Identifier.isIdentifier n with
  | some bad => exact .error _
  | none => exact .ok names

theorem bareToken?_unscoped (f : Form) : bareToken? f.unscoped = bareToken? f := by
  cases f <;> rfl

theorem declarable_follows (name written : String) :
    Unscopes id (declarable name written) (declarable name written) := by
  unfold declarable
  split
  · exact .error _
  · split
    · exact .error _
    · exact .ok name

theorem declaredName_follows (rule : String → String) (f : Form) :
    Unscopes id (declaredName rule f) (declaredName rule f.unscoped) := by
  cases f with
  | symbol s => exact declarable_follows (rule s.name) s.name
  | _ => exact .error _

/-- A type is the one place where a namespace is kept. -/
theorem ForeignType.ofForm_follows :
    ∀ f : Form, Follows TypeFault.unscoped ForeignType.unscoped (ofForm f) (ofForm f.unscoped)
  | .keyword name => by
    show Follows _ _ (ofForm (.keyword name)) (ofForm (.keyword name))
    rw [ofForm]
    cases Primitive.ofKeyword? name with
    | some p => exact .ok _
    | none => exact .error _
  | .symbol s => .ok _
  | .string text => .error _
  | .integer n => .error _
  | .list [] => .error _
  | .list [first] => by cases first <;> exact .error _
  | .list [.keyword name, target] => by
    show Follows _ _ (ofForm (.list [.keyword name, target]))
      (ofForm (.list [.keyword name, target.unscoped]))
    rw [ofForm, ofForm]
    by_cases is_pointer : (name == "pointer") = true
    · rw [if_pos is_pointer, if_pos is_pointer]
      exact .map (ofForm_follows target) fun t => rfl
    · rw [if_neg is_pointer, if_neg is_pointer]
      exact .error _
  | .list [.symbol _, _] | .list [.string _, _] | .list [.integer _, _] | .list [.list _, _] =>
    .error _
  | .list (first :: second :: third :: rest) => by cases first <;> exact .error _

theorem typeArgument_follows (f : Form) :
    Unscopes ForeignType.unscoped (typeArgument f) (typeArgument f.unscoped) :=
  (ForeignType.ofForm_follows f).mapError fun _ => rfl

/-- Parts of which each follows, and keeps its name, follow as a list. -/
theorem distinctParts_follows {α α' : Type} {g : α → α'} {read : Form → Except ShapeFault α}
    {read' : Form → Except ShapeFault α'} {name : α → String} {name' : α' → String}
    (hread : ∀ f, Unscopes g (read f) (read' f.unscoped)) (hname : ∀ a, name' (g a) = name a)
    {repeated : String → ShapeFault} (hrepeated : ∀ n, (repeated n).unscoped = repeated n)
    (seen : List String) (forms : List Form) :
    Unscopes (List.map g) (distinctParts read name repeated seen forms)
      (distinctParts read' name' repeated seen (Form.unscopedAll forms)) := by
  induction forms generalizing seen with
  | nil => exact .ok []
  | cons f forms ih =>
    refine .bind (hread f) fun part => ?_
    rw [hname]
    refine .guard Iff.rfl (hrepeated _).symm ?_
    exact .bind (ih (name part :: seen)) fun others => .ok (part :: others)

/-! ## Options -/

namespace Options

/-- The options with no namespaces in their values. -/
def unscoped (o : Options) : Options :=
  ⟨o.pairs.map fun p => (p.1, p.2.unscoped)⟩

@[simp] theorem get?_unscoped (o : Options) (key : String) :
    o.unscoped.get? key = (o.get? key).map Form.unscoped := by
  obtain ⟨pairs⟩ := o
  unfold get? unscoped
  induction pairs with
  | nil => rfl
  | cons p pairs ih =>
    rw [List.map_cons, List.lookup_cons, List.lookup_cons]
    cases key == p.1 with
    | true => rfl
    | false => exact ih

@[simp] theorem has_unscoped (o : Options) (key : String) : o.unscoped.has key = o.has key := by
  simp [has]

theorem readFrom_follows (allowed : List String) (o : Options) (forms : List Form) :
    Unscopes unscoped (readFrom allowed o forms)
      (readFrom allowed o.unscoped (Form.unscopedAll forms)) := by
  -- the keys stay, so that they are unknown or repeated in both at once
  fun_induction readFrom allowed o forms with
  | case1 o => exact .ok o
  | case2 o key unknown =>
    rw [Form.unscopedAll, Form.unscoped, Form.unscopedAll, readFrom, if_pos unknown]
    exact .error _
  | case3 o key known repeated =>
    rw [Form.unscopedAll, Form.unscoped, Form.unscopedAll, readFrom, if_neg known, has_unscoped,
      if_pos repeated]
    exact .error _
  | case4 o key known first =>
    rw [Form.unscopedAll, Form.unscoped, Form.unscopedAll, readFrom, if_neg known, has_unscoped,
      if_neg first]
    exact .error _
  | case5 o key value rest unknown =>
    rw [Form.unscopedAll, Form.unscoped, Form.unscopedAll, readFrom, if_pos unknown]
    exact .error _
  | case6 o key value rest known repeated =>
    rw [Form.unscopedAll, Form.unscoped, Form.unscopedAll, readFrom, if_neg known, has_unscoped,
      if_pos repeated]
    exact .error _
  | case7 o key value rest known first ih =>
    have added : unscoped ⟨o.pairs ++ [(key, value)]⟩ =
        ⟨o.unscoped.pairs ++ [(key, value.unscoped)]⟩ := by
      simp [unscoped]
    rw [added] at ih
    rw [Form.unscopedAll, Form.unscoped, Form.unscopedAll, readFrom, if_neg known, has_unscoped,
      if_neg first]
    exact ih
  | case8 o found rest not_last not_pair =>
    cases found with
    | keyword key =>
      cases rest with
      | nil => exact (not_last key rfl rfl).elim
      | cons value rest => exact (not_pair key value rest rfl rfl).elim
    | _ => exact .error _

theorem read_follows (allowed : List String) (forms : List Form) :
    Unscopes unscoped (read allowed forms) (read allowed (Form.unscopedAll forms)) :=
  readFrom_follows allowed ⟨[]⟩ forms

theorem string_follows (o : Options) (key : String) :
    Unscopes id (o.string key) (o.unscoped.string key) := by
  unfold string
  rw [get?_unscoped]
  cases o.get? key with
  | none => exact .ok none
  | some f =>
    cases f with
    | string text => exact .ok (some text)
    | _ => exact .error _

/-- A truth value is the name of a word alone. -/
theorem flag_follows (o : Options) (key : String) :
    Unscopes id (o.flag key) (o.unscoped.flag key) := by
  unfold flag
  rw [get?_unscoped]
  cases o.get? key with
  | none => exact .ok false
  | some f =>
    cases f with
    | symbol s =>
      show Unscopes id _ (if s.name == "true" then .ok true else if s.name == "false" then .ok false
        else .error (.optionNotAFlag key (.symbol s.unscoped)))
      dsimp only
      split
      · exact .ok true
      · split
        · exact .ok false
        · exact .error _
    | _ => exact .error _

theorem word_follows (o : Options) (key : String) :
    Unscopes id (o.word key) (o.unscoped.word key) := by
  unfold word
  rw [get?_unscoped]
  cases o.get? key with
  | none => exact .ok none
  | some f =>
    cases f with
    | symbol s => exact .ok (some s.name)
    | keyword name => exact .ok (some name)
    | _ => exact .error _

end Options

/-- The options start at the same argument. -/
theorem splitAtOptions_unscoped (forms : List Form) :
    splitAtOptions (Form.unscopedAll forms) =
      (Form.unscopedAll (splitAtOptions forms).1, Form.unscopedAll (splitAtOptions forms).2) := by
  have same_kind : (fun f : Form => !f.isKeyword) ∘ Form.unscoped = fun f => !f.isKeyword := by
    funext f
    simp
  simp only [splitAtOptions, List.span_eq_takeWhile_dropWhile, Form.unscopedAll_eq_map,
    List.takeWhile_map, List.dropWhile_map, same_kind]

theorem leadingText_unscoped (forms : List Form) :
    leadingText (Form.unscopedAll forms) =
      ((leadingText forms).1, Form.unscopedAll (leadingText forms).2) := by
  cases forms with
  | nil => rfl
  | cons f forms => cases f <;> rfl

/-! ## Slots, members, heads and parameters -/

theorem elementCount_follows (field : String) (f? : Option Form) :
    Unscopes id (elementCount field f?) (elementCount field (f?.map Form.unscoped)) := by
  cases f? with
  | none => exact .ok _
  | some f =>
    show Unscopes id (elementCount field (some f)) (elementCount field (some f.unscoped))
    cases f with
    | symbol s => exact .ok _
    | string expression => exact .ok _
    | keyword name =>
      unfold elementCount
      dsimp only [Form.unscoped]
      split
      · exact .ok _
      · exact .error _
    | integer n =>
      unfold elementCount
      dsimp only [Form.unscoped]
      split
      · exact .error _
      · split
        · exact .ok _
        · exact .error _
    | list items => exact .error _

theorem slotArgument_follows (f : Form) :
    Unscopes Slot.unscoped (slotArgument f) (slotArgument f.unscoped) := by
  cases f with
  | list items =>
    rcases items with _ | ⟨name, _ | ⟨written, rest⟩⟩
    · exact .error _
    · exact .error _
    · cases written with
      | string field =>
        refine .bind (Options.read_follows ["type", "count"] rest) fun o => ?_
        rw [Options.get?_unscoped, Options.get?_unscoped]
        cases o.get? "type" with
        | none => exact .error _
        | some type =>
          refine .bind (elementCount_follows field _) fun count => ?_
          refine .bind (declaredName_follows _ name) fun name => ?_
          exact .bind (typeArgument_follows type) fun type => .ok (Slot.mk name field type count)
      | _ => exact .error _
  | _ => exact .error _

theorem memberArgument_follows (macros : Bool) (f : Form) :
    Unscopes id (memberArgument macros f) (memberArgument macros f.unscoped) := by
  cases f with
  | list items =>
    rcases items with _ | ⟨name, rest⟩
    · exact .error _
    · show Unscopes id (memberArgument macros (.list (name :: rest)))
        (memberArgument macros (.list (name.unscoped :: Form.unscopedAll rest)))
      unfold memberArgument
      dsimp only [Form.list?_list]
      rw [splitAtOptions_unscoped]
      obtain ⟨candidates, options⟩ := splitAtOptions rest
      dsimp only
      rw [Form.isEmpty_unscopedAll, Form.length_unscopedAll]
      refine .guard Iff.rfl rfl (.guard Iff.rfl rfl ?_)
      refine .bind (Options.read_follows _ options) fun o => ?_
      refine .bind (declaredName_follows _ name) fun name => ?_
      refine .bind (identifierArguments_follows _ candidates) fun candidates => ?_
      refine .bind (o.string_follows _) fun documentation => ?_
      exact .bind (o.flag_follows _) fun optional => .ok _
  | _ => exact .error _

theorem headingParts_follows (f : Form) :
    Unscopes (fun (native, name?, options) =>
        (native, Option.map Form.unscoped name?, Form.unscopedAll options))
      (headingParts f) (headingParts f.unscoped) := by
  cases f with
  | string native => exact .ok (native, none, [])
  | list items =>
    rcases items with _ | ⟨first, rest⟩
    · exact .error _
    · cases first with
      | string native =>
        rcases rest with _ | ⟨second, options⟩
        · exact .ok (native, none, [])
        · cases second with
          | symbol s => exact .ok (native, some (Form.symbol s), options)
          | keyword key => exact .ok (native, none, Form.keyword key :: options)
          | string text => exact .ok (native, none, Form.string text :: options)
          | integer n => exact .ok (native, none, Form.integer n :: options)
          | list items => exact .ok (native, none, Form.list items :: options)
      | _ => exact .error _
  | _ => exact .error _

/-- Whichever name of a wrapper is taken, it has no namespace. -/
theorem given_or_native_follows {β : Type} {given? : Option Form} {native : String}
    {f f' : String → Except ShapeFault β} (hf : ∀ name, Unscopes id (f name) (f' name)) :
    Unscopes id
      (match given? with
        | some form => declaredName Identifier.typeName form >>= f
        | none => declarable native native >>= f)
      (match given?.map Form.unscoped with
        | some form => declaredName Identifier.typeName form >>= f'
        | none => declarable native native >>= f') := by
  cases given? with
  | none => exact .bind (declarable_follows native native) hf
  | some form => exact .bind (declaredName_follows _ form) hf

theorem headingArgument_follows (f : Form) :
    Unscopes id (headingArgument f) (headingArgument f.unscoped) := by
  refine .bind (headingParts_follows f) fun (native, given?, options) => ?_
  refine .guard Iff.rfl rfl (given_or_native_follows fun name => ?_)
  refine .bind (Options.read_follows _ options) fun o => ?_
  refine .bind (o.word_follows _) fun word? => ?_
  dsimp only [id]
  -- the same convention is taken in both, or none in either
  have finished (convention : CallingConvention) : Unscopes id
      (o.string "documentation" >>= fun documentation =>
        pure (Heading.mk name native convention documentation))
      (o.unscoped.string "documentation" >>= fun documentation =>
        pure (Heading.mk name native convention documentation)) :=
    .bind (o.string_follows _) fun documentation => .ok _
  split
  · exact finished .c
  · exact finished .c
  · exact finished .system
  · exact .error _

theorem parameterArguments_follows (seen : List String) (forms : List Form) :
    Unscopes (List.map unscopedParameter) (parameterArguments seen forms)
      (parameterArguments seen (Form.unscopedAll forms)) := by
  fun_induction parameterArguments seen forms with
  | case1 seen => exact .ok []
  | case2 seen name type rest ih =>
    -- the name of a parameter and whether it has a value do not depend on namespaces
    rw [Form.unscopedAll, Form.unscoped, Form.unscopedAll, Form.unscopedAll, Form.unscopedAll,
      parameterArguments]
    refine .bind (declaredName_follows _ name) fun name' => ?_
    refine .guard Iff.rfl rfl ?_
    refine .bind (typeArgument_follows type) fun type' => ?_
    rw [ForeignType.isVoid_unscoped]
    refine .guard Iff.rfl rfl ?_
    exact .bind (ih name') fun others => .ok ((name', type') :: others)
  | case3 seen found rest not_pair =>
    cases found with
    | list items =>
      -- a list with another number of elements is no parameter
      rcases items with _ | ⟨first, _ | ⟨second, _ | ⟨third, others⟩⟩⟩
      · exact .error _
      · exact .error _
      · exact (not_pair first second rfl).elim
      · exact .error _
    | _ => exact .error _

/-! ## Shapes -/

theorem defineShape_follows (forms : List Form) :
    Unscopes Entry.unscoped (defineShape forms) (defineShape (Form.unscopedAll forms)) := by
  rcases forms with _ | ⟨name, _ | ⟨value, _ | ⟨third, rest⟩⟩⟩
  · exact .error _
  · show Unscopes _ (defineShape [name]) (defineShape [name.unscoped])
    unfold defineShape
    dsimp only
    rw [bareToken?_unscoped]
    split
    · exact .ok _
    · exact .error _
  · show Unscopes _ (defineShape [name, value]) (defineShape [name.unscoped, value.unscoped])
    unfold defineShape
    dsimp only
    rw [bareToken?_unscoped, bareToken?_unscoped]
    split
    · exact .error _
    · exact .error _
    · exact .ok _
  · exact .error _

theorem typedefShape_follows (forms : List Form) :
    Unscopes Entry.unscoped (typedefShape forms) (typedefShape (Form.unscopedAll forms)) := by
  rcases forms with _ | ⟨base, _ | ⟨name, _ | ⟨third, rest⟩⟩⟩
  · exact .error _
  · cases base <;> exact .error _
  · cases base with
    | string base =>
      cases name with
      | string name => exact .ok (Entry.typedef base name)
      | _ => exact .error _
    | _ => exact .error _
  · cases base with
    | string base => cases name <;> exact .error _
    | _ => exact .error _

theorem packagesShape_follows (forms : List Form) :
    Unscopes Entry.unscoped (packagesShape forms) (packagesShape (Form.unscopedAll forms)) := by
  unfold packagesShape
  rw [splitAtOptions_unscoped]
  obtain ⟨names, options⟩ := splitAtOptions forms
  dsimp only
  rw [Form.isEmpty_unscopedAll]
  refine .guard Iff.rfl rfl ?_
  refine .bind (stringArguments_follows _ names) fun names => ?_
  refine .bind (Options.read_follows _ options) fun o => ?_
  exact .bind (o.flag_follows _) fun optional => .ok (Entry.packages names optional)

theorem namespaceShape_follows (forms : List Form) :
    Unscopes Entry.unscoped (namespaceShape forms) (namespaceShape (Form.unscopedAll forms)) := by
  rcases forms with _ | ⟨name, _ | ⟨second, rest⟩⟩
  · exact .error _
  · exact .map (declaredName_follows _ name) fun _ => rfl
  · exact .error _

theorem constantShape_follows (forms : List Form) :
    Unscopes Entry.unscoped (constantShape forms) (constantShape (Form.unscopedAll forms)) := by
  rcases forms with _ | ⟨head, rest⟩
  · exact .error _
  · cases head with
    | list items =>
      rcases items with _ | ⟨name, candidates⟩
      · exact .error _
      · refine .bind (declaredName_follows _ name) fun name => ?_
        dsimp only
        rw [Form.isEmpty_unscopedAll]
        refine .guard Iff.rfl rfl ?_
        refine .bind (identifierArguments_follows _ candidates) fun candidates => ?_
        refine .bind (Options.read_follows _ rest) fun o => ?_
        refine .bind (o.word_follows _) fun word? => ?_
        dsimp only [id]
        -- the same type is taken in both, or none in either
        have finished (type : NumberType) : Unscopes Entry.unscoped
            (o.string "documentation" >>= fun documentation => o.flag "optional" >>= fun optional =>
              pure (.constant ⟨name, candidates, documentation, optional, type⟩))
            (o.unscoped.string "documentation" >>= fun documentation =>
              o.unscoped.flag "optional" >>= fun optional =>
                pure (.constant ⟨name, candidates, documentation, optional, type⟩)) := by
          refine .bind (o.string_follows _) fun documentation => ?_
          exact .bind (o.flag_follows _) fun optional => .ok (Entry.constant _)
        split
        · exact finished .integer
        · exact finished .integer
        · exact finished .double
        · exact .error _
    | _ => exact .error _

theorem ctypeShape_follows (forms : List Form) :
    Unscopes Entry.unscoped (ctypeShape forms) (ctypeShape (Form.unscopedAll forms)) := by
  rcases forms with _ | ⟨name, _ | ⟨written, rest⟩⟩
  · exact .error _
  · exact .error _
  · cases written with
    | string native =>
      refine .bind (Options.read_follows _ rest) fun o => ?_
      refine .bind (declaredName_follows _ name) fun name => ?_
      exact .bind (o.string_follows _) fun documentation =>
        .ok (Entry.intAlias ⟨name, native, documentation⟩)
    | _ => exact .error _

theorem recordShape_follows (kind : Layout) (forms : List Form) :
    Unscopes Entry.unscoped (recordShape kind forms)
      (recordShape kind (Form.unscopedAll forms)) := by
  rcases forms with _ | ⟨name, _ | ⟨written, rest⟩⟩
  · exact .error _
  · exact .error _
  · refine .bind (declaredName_follows _ name) fun name => ?_
    cases written with
    | string native =>
      dsimp only [Form.unscoped, Form.string?]
      rw [leadingText_unscoped]
      obtain ⟨documentation, slots⟩ := leadingText rest
      refine .bind (distinctParts_follows slotArgument_follows (fun _ => rfl) (fun _ => rfl) []
        slots) fun slots => ?_
      exact .ok (Entry.record ⟨kind, name, native, documentation, slots⟩)
    | _ => exact .error _

theorem enumHead_follows (f : Form) :
    Unscopes (fun (name, options) => (name.unscoped, Form.unscopedAll options)) (enumHead f)
      (enumHead f.unscoped) := by
  cases f with
  | list items =>
    rcases items with _ | ⟨name, options⟩
    · exact .error _
    · exact .ok (name, options)
  | symbol s => exact .ok (Form.symbol s, [])
  | keyword key => exact .ok (Form.keyword key, [])
  | string text => exact .ok (Form.string text, [])
  | integer n => exact .ok (Form.integer n, [])

/-- A base type keeps its namespace if it is given, and is a primitive type if not. -/
theorem base_follows {β β' : Type} {g : β → β'} {type? : Option Form}
    {f : ForeignType → Except ShapeFault β} {f' : ForeignType → Except ShapeFault β'}
    (hf : ∀ t, Unscopes g (f t) (f' t.unscoped)) :
    Unscopes g
      (match type? with
        | some type => typeArgument type >>= f
        | none => pure (.primitive .int) >>= f)
      (match type?.map Form.unscoped with
        | some type => typeArgument type >>= f'
        | none => pure (.primitive .int) >>= f') := by
  cases type? with
  | none => exact hf (.primitive .int)
  | some type => exact .bind (typeArgument_follows type) hf

theorem enumShape_follows (macros : Bool) (forms : List Form) :
    Unscopes Entry.unscoped (enumShape macros forms)
      (enumShape macros (Form.unscopedAll forms)) := by
  rcases forms with _ | ⟨head, rest⟩
  · exact .error _
  · refine .bind (enumHead_follows head) fun (name, options) => ?_
    refine .bind (Options.read_follows _ options) fun o => ?_
    dsimp only
    rw [leadingText_unscoped, Options.get?_unscoped]
    obtain ⟨documentation, members⟩ := leadingText rest
    refine base_follows fun base => ?_
    rw [Form.isEmpty_unscopedAll]
    refine .guard Iff.rfl rfl ?_
    refine .bind (distinctParts_follows (memberArgument_follows macros) (fun _ => rfl)
      (fun _ => rfl) [] members) fun members => ?_
    refine .bind (declaredName_follows _ name) fun name => ?_
    refine .bind (o.flag_follows _) fun defineConstants => ?_
    rw [List.map_id]
    exact .ok (Entry.enumeration _)

theorem wrapperShape_follows (forms : List Form) :
    Unscopes Entry.unscoped (wrapperShape forms) (wrapperShape (Form.unscopedAll forms)) := by
  rcases forms with _ | ⟨head, _ | ⟨result, rest⟩⟩
  · exact .error _
  · exact .error _
  · refine .bind (headingArgument_follows head) fun head => ?_
    refine .bind (typeArgument_follows result) fun result => ?_
    exact .bind (parameterArguments_follows [] rest) fun parameters => .ok (Entry.wrapper _)

theorem wrapperWithBodyShape_follows (forms : List Form) :
    Unscopes Entry.unscoped (wrapperWithBodyShape forms)
      (wrapperWithBodyShape (Form.unscopedAll forms)) := by
  rcases forms with _ | ⟨head, _ | ⟨result, _ | ⟨third, body⟩⟩⟩
  · exact .error _
  · exact .error _
  · exact .error _
  · cases third with
    | list params =>
      show Unscopes _ (wrapperWithBodyShape (head :: result :: .list params :: body))
        (wrapperWithBodyShape (head.unscoped :: result.unscoped ::
          .list (Form.unscopedAll params) :: Form.unscopedAll body))
      unfold wrapperWithBodyShape
      dsimp only
      rw [Form.isEmpty_unscopedAll]
      refine .guard Iff.rfl rfl ?_
      refine .bind (headingArgument_follows head) fun head => ?_
      refine .bind (typeArgument_follows result) fun result => ?_
      refine .bind (parameterArguments_follows [] params) fun parameters => ?_
      exact .bind (stringArguments_follows _ body) fun body => .ok (Entry.wrapper _)
    | _ => exact .error _

/-- The shape of every kind takes a symbol for its name, except in types. -/
theorem shape_follows (k : Kind) (forms : List Form) :
    Unscopes Entry.unscoped (k.shape forms) (k.shape (Form.unscopedAll forms)) := by
  cases k with
  | verbatim => exact .map (stringList_follows _ forms) fun _ => rfl
  | header => exact .map (stringList_follows _ forms) fun _ => rfl
  | define => exact defineShape_follows forms
  | typedef => exact typedefShape_follows forms
  | flag => exact .map (stringList_follows _ forms) fun _ => rfl
  | compilerFlags => exact .map (stringList_follows _ forms) fun _ => rfl
  | packageFlags => exact packagesShape_follows forms
  | inNamespace => exact namespaceShape_follows forms
  | constant => exact constantShape_follows forms
  | ctype => exact ctypeShape_follows forms
  | struct => exact recordShape_follows .struct forms
  | union => exact recordShape_follows .union forms
  | enum => exact enumShape_follows false forms
  | constantEnum => exact enumShape_follows true forms
  | wrapper => exact wrapperShape_follows forms
  | wrapperWithBody => exact wrapperWithBodyShape_follows forms

/-! ## Directives -/

namespace Dialect

theorem interpret_follows (mode : Mode) (d : Directive) :
    Follows InterpretError.unscoped Placed.unscoped ((ofMode mode).interpret d)
      ((ofMode mode).interpret d.unscoped) := by
  unfold interpret
  dsimp only [Directive.unscoped]
  cases hkind : Kind.ofTag? d.tag with
  | none => exact .error _
  | some k =>
    rw [Option.bind_some, shape?_ofMode]
    by_cases understood : k ∈ mode.kinds
    · rw [if_pos understood]
      have shaped := shape_follows k d.arguments
      dsimp only [Option.map_some]
      rw [shaped]
      cases k.shape d.arguments with
      | ok entry => exact .ok _
      | error fault => exact .error (InterpretError.shape _)
    · rw [if_neg understood]
      exact .error _

/-- **Namespaces matter to types alone.** Two directives that differ only in the namespaces of the
symbols in their arguments, at any depth, are both understood or both refused. Where they are
understood the entries differ only in the namespaces of the types that they refer to. Where they
are refused it is for the same kind of fault, with the same tag and on the same line. -/
theorem interpret_unscoped {mode : Mode} {d d' : Directive} (h : d.unscoped = d'.unscoped) :
    (∃ p p', (ofMode mode).interpret d = .ok p ∧ (ofMode mode).interpret d' = .ok p' ∧
        p.unscoped = p'.unscoped) ∨
      (∃ e e', (ofMode mode).interpret d = .error e ∧ (ofMode mode).interpret d' = .error e' ∧
        e.unscoped = e'.unscoped) := by
  have first := interpret_follows mode d
  have second := interpret_follows mode d'
  rw [← h] at second
  unfold Follows at first second
  rw [first] at second
  cases hd : (ofMode mode).interpret d with
  | ok p =>
    cases hd' : (ofMode mode).interpret d' with
    | ok p' =>
      rw [hd, hd'] at second
      exact .inl ⟨p, p', rfl, rfl, Except.ok.inj second⟩
    | error e' =>
      rw [hd, hd'] at second
      cases second
  | error e =>
    cases hd' : (ofMode mode).interpret d' with
    | ok p' =>
      rw [hd, hd'] at second
      cases second
    | error e' =>
      rw [hd, hd'] at second
      exact .inr ⟨e, e', rfl, rfl, Except.error.inj second⟩

/-- A record with a slot of a named type. All of its words stand in the given namespace. -/
def chest (scope : String) : Directive :=
  ⟨"cstruct", [.symbol ⟨scope, "chest"⟩, .string "struct chest", .list [.symbol ⟨scope, "lids"⟩,
    .string "lids", .keyword "type", .list [.keyword "pointer", .symbol ⟨scope, "lid"⟩],
    .keyword "count", .symbol ⟨scope, "LIDS"⟩]], 1⟩

/-- What the record is understood as, in the given namespace. -/
def chestEntry (scope : String) : Placed :=
  ⟨.struct, 1, .record ⟨.struct, "chest", "struct chest", none,
    [⟨"LIDS", "lids", .pointer (.named ⟨scope, "lid"⟩), .named "LIDS"⟩]⟩⟩

/-- The record in one of two namespaces: the type of its slot is another one, the count is not. -/
theorem interpret_unscoped_chest :
    (chest "a").unscoped = (chest "b").unscoped ∧
      (ofMode .probe).interpret (chest "a") = .ok (chestEntry "a") ∧
      (ofMode .probe).interpret (chest "b") = .ok (chestEntry "b") ∧
      chestEntry "a" ≠ chestEntry "b" ∧ (chestEntry "a").unscoped = (chestEntry "b").unscoped := by
  have alike : (chest "a").unscoped = (chest "b").unscoped := rfl
  have in_a : (ofMode .probe).interpret (chest "a") = .ok (chestEntry "a") := rfl
  have in_b : (ofMode .probe).interpret (chest "b") = .ok (chestEntry "b") := rfl
  refine ⟨alike, in_a, in_b, by decide, ?_⟩
  obtain ⟨p, p', first, second, same⟩ | ⟨e, e', refused, -⟩ :=
    @interpret_unscoped .probe _ _ alike
  · cases in_a.symm.trans first
    cases in_b.symm.trans second
    exact same
  · cases in_a.symm.trans refused

end Dialect

end ForeignBindings
