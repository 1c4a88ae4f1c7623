import ForeignBindings.Entry.Dialect
import ForeignBindings.Proofs.Options

/-!
# What shapes establish

Every entry that a shape accepts is valid: its names can be declared, and where C text will test or
name macros there is at least one, each of them an identifier.

* `Constant.Valid`, `Enumeration.Valid`, `Record.Valid` and `Wrapper.Valid` say so of one item, with
  `Member.Valid` and `Slot.Valid` for its parts.
* `constantShape_spec`, `enumShape_spec`, `recordShape_spec`, `wrapperShape_spec` and
  `wrapperWithBodyShape_spec` are the shapes that establish them.
* `mem_kinds_of_shape` says which kinds of directives an entry can come from.
-/

namespace ForeignBindings

open Spec Checks

/-! ## Names and lists of names -/

/-- The bindings can declare the name. -/
def Identifier.IsDeclarable (name : String) : Prop :=
  isIdentifier name = true ∧ isKeyword name = false

theorem declarable_of_eq_ok {name written result : String}
    (h : declarable name written = .ok result) : Identifier.IsDeclarable result := by
  unfold declarable at h
  split at h
  · cases h
  · rename_i hident
    split at h
    · cases h
    · rename_i hkeyword
      cases h
      exact ⟨by simpa using hident, by simpa using hkeyword⟩

theorem declaredName_of_eq_ok {rule : String → String} {form : Form} {name : String}
    (h : declaredName rule form = .ok name) : Identifier.IsDeclarable name := by
  unfold declaredName at h
  split at h
  · exact declarable_of_eq_ok h
  · cases h

theorem length_stringArguments {what : Listed} {forms : List Form} {texts : List String}
    (h : stringArguments what forms = .ok texts) : texts.length = forms.length := by
  have same := congrArg List.length (mapM_eq_ok.1 h)
  simpa using same.symm

/-- As many identifiers as arguments. -/
theorem identifierArguments_of_eq_ok {what : Listed} {forms : List Form} {names : List String}
    (h : identifierArguments what forms = .ok names) :
    names.length = forms.length ∧ ∀ n ∈ names, Identifier.isIdentifier n = true := by
  obtain ⟨texts, htexts, h⟩ := bind_eq_ok.1 h
  split at h
  · cases h
  · rename_i none_bad
    cases h
    refine ⟨length_stringArguments htexts, ?_⟩
    intro n hn
    simpa using List.find?_eq_none.1 none_bad n hn

theorem ne_nil_of_length_eq {α β : Type} {xs : List α} {ys : List β} (h : xs.length = ys.length)
    (hy : ¬ ys.isEmpty = true) : xs ≠ [] := by
  rintro rfl
  cases ys with
  | nil => exact hy rfl
  | cons y ys => cases h

theorem stringList_ne_nil {what : Listed} {forms : List Form} {texts : List String}
    (h : stringList what forms = .ok texts) : texts ≠ [] := by
  unfold stringList at h
  split at h
  · cases h
  · rename_i forms_ne
    exact ne_nil_of_length_eq (length_stringArguments h) forms_ne

/-! ## Constants -/

/-- A constant that a shape accepts. -/
structure Constant.Valid (c : Constant) : Prop where
  declarable : Identifier.IsDeclarable c.name
  candidates_ne_nil : c.candidates ≠ []
  candidates_identifiers : ∀ n ∈ c.candidates, Identifier.isIdentifier n = true

theorem constantShape_spec {forms : List Form} {entry : Entry}
    (h : constantShape forms = .ok entry) : ∃ c, entry = .constant c ∧ c.Valid := by
  unfold constantShape at h
  split at h
  · cases h
  · cases h
  · rename_i name candidates rest
    obtain ⟨name', hname, h⟩ := bind_eq_ok.1 h
    obtain ⟨hne, h⟩ := guard_eq_ok.1 h
    obtain ⟨candidates', hcandidates, h⟩ := bind_eq_ok.1 h
    obtain ⟨options, -, h⟩ := bind_eq_ok.1 h
    obtain ⟨type?, -, h⟩ := bind_eq_ok.1 h
    obtain ⟨hlength, hidentifiers⟩ := identifierArguments_of_eq_ok hcandidates
    -- the type makes no difference to the rest of the checks
    split at h <;>
    · obtain ⟨type, -, h⟩ := bind_eq_ok.1 h
      obtain ⟨documentation, -, h⟩ := bind_eq_ok.1 h
      obtain ⟨optional, -, h⟩ := bind_eq_ok.1 h
      cases h
      exact ⟨_, rfl, declaredName_of_eq_ok hname, ne_nil_of_length_eq hlength hne, hidentifiers⟩
  · cases h

/-! ## Enumerations -/

/-- A member that a shape accepts, among macros or among plain enumerators. -/
structure Member.Valid (macros : Bool) (m : Member) : Prop where
  declarable : Identifier.IsDeclarable m.name
  candidates_ne_nil : m.candidates ≠ []
  candidates_identifiers : ∀ n ∈ m.candidates, Identifier.isIdentifier n = true
  /-- A plain enumerator has one native name. -/
  single : macros = false → ∃ native, m.candidates = [native]

theorem member_valid {macros : Bool} {form : Form} {m : Member}
    (h : memberArgument macros form = .ok m) : m.Valid macros := by
  unfold memberArgument at h
  split at h
  · rename_i name rest hlist
    cases hsplit : splitAtOptions rest with
    | mk written options =>
      rw [hsplit] at h
      obtain ⟨hne, h⟩ := guard_eq_ok.1 h
      obtain ⟨hsingle, h⟩ := guard_eq_ok.1 h
      obtain ⟨options', -, h⟩ := bind_eq_ok.1 h
      obtain ⟨name', hname, h⟩ := bind_eq_ok.1 h
      obtain ⟨candidates, hcandidates, h⟩ := bind_eq_ok.1 h
      obtain ⟨documentation, -, h⟩ := bind_eq_ok.1 h
      obtain ⟨optional, -, h⟩ := bind_eq_ok.1 h
      cases h
      obtain ⟨hlength, hidentifiers⟩ := identifierArguments_of_eq_ok hcandidates
      have candidates_ne : candidates ≠ [] := ne_nil_of_length_eq hlength hne
      refine ⟨declaredName_of_eq_ok hname, candidates_ne, hidentifiers, ?_⟩
      -- for plain enumerators the shape refuses a second name
      rintro rfl
      have at_least_one := List.length_pos_iff.2 candidates_ne
      have at_most_one : ¬ written.length > 1 := by simpa using hsingle
      have exactly_one : candidates.length = 1 := by omega
      exact List.length_eq_one_iff.1 exactly_one
  · cases h

/-- Parts that must have different names do, and they are what has been read. -/
theorem distinctParts_of_eq_ok {α : Type} {read : Form → Except ShapeFault α} {name : α → String}
    {repeated : String → ShapeFault} {seen : List String} {forms : List Form} {parts : List α}
    (h : distinctParts read name repeated seen forms = .ok parts) :
    forms.map read = parts.map .ok ∧
      (∀ p ∈ parts, name p ∉ seen) ∧ (parts.map name).Nodup := by
  induction forms generalizing seen parts with
  | nil =>
    cases h
    simp
  | cons form rest ih =>
    obtain ⟨part, hpart, h⟩ := bind_eq_ok.1 h
    obtain ⟨hfresh, h⟩ := guard_eq_ok.1 h
    obtain ⟨others, hothers, h⟩ := bind_eq_ok.1 h
    cases h
    obtain ⟨hread, hunseen, hdistinct⟩ := ih hothers
    refine ⟨?_, ?_, ?_⟩
    · rw [List.map_cons, List.map_cons, hpart, hread]
    · intro p hp
      rcases List.mem_cons.1 hp with rfl | hp
      · simpa using hfresh
      · exact fun hseen => hunseen p hp (List.mem_cons_of_mem _ hseen)
    · -- the rest was read with the first name among those seen
      rw [List.map_cons, List.nodup_cons]
      refine ⟨?_, hdistinct⟩
      intro hm
      obtain ⟨p, hp, heq⟩ := List.mem_map.1 hm
      exact hunseen p hp (heq ▸ List.mem_cons_self ..)

/-- An enumeration that a shape accepts. -/
structure Enumeration.Valid (macros : Bool) (e : Enumeration) : Prop where
  declarable : Identifier.IsDeclarable e.name
  macroMembers_eq : e.macroMembers = macros
  /-- Only members that are macros can be declared as constants too. -/
  macros_of_defineConstants : e.defineConstants = true → macros = true
  members_valid : ∀ m ∈ e.members, m.Valid macros
  members_distinct : (e.members.map Member.name).Nodup

theorem enumShape_spec {macros : Bool} {forms : List Form} {entry : Entry}
    (h : enumShape macros forms = .ok entry) : ∃ e, entry = .enumeration e ∧ e.Valid macros := by
  unfold enumShape at h
  split at h
  · cases h
  · rename_i head rest
    obtain ⟨⟨name, written⟩, -, h⟩ := bind_eq_ok.1 h
    obtain ⟨options, hoptions, h⟩ := bind_eq_ok.1 h
    obtain ⟨documentation, parts⟩ := leadingText rest
    dsimp only at h
    -- a base type that is given and the one taken otherwise go the same way
    split at h <;>
    · obtain ⟨base, -, h⟩ := bind_eq_ok.1 h
      obtain ⟨-, h⟩ := guard_eq_ok.1 h
      obtain ⟨members, hmembers, h⟩ := bind_eq_ok.1 h
      obtain ⟨name', hname, h⟩ := bind_eq_ok.1 h
      obtain ⟨defineConstants, hflag, h⟩ := bind_eq_ok.1 h
      cases h
      obtain ⟨hread, -, hdistinct⟩ := distinctParts_of_eq_ok hmembers
      refine ⟨_, rfl, declaredName_of_eq_ok hname, rfl, ?_, ?_, hdistinct⟩
      · -- plain enumerators do not have the option that asks for constants
        rintro rfl
        cases macros with
        | true => rfl
        | false =>
          rw [Options.flag_of_not_allowed hoptions (by decide)] at hflag
          cases hflag
      · intro m hm
        obtain ⟨form, -, hform⟩ := exists_of_mem_results hread hm
        exact member_valid hform

/-! ## Records -/

/-- A slot that a shape accepts. -/
structure Slot.Valid (s : Slot) : Prop where
  declarable : Identifier.IsDeclarable s.name
  /-- A count that is given as a number is positive and fits a word. -/
  fixed_bounds : ∀ n, s.count = .fixed n → 1 ≤ n ∧ n < Word.count

theorem fixed_bounds_of_elementCount {native : String} {form? : Option Form} {n : Nat}
    (h : elementCount native form? = .ok (.fixed n)) : 1 ≤ n ∧ n < Word.count := by
  unfold elementCount at h
  split at h
  · -- no count stands for one element
    cases h
    decide
  · cases h
  · cases h
  · split at h <;> cases h
  · rename_i written
    split at h
    · cases h
    · rename_i positive
      split at h
      · rename_i in_range
        cases h
        omega
      · cases h
  · cases h

theorem slot_valid {form : Form} {s : Slot} (h : slotArgument form = .ok s) : s.Valid := by
  unfold slotArgument at h
  split at h
  · split at h
    · obtain ⟨options, -, h⟩ := bind_eq_ok.1 h
      split at h
      · obtain ⟨count, hcount, h⟩ := bind_eq_ok.1 h
        obtain ⟨name, hname, h⟩ := bind_eq_ok.1 h
        obtain ⟨type, -, h⟩ := bind_eq_ok.1 h
        cases h
        refine ⟨declaredName_of_eq_ok hname, ?_⟩
        rintro n rfl
        exact fixed_bounds_of_elementCount hcount
      · cases h
    · cases h
  · cases h

/-- A record that a shape accepts. -/
structure Record.Valid (r : Record) : Prop where
  declarable : Identifier.IsDeclarable r.name
  slots_valid : ∀ s ∈ r.slots, s.Valid
  slots_distinct : (r.slots.map Slot.name).Nodup

theorem recordShape_spec {kind : Layout} {forms : List Form} {entry : Entry}
    (h : recordShape kind forms = .ok entry) : ∃ r, entry = .record r ∧ r.Valid := by
  unfold recordShape at h
  split at h
  · rename_i name native rest
    obtain ⟨name', hname, h⟩ := bind_eq_ok.1 h
    split at h
    · obtain ⟨documentation, parts⟩ := leadingText rest
      obtain ⟨slots, hslots, h⟩ := bind_eq_ok.1 h
      cases h
      obtain ⟨hread, -, hdistinct⟩ := distinctParts_of_eq_ok hslots
      refine ⟨_, rfl, declaredName_of_eq_ok hname, ?_, hdistinct⟩
      intro s hs
      obtain ⟨form, -, hform⟩ := exists_of_mem_results hread hs
      exact slot_valid hform
    · cases h
  · cases h

/-! ## Wrappers -/

/-- A wrapper that a shape accepts. -/
structure Wrapper.Valid (w : Wrapper) : Prop where
  declarable : Identifier.IsDeclarable w.name
  native_identifier : Identifier.isIdentifier w.native = true
  parameters_declarable : ∀ p ∈ w.parameters, Identifier.IsDeclarable p.1
  parameters_distinct : (w.parameters.map Prod.fst).Nodup
  parameters_not_void : ∀ p ∈ w.parameters, p.2.isVoid = false
  statements_ne_nil : ∀ lines, w.body = .statements lines → lines ≠ []

/-- The name of a wrapper is the one given, or else that of the native function. Either is
checked. -/
theorem name_of_given_or_native {α : Type} {given? : Option Form} {native : String}
    {f : String → Except ShapeFault α} {a : α}
    (h : (match given? with
      | some form => declaredName Identifier.typeName form >>= f
      | none => declarable native native >>= f) = .ok a) :
    ∃ name, Identifier.IsDeclarable name ∧ f name = .ok a := by
  cases given? with
  | some form =>
    obtain ⟨name, hname, h⟩ := bind_eq_ok.1 h
    exact ⟨name, declaredName_of_eq_ok hname, h⟩
  | none =>
    obtain ⟨name, hname, h⟩ := bind_eq_ok.1 h
    exact ⟨name, declarable_of_eq_ok hname, h⟩

theorem heading_valid {form : Form} {head : Heading} (h : headingArgument form = .ok head) :
    Identifier.IsDeclarable head.name ∧ Identifier.isIdentifier head.native = true := by
  obtain ⟨⟨native, given?, written⟩, -, h⟩ := bind_eq_ok.1 h
  obtain ⟨identifier, h⟩ := guard_eq_ok.1 h
  obtain ⟨name, declarable, h⟩ := name_of_given_or_native h
  obtain ⟨options, -, h⟩ := bind_eq_ok.1 h
  obtain ⟨word?, -, h⟩ := bind_eq_ok.1 h
  -- the convention makes no difference to the names
  split at h <;>
  · obtain ⟨convention, -, h⟩ := bind_eq_ok.1 h
    obtain ⟨documentation, -, h⟩ := bind_eq_ok.1 h
    cases h
    exact ⟨declarable, by simpa using identifier⟩

/-- Parameters can be declared, have no name twice nor one that has been seen, and each has a
value. -/
theorem parameters_valid {seen : List String} {forms : List Form}
    {parameters : List (String × ForeignType)}
    (h : parameterArguments seen forms = .ok parameters) :
    (∀ p ∈ parameters, Identifier.IsDeclarable p.1 ∧ p.2.isVoid = false ∧ p.1 ∉ seen) ∧
      (parameters.map Prod.fst).Nodup := by
  fun_induction parameterArguments seen forms generalizing parameters with
  | case1 seen =>
    cases h
    simp
  | case2 seen name type rest ih =>
    obtain ⟨name', hname, h⟩ := bind_eq_ok.1 h
    obtain ⟨hfresh, h⟩ := guard_eq_ok.1 h
    obtain ⟨type', -, h⟩ := bind_eq_ok.1 h
    obtain ⟨hvalue, h⟩ := guard_eq_ok.1 h
    obtain ⟨others, hothers, h⟩ := bind_eq_ok.1 h
    cases h
    obtain ⟨hvalid, hdistinct⟩ := ih name' hothers
    constructor
    · intro p hp
      rcases List.mem_cons.1 hp with rfl | hp
      · exact ⟨declaredName_of_eq_ok hname, by simpa using hvalue, by simpa using hfresh⟩
      · obtain ⟨declarable, value, unseen⟩ := hvalid p hp
        exact ⟨declarable, value, fun hseen => unseen (List.mem_cons_of_mem _ hseen)⟩
    · -- the rest was read with the first name among those seen
      rw [List.map_cons, List.nodup_cons]
      refine ⟨?_, hdistinct⟩
      intro hm
      obtain ⟨p, hp, heq⟩ := List.mem_map.1 hm
      exact (hvalid p hp).2.2 (heq ▸ List.mem_cons_self ..)
  | case3 => cases h

theorem wrapperShape_spec {forms : List Form} {entry : Entry} (h : wrapperShape forms = .ok entry) :
    ∃ w, entry = .wrapper w ∧ w.Valid := by
  unfold wrapperShape at h
  split at h
  · obtain ⟨head, hhead, h⟩ := bind_eq_ok.1 h
    obtain ⟨result, -, h⟩ := bind_eq_ok.1 h
    obtain ⟨parameters, hparameters, h⟩ := bind_eq_ok.1 h
    cases h
    obtain ⟨declarable, identifier⟩ := heading_valid hhead
    obtain ⟨hvalid, hdistinct⟩ := parameters_valid hparameters
    exact ⟨_, rfl, declarable, identifier, fun p hp => (hvalid p hp).1, hdistinct,
      fun p hp => (hvalid p hp).2.1, nofun⟩
  · cases h

theorem wrapperWithBodyShape_spec {forms : List Form} {entry : Entry}
    (h : wrapperWithBodyShape forms = .ok entry) : ∃ w, entry = .wrapper w ∧ w.Valid := by
  unfold wrapperWithBodyShape at h
  split at h
  · obtain ⟨statements_ne, h⟩ := guard_eq_ok.1 h
    obtain ⟨head, hhead, h⟩ := bind_eq_ok.1 h
    obtain ⟨result, -, h⟩ := bind_eq_ok.1 h
    obtain ⟨parameters, hparameters, h⟩ := bind_eq_ok.1 h
    obtain ⟨body, hbody, h⟩ := bind_eq_ok.1 h
    cases h
    obtain ⟨declarable, identifier⟩ := heading_valid hhead
    obtain ⟨hvalid, hdistinct⟩ := parameters_valid hparameters
    refine ⟨_, rfl, declarable, identifier, fun p hp => (hvalid p hp).1, hdistinct,
      fun p hp => (hvalid p hp).2.1, ?_⟩
    rintro lines hlines
    cases hlines
    exact ne_nil_of_length_eq (length_stringArguments hbody) statements_ne
  · cases h

/-! ## Kinds of entries -/

/-- The kinds of directives that such an entry comes from. -/
def Entry.kinds : Entry → List Kind
  | .verbatim _ => [.verbatim]
  | .headers _ => [.header]
  | .define .. => [.define]
  | .typedef .. => [.typedef]
  | .flags _ => [.flag, .compilerFlags]
  | .packages .. => [.packageFlags]
  | .inNamespace _ => [.inNamespace]
  | .constant _ => [.constant]
  | .intAlias _ => [.ctype]
  | .record _ => [.struct, .union]
  | .enumeration _ => [.enum, .constantEnum]
  | .wrapper _ => [.wrapper, .wrapperWithBody]

theorem defineShape_spec {forms : List Form} {entry : Entry} (h : defineShape forms = .ok entry) :
    ∃ name value, entry = .define name value := by
  unfold defineShape at h
  split at h
  · split at h
    · cases h; exact ⟨_, _, rfl⟩
    · cases h
  · split at h
    · cases h
    · cases h
    · cases h; exact ⟨_, _, rfl⟩
  · cases h

theorem typedefShape_spec {forms : List Form} {entry : Entry} (h : typedefShape forms = .ok entry) :
    ∃ base name, entry = .typedef base name := by
  unfold typedefShape at h
  split at h
  · cases h; exact ⟨_, _, rfl⟩
  · cases h

theorem packagesShape_spec {forms : List Form} {entry : Entry}
    (h : packagesShape forms = .ok entry) :
    ∃ names optional, entry = .packages names optional ∧ names ≠ [] := by
  -- no check of the names or the options gives another entry
  unfold packagesShape at h
  obtain ⟨names, options⟩ := splitAtOptions forms
  obtain ⟨names_ne, h⟩ := guard_eq_ok.1 h
  obtain ⟨names', hnames, h⟩ := bind_eq_ok.1 h
  obtain ⟨options', -, h⟩ := bind_eq_ok.1 h
  obtain ⟨optional, -, h⟩ := bind_eq_ok.1 h
  cases h
  exact ⟨_, _, rfl, ne_nil_of_length_eq (length_stringArguments hnames) names_ne⟩

theorem namespaceShape_spec {forms : List Form} {entry : Entry}
    (h : namespaceShape forms = .ok entry) :
    ∃ s, forms = [.symbol s] ∧ entry = .inNamespace (Identifier.typeName s.name) ∧
      Identifier.IsDeclarable (Identifier.typeName s.name) := by
  unfold namespaceShape at h
  split at h
  · rename_i form
    obtain ⟨name, hname, rfl⟩ := map_eq_ok.1 h
    have hdeclarable := declaredName_of_eq_ok hname
    -- only a symbol has a name, and its scope makes no difference to it
    cases form with
    | symbol s =>
      have name_eq : name = Identifier.typeName s.name := by
        simp only [declaredName, Form.symbol?, declarable] at hname
        split at hname
        · cases hname
        · split at hname
          · cases hname
          · cases hname
            rfl
      subst name_eq
      exact ⟨s, rfl, rfl, hdeclarable⟩
    | keyword name => cases hname
    | string text => cases hname
    | integer n => cases hname
    | list items => cases hname
  · cases h

theorem ctypeShape_spec {forms : List Form} {entry : Entry} (h : ctypeShape forms = .ok entry) :
    ∃ a, entry = .intAlias a ∧ Identifier.IsDeclarable a.name := by
  unfold ctypeShape at h
  split at h
  · rename_i name native rest
    split at h
    · obtain ⟨options, -, h⟩ := bind_eq_ok.1 h
      obtain ⟨name', hname, h⟩ := bind_eq_ok.1 h
      obtain ⟨documentation, -, h⟩ := bind_eq_ok.1 h
      cases h
      exact ⟨_, rfl, declaredName_of_eq_ok hname⟩
    · cases h
  · cases h

/-- An entry comes from a directive of one of its kinds. -/
theorem mem_kinds_of_shape {k : Kind} {forms : List Form} {entry : Entry}
    (h : k.shape forms = .ok entry) : k ∈ entry.kinds := by
  -- each kind has one shape, and each shape gives entries of one form
  cases k with
  | verbatim | header | flag | compilerFlags =>
    obtain ⟨texts, -, rfl⟩ := map_eq_ok.1 h
    simp [Entry.kinds]
  | define =>
    obtain ⟨name, value, rfl⟩ := defineShape_spec h
    simp [Entry.kinds]
  | typedef =>
    obtain ⟨base, name, rfl⟩ := typedefShape_spec h
    simp [Entry.kinds]
  | packageFlags =>
    obtain ⟨names, optional, rfl, -⟩ := packagesShape_spec h
    simp [Entry.kinds]
  | inNamespace =>
    obtain ⟨s, -, rfl, -⟩ := namespaceShape_spec h
    simp [Entry.kinds]
  | constant =>
    obtain ⟨c, rfl, -⟩ := constantShape_spec h
    simp [Entry.kinds]
  | ctype =>
    obtain ⟨a, rfl, -⟩ := ctypeShape_spec h
    simp [Entry.kinds]
  | struct | union =>
    obtain ⟨r, rfl, -⟩ := recordShape_spec h
    simp [Entry.kinds]
  | enum | constantEnum =>
    obtain ⟨e, rfl, -⟩ := enumShape_spec h
    simp [Entry.kinds]
  | wrapper =>
    obtain ⟨w, rfl, -⟩ := wrapperShape_spec h
    simp [Entry.kinds]
  | wrapperWithBody =>
    obtain ⟨w, rfl, -⟩ := wrapperWithBodyShape_spec h
    simp [Entry.kinds]

end ForeignBindings
