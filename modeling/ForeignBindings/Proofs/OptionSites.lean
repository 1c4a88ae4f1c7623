import Mathlib.Data.List.TakeDrop
import ForeignBindings.Proofs.Dialects

/-!
# Options in any order

Pairs of a keyword and a value may stand at seven places of a directive. At each of them the order
of the pairs makes no difference, and nothing that is written is passed over: what is no pair of a
known key that comes once is refused, and each value is looked at.

* `TakesOptions` says of a check that it depends on the values of options and on nothing else about
  them. It goes along the steps of a check, from `TakesOptions.read` to whole shapes.
* `OptionSite` is one of the places, with all that may stand around it.
* `Dialect.interpret_options` is about the directive that the options are a part of.
-/

namespace ForeignBindings

open Spec Checks

theorem typeArgument_ne {f : Form} {t : ForeignType} (h : typeArgument f = .ok t) :
    f ≠ .list [] := by
  rintro rfl
  cases h

/-! ## Checks that take options -/

/-- Forms that may stand where options do: the first of them is a key, if there is one. -/
structure OptionForms where
  forms : List Form
  starts : ∀ f ∈ forms.head?, f.isKeyword = true

namespace OptionForms

/-- Options that are nothing but pairs. -/
def ofPairs (pairs : List (String × Form)) : OptionForms where
  forms := Options.written pairs
  starts := by
    cases pairs <;> simp [Options.written, Form.isKeyword]

/-- Options that are faulty. -/
def ofFaulty {keys : List String} {forms : List Form} (h : Options.Faulty keys forms) :
    OptionForms where
  forms := forms
  starts := by
    have behind_pairs (before : List (String × Form)) (key : String) (after : List Form) :
        ∀ f ∈ (Options.written before ++ .keyword key :: after).head?, f.isKeyword = true := by
      cases before <;> simp [Options.written, Form.isKeyword]
    -- what is no key is only faulty behind a pair, so it does not come first
    cases h with
    | unknown before after => exact behind_pairs before _ after
    | repeated before after => exact behind_pairs before _ after
    | valueless before key => exact behind_pairs before key []
    | stray first before after => simp [Options.written, Form.isKeyword]

end OptionForms

open Options in
/-- A check that depends on options, and on these as pairs without an order. It refuses them if they
are faulty, and it looks at every value: an empty list, which is no value for any key, is refused
wherever it stands. -/
structure TakesOptions {α : Type} (keys : List String) (f : OptionForms → Except ShapeFault α) :
    Prop where
  perm {pairs pairs' : List (String × Form)} {a : α} (hperm : pairs.Perm pairs')
    (h : f (.ofPairs pairs) = .ok a) : f (.ofPairs pairs') = .ok a
  not_faulty {options : OptionForms} {a : α} (h : f options = .ok a) : ¬ Faulty keys options.forms
  value_ne {pairs : List (String × Form)} {a : α} (h : f (.ofPairs pairs) = .ok a) :
    ∀ p ∈ pairs, p.2 ≠ .list []

namespace TakesOptions

variable {α β : Type} {keys : List String}

/-- What is done with options that have been read depends on what is found for each key, and every
key is looked for. -/
theorem read {use : Options → Except ShapeFault α}
    (same : ∀ {o o' : Options}, o.get? = o'.get? → use o = use o')
    (looked : ∀ {o a}, use o = .ok a → ∀ key ∈ keys, o.get? key ≠ some (.list [])) :
    TakesOptions keys fun options => Options.read keys options.forms >>= use where
  perm {pairs pairs' a} hperm h := by
    obtain ⟨o, hread, huse⟩ := bind_eq_ok.1 h
    obtain ⟨rfl, sound⟩ := Options.read_written.1 hread
    -- the pairs are read in either order, and give the same values
    have same_values : Options.get? ⟨pairs⟩ = Options.get? ⟨pairs'⟩ := by
      funext key
      exact Options.get?_perm sound hperm key
    rw [same same_values] at huse
    exact bind_eq_ok.2 ⟨_, Options.read_written.2 ⟨rfl, sound.perm hperm⟩, huse⟩
  not_faulty {options a} h hfaulty := by
    obtain ⟨o, hread, -⟩ := bind_eq_ok.1 h
    obtain ⟨hforms, sound⟩ := Options.read_eq_ok.1 hread
    exact hfaulty.ne_written sound hforms
  value_ne {pairs a} h p hp hvalue := by
    obtain ⟨o, hread, huse⟩ := bind_eq_ok.1 h
    obtain ⟨rfl, sound⟩ := Options.read_written.1 hread
    obtain ⟨key, value⟩ := p
    subst hvalue
    exact looked huse key (sound.known _ hp) ((Options.get?_eq_some_iff sound).2 hp)

/-- What is refused whatever the options are does not depend on them. -/
theorem error (e : OptionForms → ShapeFault) :
    TakesOptions keys fun options => (.error (e options) : Except ShapeFault α) where
  perm _ h := by cases h
  not_faulty h := by cases h
  value_ne h := by cases h

/-- A check that comes to its result through another one, whatever else it does. -/
theorem of_iff {ι : Type} {f : ι → OptionForms → Except ShapeFault β}
    {g : OptionForms → Except ShapeFault α} (comes : ι → β → α → Prop)
    (hf : ∀ i, TakesOptions keys (f i))
    (hg : ∀ options a, g options = .ok a ↔ ∃ i b, f i options = .ok b ∧ comes i b a) :
    TakesOptions keys g where
  perm {pairs pairs' a} hperm h := by
    obtain ⟨i, b, hb, hcomes⟩ := (hg _ a).1 h
    exact (hg _ a).2 ⟨i, b, (hf i).perm hperm hb, hcomes⟩
  not_faulty {options a} h := by
    obtain ⟨i, b, hb, -⟩ := (hg _ a).1 h
    exact (hf i).not_faulty hb
  value_ne {pairs a} h := by
    obtain ⟨i, b, hb, -⟩ := (hg _ a).1 h
    exact (hf i).value_ne hb

/-- The options are read after something else. -/
theorem after {x : Except ShapeFault β} {f : β → OptionForms → Except ShapeFault α}
    (hf : ∀ b, TakesOptions keys (f b)) :
    TakesOptions keys fun options => x >>= fun b => f b options :=
  of_iff (fun b a' a => x = .ok b ∧ a' = a) hf fun options a => by
    rw [bind_eq_ok]
    constructor
    · rintro ⟨b, hx, h⟩
      exact ⟨b, a, h, hx, rfl⟩
    · rintro ⟨b, _, h, hx, rfl⟩
      exact ⟨b, hx, h⟩

/-- The options are read before something else. -/
theorem before {f : OptionForms → Except ShapeFault β} {rest : β → Except ShapeFault α}
    (hf : TakesOptions keys f) : TakesOptions keys fun options => f options >>= rest :=
  of_iff (fun _ b a => rest b = .ok a) (fun _ : Unit => hf) fun options a => by
    simp [bind_eq_ok]

/-- The options are read after a refusal that has not been called for. -/
theorem guarded {c : Prop} [Decidable c] {e : ShapeFault}
    {f : PUnit → OptionForms → Except ShapeFault α} (hf : TakesOptions keys (f ⟨⟩)) :
    TakesOptions keys fun options =>
      if c then (throw e >>= fun u => f u options) else f ⟨⟩ options :=
  of_iff (fun _ a' a => ¬ c ∧ a' = a) (fun _ : Unit => hf) fun options a => by
    rw [guard_eq_ok (f := fun u => f u options)]
    constructor
    · rintro ⟨hc, h⟩
      exact ⟨⟨⟩, a, h, hc, rfl⟩
    · rintro ⟨-, _, h, hc, rfl⟩
      exact ⟨hc, h⟩

end TakesOptions

/-! ## The seven places -/

/-- The options start at the first keyword. -/
theorem splitAtOptions_append {names : List Form} (hnames : ∀ f ∈ names, f.isKeyword = false)
    (options : OptionForms) :
    splitAtOptions (names ++ options.forms) = (names, options.forms) := by
  obtain ⟨forms, starts⟩ := options
  have stops : forms.takeWhile (fun f => !f.isKeyword) = [] ∧
      forms.dropWhile (fun f => !f.isKeyword) = forms := by
    cases forms with
    | nil => exact ⟨rfl, rfl⟩
    | cons f forms =>
      have key : f.isKeyword = true := starts f rfl
      simp [key]
  have goes_on : ∀ f ∈ names, (!f.isKeyword) = true := by simpa using hnames
  rw [splitAtOptions, List.span_eq_takeWhile_dropWhile, List.takeWhile_append_of_pos goes_on,
    List.dropWhile_append_of_pos goes_on, stops.1, stops.2, List.append_nil]

/-- A part in the form of a list is no documentation. -/
theorem leadingText_append_list (before after : List Form) (items : List Form) :
    leadingText (before ++ .list items :: after) =
      ((leadingText before).1, (leadingText before).2 ++ .list items :: after) := by
  rcases before with _ | ⟨first, before⟩
  · rfl
  · cases first <;> rfl

theorem packagesShape_takes {names : List Form} (hnames : ∀ f ∈ names, f.isKeyword = false) :
    TakesOptions ["optional"] fun options => packagesShape (names ++ options.forms) := by
  unfold packagesShape
  simp only [splitAtOptions_append hnames]
  refine .guarded (.after fun names => .read ?_ ?_)
  · intro o o' h
    simp only [Options.flag, h]
  · intro o a h
    obtain ⟨optional, hoptional, -⟩ := bind_eq_ok.1 h
    simpa using Options.get?_ne_of_flag hoptional

theorem constantShape_takes (head : Form) :
    TakesOptions ["documentation", "optional", "type"] fun options =>
      constantShape (head :: options.forms) := by
  cases head with
  | list items =>
    rcases items with _ | ⟨name, candidates⟩
    · exact .error _
    · refine .after fun name => .guarded (.after fun candidates => .read ?_ ?_)
      · intro o o' h
        simp only [Options.word, Options.flag, Options.string, h]
      · intro o a h
        obtain ⟨type?, htype, h⟩ := bind_eq_ok.1 h
        -- every type that is known is followed by the same checks
        split at h <;>
        · obtain ⟨type, -, h⟩ := bind_eq_ok.1 h
          obtain ⟨documentation, hdocumentation, h⟩ := bind_eq_ok.1 h
          obtain ⟨optional, hoptional, h⟩ := bind_eq_ok.1 h
          simpa using ⟨Options.get?_ne_of_string hdocumentation, Options.get?_ne_of_flag hoptional,
            Options.get?_ne_of_word htype⟩
  | _ => exact .error _

theorem ctypeShape_takes (name native : Form) :
    TakesOptions ["documentation"] fun options =>
      ctypeShape (name :: native :: options.forms) := by
  cases native with
  | string native =>
    refine .read ?_ ?_
    · intro o o' h
      simp only [Options.string, h]
    · intro o a h
      obtain ⟨name, -, h⟩ := bind_eq_ok.1 h
      obtain ⟨documentation, hdocumentation, -⟩ := bind_eq_ok.1 h
      simpa using Options.get?_ne_of_string hdocumentation
  | _ => exact .error _

theorem slotArgument_takes (name native : Form) :
    TakesOptions ["type", "count"] fun options =>
      slotArgument (.list (name :: native :: options.forms)) := by
  cases native with
  | string native =>
    refine .read ?_ ?_
    · intro o o' h
      simp only [h]
    · intro o a h
      split at h
      · rename_i type htype
        obtain ⟨count, hcount, h⟩ := bind_eq_ok.1 h
        obtain ⟨name, -, h⟩ := bind_eq_ok.1 h
        obtain ⟨type', htype', h⟩ := bind_eq_ok.1 h
        have count_ne : o.get? "count" ≠ some (.list []) := by
          intro hvalue
          rw [hvalue] at hcount
          cases hcount
        simpa [htype] using ⟨typeArgument_ne htype', count_ne⟩
      · cases h
  | _ => exact .error _

theorem memberArgument_takes (macros : Bool) (name : Form) {candidates : List Form}
    (hcandidates : ∀ f ∈ candidates, f.isKeyword = false) :
    TakesOptions ["documentation", "optional"] fun options =>
      memberArgument macros (.list (name :: candidates ++ options.forms)) := by
  unfold memberArgument
  simp only [List.cons_append, Form.list?_list, splitAtOptions_append hcandidates]
  refine .guarded (.guarded (.read ?_ ?_))
  · intro o o' h
    simp only [Options.flag, Options.string, h]
  · intro o a h
    obtain ⟨name, -, h⟩ := bind_eq_ok.1 h
    obtain ⟨candidates, -, h⟩ := bind_eq_ok.1 h
    obtain ⟨documentation, hdocumentation, h⟩ := bind_eq_ok.1 h
    obtain ⟨optional, hoptional, h⟩ := bind_eq_ok.1 h
    simpa using ⟨Options.get?_ne_of_string hdocumentation, Options.get?_ne_of_flag hoptional⟩

/-- A symbol behind the native name is the other name, and a key is not. -/
theorem headingParts_bind {β : Type} (native : String) (name? : Option Symbol)
    (options : OptionForms) (f : String × Option Form × List Form → Except ShapeFault β) :
    (headingParts (.list (.string native :: name?.toList.map .symbol ++ options.forms)) >>= f) =
      f (native, name?.map .symbol, options.forms) := by
  obtain ⟨forms, starts⟩ := options
  -- only a symbol is taken for a name, and options start with a key
  cases name? with
  | some s => rfl
  | none =>
    rcases forms with _ | ⟨first, rest⟩
    · rfl
    · cases first with
      | keyword key => rfl
      | _ => cases starts _ rfl

theorem headingArgument_takes (native : Form) (name? : Option Symbol) :
    TakesOptions ["convention", "documentation"] fun options =>
      headingArgument (.list (native :: name?.toList.map .symbol ++ options.forms)) := by
  cases native with
  | string native =>
    unfold headingArgument
    simp only [headingParts_bind]
    -- both ways to a name are followed by the same checks
    cases name? <;>
    · refine .guarded (.after fun name => .read ?_ ?_)
      · intro o o' h
        simp only [Options.word, Options.string, h]
      · intro o a h
        obtain ⟨word?, hword, h⟩ := bind_eq_ok.1 h
        split at h <;>
        · obtain ⟨convention, -, h⟩ := bind_eq_ok.1 h
          obtain ⟨documentation, hdocumentation, h⟩ := bind_eq_ok.1 h
          simpa using ⟨Options.get?_ne_of_word hword, Options.get?_ne_of_string hdocumentation⟩
  | _ => exact .error _

/-- Where one of several parts takes options, all of them together do. -/
theorem distinctParts_takes {α : Type} {read : Form → Except ShapeFault α} {name : α → String}
    {repeated : String → ShapeFault} {keys : List String} {part : OptionForms → Form}
    (h : TakesOptions keys fun options => read (part options)) (seen : List String)
    (before after : List Form) :
    TakesOptions keys fun options =>
      distinctParts read name repeated seen (before ++ part options :: after) := by
  induction before generalizing seen with
  | nil => exact .before h
  | cons first before ih =>
    -- a part in front is read first, and then its name may not come again
    exact .after fun p => .guarded (.before (ih (name p :: seen)))

theorem recordShape_takes (kind : Layout) (name native : Form) (before : List Form)
    (slotName slotNative : Form) (after : List Form) :
    TakesOptions ["type", "count"] fun options =>
      recordShape kind (name :: native ::
        (before ++ .list (slotName :: slotNative :: options.forms) :: after)) := by
  refine .after fun name => ?_
  cases native with
  | string native =>
    dsimp only [Form.string?]
    simp only [leadingText_append_list]
    exact .before (distinctParts_takes (slotArgument_takes slotName slotNative) [] _ after)
  | _ => exact .error _

theorem enumShape_takes_head (macros : Bool) (name : Form) (rest : List Form) :
    TakesOptions (if macros then ["base-type", "define-constants"] else ["base-type"])
      fun options => enumShape macros (.list (name :: options.forms) :: rest) := by
  refine .read ?_ ?_
  · intro o o' h
    simp only [Options.flag, h]
  · intro o a h
    have base_ne : o.get? "base-type" ≠ some (.list []) := by
      intro hvalue
      dsimp only at h
      rw [hvalue] at h
      obtain ⟨base, hbase, -⟩ := bind_eq_ok.1 h
      cases hbase
    have flag_read : ∃ b, o.flag "define-constants" = .ok b := by
      dsimp only at h
      -- a base that is given is followed by the same checks as none
      split at h <;>
      · obtain ⟨base, -, h⟩ := bind_eq_ok.1 h
        obtain ⟨-, h⟩ := guard_eq_ok.1 h
        obtain ⟨members, -, h⟩ := bind_eq_ok.1 h
        obtain ⟨name, -, h⟩ := bind_eq_ok.1 h
        obtain ⟨defineConstants, hflag, -⟩ := bind_eq_ok.1 h
        exact ⟨defineConstants, hflag⟩
    obtain ⟨b, hflag⟩ := flag_read
    cases macros with
    | false => simpa using base_ne
    | true => simpa using ⟨base_ne, Options.get?_ne_of_flag hflag⟩

theorem enumShape_takes_member (macros : Bool) (head : Form) (before : List Form) (name : Form)
    {candidates : List Form} (hcandidates : ∀ f ∈ candidates, f.isKeyword = false)
    (after : List Form) :
    TakesOptions ["documentation", "optional"] fun options =>
      enumShape macros (head ::
        (before ++ .list (name :: candidates ++ options.forms) :: after)) := by
  refine .after fun (name', headOptions) => .after fun o => ?_
  have some_member (options : OptionForms) : ((leadingText before).2 ++
      .list (name :: candidates ++ options.forms) :: after).isEmpty = false := by
    simp
  simp only [leadingText_append_list, some_member, Bool.false_eq_true, if_false]
  cases o.get? "base-type" <;>
  · refine .after fun base => .before ?_
    exact distinctParts_takes (memberArgument_takes macros name hcandidates) [] _ after

theorem wrapperShape_takes (native : Form) (name? : Option Symbol) (rest : List Form) :
    TakesOptions ["convention", "documentation"] fun options =>
      wrapperShape (.list (native :: name?.toList.map .symbol ++ options.forms) :: rest) := by
  rcases rest with _ | ⟨result, rest⟩
  · exact .error _
  · exact .before (headingArgument_takes native name?)

theorem wrapperWithBodyShape_takes (native : Form) (name? : Option Symbol) (rest : List Form) :
    TakesOptions ["convention", "documentation"] fun options =>
      wrapperWithBodyShape
        (.list (native :: name?.toList.map .symbol ++ options.forms) :: rest) := by
  rcases rest with _ | ⟨result, _ | ⟨third, body⟩⟩
  · exact .error _
  · exact .error _
  · cases third with
    | list params =>
      unfold wrapperWithBodyShape
      dsimp only
      refine .guarded ?_
      exact .before (headingArgument_takes native name?)
    | _ => exact .error _

/-! ## Directives -/

/-- A place for options in a directive, with all that may stand around them. -/
inductive OptionSite where
  /-- Behind the names of packages. -/
  | packages (names : List Form) (plain : ∀ f ∈ names, f.isKeyword = false)
  /-- Behind the head of a constant. -/
  | constant (head : Form)
  /-- Behind the native name of an integer type. -/
  | ctype (name native : Form)
  /-- At the end of a slot of a record, with other forms before and after the slot. -/
  | slot (kind : Layout) (name native : Form) (before : List Form) (slotName slotNative : Form)
    (after : List Form)
  /-- In the head of an enumeration. -/
  | enumHead (macros : Bool) (name : Form) (rest : List Form)
  /-- At the end of a member of an enumeration, with other forms before and after the member. -/
  | member (macros : Bool) (head : Form) (before : List Form) (name : Form)
    (candidates : List Form) (plain : ∀ f ∈ candidates, f.isKeyword = false) (after : List Form)
  /-- In the head of a wrapper, behind the native name and perhaps another name. -/
  | heading (withBody : Bool) (native : Form) (name? : Option Symbol) (rest : List Form)

namespace OptionSite

/-- The kind of the directives that have this place. -/
def kind : OptionSite → Kind
  | packages .. => .packageFlags
  | constant .. => .constant
  | ctype .. => .ctype
  | slot .struct .. => .struct
  | slot .union .. => .union
  | enumHead macros .. => if macros then .constantEnum else .enum
  | member macros .. => if macros then .constantEnum else .enum
  | heading withBody .. => if withBody then .wrapperWithBody else .wrapper

/-- The keys that are known in this place. -/
def keys : OptionSite → List String
  | packages .. => ["optional"]
  | constant .. => ["documentation", "optional", "type"]
  | ctype .. => ["documentation"]
  | slot .. => ["type", "count"]
  | enumHead macros .. => if macros then ["base-type", "define-constants"] else ["base-type"]
  | member .. => ["documentation", "optional"]
  | heading .. => ["convention", "documentation"]

/-- The arguments of a directive with the given options in this place. -/
def arguments (options : List Form) : OptionSite → List Form
  | packages names _ => names ++ options
  | constant head => head :: options
  | ctype name native => name :: native :: options
  | slot _ name native before slotName slotNative after =>
    name :: native :: (before ++ .list (slotName :: slotNative :: options) :: after)
  | enumHead _ name rest => .list (name :: options) :: rest
  | member _ head before name candidates _ after =>
    head :: (before ++ .list (name :: candidates ++ options) :: after)
  | heading _ native name? rest =>
    .list (native :: name?.toList.map .symbol ++ options) :: rest

/-- The directive with the given options in this place. -/
def directive (site : OptionSite) (line : Nat) (options : List Form) : Directive :=
  ⟨site.kind.tag, site.arguments options, line⟩

/-- Whatever stands around them, a shape takes the options in each place. -/
theorem takesOptions (site : OptionSite) :
    TakesOptions site.keys fun options => site.kind.shape (site.arguments options.forms) := by
  cases site with
  | packages names plain => exact packagesShape_takes plain
  | constant head => exact constantShape_takes head
  | ctype name native => exact ctypeShape_takes name native
  | slot kind name native before slotName slotNative after =>
    cases kind with
    | struct => exact recordShape_takes .struct name native before slotName slotNative after
    | union => exact recordShape_takes .union name native before slotName slotNative after
  | enumHead macros name rest =>
    cases macros with
    | false => exact enumShape_takes_head false name rest
    | true => exact enumShape_takes_head true name rest
  | member macros head before name candidates plain after =>
    cases macros with
    | false => exact enumShape_takes_member false head before name plain after
    | true => exact enumShape_takes_member true head before name plain after
  | heading withBody native name? rest =>
    cases withBody with
    | false => exact wrapperShape_takes native name? rest
    | true => exact wrapperWithBodyShape_takes native name? rest

/-- The directive is understood as what the shape of its kind makes of its arguments. -/
theorem interpret_directive {mode : Mode} {site : OptionSite} {line : Nat} {options : List Form}
    {p : Placed} :
    (Dialect.ofMode mode).interpret (site.directive line options) = .ok p ↔
      p.kind = site.kind ∧ p.kind ∈ mode.kinds ∧ p.line = line ∧
        site.kind.shape (site.arguments options) = .ok p.entry := by
  rw [Dialect.interpret_eq_ok]
  constructor
  · rintro ⟨htag, hmem, hline, hshape⟩
    have same_kind : p.kind = site.kind := by
      have found := Kind.ofTag?_tag p.kind
      rw [htag] at found
      exact Option.some.inj (found.symm.trans (Kind.ofTag?_tag site.kind))
    exact ⟨same_kind, hmem, hline, same_kind ▸ hshape⟩
  · rintro ⟨same_kind, hmem, hline, hshape⟩
    exact ⟨congrArg Kind.tag same_kind, hmem, hline, same_kind ▸ hshape⟩

end OptionSite

namespace Dialect

open Options

/-- What is never understood is refused. -/
theorem exists_error {d : Dialect} {x : Directive} (h : ∀ p, d.interpret x ≠ .ok p) :
    ∃ e, d.interpret x = .error e := by
  cases hx : d.interpret x with
  | ok p => exact absurd hx (h p)
  | error e => exact ⟨e, rfl⟩

/-- **Options are a set.** In every place for options, whatever else stands in the directive, the
same pairs in another order are understood as the same entry, or refused as well. A key that is not
known, one that comes again and one without a value are refused, and so is what stands between the
pairs. Nor is any pair passed over: with an empty list for its value it is refused. -/
theorem interpret_options (mode : Mode) (site : OptionSite) (line : Nat) :
    (∀ pairs pairs' : List (String × Form), pairs.Perm pairs' → ∀ p,
      (ofMode mode).interpret (site.directive line (written pairs)) = .ok p ↔
        (ofMode mode).interpret (site.directive line (written pairs')) = .ok p) ∧
    (∀ forms, Faulty site.keys forms →
      ∃ e, (ofMode mode).interpret (site.directive line forms) = .error e) ∧
    (∀ pairs key, (key, .list []) ∈ pairs →
      ∃ e, (ofMode mode).interpret (site.directive line (written pairs)) = .error e) := by
  have takes := site.takesOptions
  refine ⟨?_, ?_, ?_⟩
  · intro pairs pairs' hperm p
    have same_entry : site.kind.shape (site.arguments (written pairs)) = .ok p.entry ↔
        site.kind.shape (site.arguments (written pairs')) = .ok p.entry :=
      ⟨takes.perm hperm, takes.perm hperm.symm⟩
    rw [OptionSite.interpret_directive, OptionSite.interpret_directive, same_entry]
  · intro forms hfaulty
    apply exists_error
    intro p h
    obtain ⟨-, -, -, hshape⟩ := OptionSite.interpret_directive.1 h
    have accepted : site.kind.shape (site.arguments (OptionForms.ofFaulty hfaulty).forms) =
        .ok p.entry := hshape
    exact takes.not_faulty accepted hfaulty
  · intro pairs key hmem
    apply exists_error
    intro p h
    obtain ⟨-, -, -, hshape⟩ := OptionSite.interpret_directive.1 h
    exact takes.value_ne hshape _ hmem rfl

/-- A constant of floating type that may be left out, with its options in either order; a second
type is refused. -/
theorem interpret_options_ratio :
    let site := OptionSite.constant (.list [.symbol ⟨none, "ratio"⟩, .string "RATIO"])
    let options := [("type", Form.keyword "double"), ("optional", .symbol ⟨none, "true"⟩)]
    let ratio := Placed.mk .constant 1 (.constant ⟨"RATIO", ["RATIO"], none, true, .double⟩)
    (ofMode .probe).interpret (site.directive 1 (written options)) = .ok ratio ∧
      (ofMode .probe).interpret (site.directive 1 (written options.reverse)) = .ok ratio ∧
      ∃ e, (ofMode .probe).interpret (site.directive 1
        (written options ++ [.keyword "type", .keyword "integer"])) = .error e := by
  intro site options ratio
  have understood : (ofMode .probe).interpret (site.directive 1 (written options)) =
      .ok ratio := rfl
  obtain ⟨any_order, no_fault, -⟩ := interpret_options .probe site 1
  refine ⟨understood, ?_, ?_⟩
  · exact (any_order _ _ options.reverse_perm.symm ratio).1 understood
  · exact no_fault _ (.repeated options _ (by simp [options]))

end Dialect

end ForeignBindings
