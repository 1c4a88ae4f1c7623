import ForeignBindings.Proofs.Calls
import ForeignBindings.Proofs.Forms
import ForeignBindings.Proofs.Scopes
import ForeignBindings.Proofs.Sections

/-!
# Paths across modules

Two things keep track of namespaces: the reader, which gives plain words the namespace in force as
it is written, and a draft, which spells types from the module that is open. A module is named by
the identifier of its namespace, so the two agree up to `Identifier.typeName`. Paths name the
namespace of a symbol as it is written. They lead to its module only where that makes no difference.

* `moduleAfter_eq` says that the module that is open is that of the namespace in force.
* `pathFrom_eq_declaredPath_iff` is the exact condition for a path to go through the names that
  modules are declared by.
* `SourceLine.moduleBehind` and `Declaration.moduleBehind` read the module that is open off a
  generated program, and `Generated.added_in` says that each entry adds its part where its module is
  open.
* `Generated.spelling_of_types` says for every type in a generated program where it stands and how
  it is spelled there.
-/

namespace ForeignBindings

open Spec Checks

/-! ## The module of the namespace in force -/

/-- A directive opens the module of the namespace that it switches to. -/
theorem Dialect.module?_of_interpret {mode : Mode} {d : Directive} {p : Placed}
    (h : (ofMode mode).interpret d = .ok p) :
    p.entry.module? = d.switchesTo?.map Identifier.typeName := by
  obtain ⟨htag, -, -, hshape⟩ := interpret_eq_ok.1 h
  have hkind := kind_mem_kinds h
  unfold Directive.switchesTo?
  split
  · rename_i is_switch
    -- the tag has one kind only, whose shape wants one symbol
    have kind_eq : p.kind = .inNamespace := by
      have found := Kind.ofTag?_tag p.kind
      rw [htag, is_switch, Kind.ofTag?_tag] at found
      exact (Option.some.inj found).symm
    rw [kind_eq] at hshape
    obtain ⟨s, harguments, hentry, -⟩ := namespaceShape_spec hshape
    rw [harguments, hentry]
    rfl
  · rename_i not_switch
    cases hentry : p.entry with
    | inNamespace name =>
      -- only a switch stands for such an entry
      rw [hentry] at hkind
      have kind_eq : p.kind = .inNamespace := List.mem_singleton.1 hkind
      exact absurd (by rw [← htag, kind_eq]) not_switch
    | _ => rfl

/-- The module that is open is that of the namespace in force. -/
theorem moduleAfter_eq {mode : Mode} {ds : List Directive} {ps : List Placed}
    (h : ds.map (Dialect.ofMode mode).interpret = ps.map .ok) (scope : Option String) :
    moduleAfter (scope.map Identifier.typeName) ps =
      (namespaceAfter scope ds).map Identifier.typeName := by
  induction ds generalizing ps scope with
  | nil =>
    have no_entries : ps = [] := List.map_eq_nil_iff.1 h.symm
    rw [no_entries]
    rfl
  | cons d ds ih =>
    obtain ⟨p, rest, rfl, hp, hrest⟩ := List.map_eq_cons_iff.1 h.symm
    -- one directive and its entry move the two trackers alike
    have step : p.entry.module?.or (scope.map Identifier.typeName) =
        (d.switchesTo?.or scope).map Identifier.typeName := by
      rw [Dialect.module?_of_interpret hp.symm]
      cases d.switchesTo? <;> rfl
    rw [moduleAfter_cons, namespaceAfter_cons, step]
    exact ih hrest.symm _

/-! ## Paths -/

theorem Identifier.typeName_typeName (name : String) :
    typeName (typeName name) = typeName name := by
  have undash_undash : undash ∘ undash = undash := by
    funext c
    show undash (undash c) = undash c
    unfold undash
    by_cases hc : c = '-'
    · simp [hc]
    · simp [hc]
  simp [typeName, undash_undash]

/-- The path of a symbol by the names that modules are declared by: the bare name in its own
namespace, and else one through the module of its namespace. -/
def Spec.Symbol.declaredPath (s : Symbol) (scope : Option String) : String :=
  if s.scope = scope then Identifier.typeName s.name
  else
    (if scope.isSome then "super::" else "") ++
      (match s.scope with
        | some target => Identifier.typeName target ++ "::"
        | none => "") ++
      Identifier.typeName s.name

/-- A name is shorter than any path to it through a module. -/
theorem name_ne_path (front target name : String) : name ≠ front ++ target ++ "::" ++ name := by
  intro h
  have lengths := congrArg String.length h
  simp only [String.length_append] at lengths
  have colons : "::".length = 2 := rfl
  omega

/-- A path goes through the declared names exactly where the namespace of the symbol is written as
its module is named, and is not taken for another one whose module has that name. -/
theorem pathFrom_eq_declaredPath_iff (s : Symbol) (scope : Option String) :
    s.pathFrom (scope.map Identifier.typeName) = s.declaredPath scope ↔
      s.scope.map Identifier.typeName = s.scope ∧
        (s.scope = scope.map Identifier.typeName → s.scope = scope) := by
  unfold Symbol.pathFrom Symbol.declaredPath
  -- only a symbol with a namespace, seen from inside a module, can be spelled in two ways
  cases hs : s.scope with
  | none =>
    cases scope with
    | none => simp
    | some here => simp
  | some target =>
    cases scope with
    | none => simp [eq_comm]
    | some here =>
      by_cases hsame : target = here
      · subst hsame
        -- the bare name is spelled only if the namespace is written as its module is named
        by_cases hplain : target = Identifier.typeName target
        · simp [← hplain]
        · -- the module has another name, so the path leads out of it
          have longer := name_ne_path "super::" target (Identifier.typeName s.name)
          simp [hplain, Ne.symm hplain, longer.symm]
      · by_cases htaken : target = Identifier.typeName here
        · -- the module of the namespace in force is taken for that of the symbol
          have longer := name_ne_path "super::" (Identifier.typeName target)
            (Identifier.typeName s.name)
          rw [htaken, Identifier.typeName_typeName] at longer
          rw [htaken] at hsame
          simpa [hsame, htaken, Identifier.typeName_typeName, String.append_assoc] using longer
        · have not_equal : (target == Identifier.typeName here) = false := by simpa using htaken
          simp [hsame, not_equal, htaken, String.append_assoc, eq_comm]

/-! ## Types in a program -/

namespace ForeignType

/-- The symbol that a type names, behind any number of pointers. -/
def symbol? : ForeignType → Option Symbol
  | primitive _ => none
  | named s => some s
  | pointer target => target.symbol?

/-- The marks of the pointers around the target of a type. -/
def marks : ForeignType → String
  | primitive _ | named _ => ""
  | pointer target => "*mut " ++ target.marks

theorem path_of_symbol {t : ForeignType} {s : Symbol} (h : t.symbol? = some s)
    (current : Option String) : t.path current = t.marks ++ s.pathFrom current := by
  induction t with
  | primitive p => cases h
  | named s' =>
    cases h
    simp [path, marks]
  | pointer target ih =>
    -- only a pointer to no value is spelled in another way, and that names no symbol
    have not_void : target ≠ .primitive .void := by
      rintro rfl
      cases h
    rw [path, marks, ih h, String.append_assoc]
    exact not_void

end ForeignType

/-- The types that an entry refers to. -/
def Entry.types : Entry → List ForeignType
  | .record r => r.slots.map Slot.type
  | .enumeration e => [e.base]
  | .wrapper w => w.result :: w.parameters.map Prod.snd
  | _ => []

/-- The text of a header refers to no type. -/
theorem Entry.isHeader_of_mem_types {e : Entry} {k : Kind} (hk : k ∈ e.kinds) {t : ForeignType}
    (ht : t ∈ e.types) : k.isHeader = false := by
  rw [← Bool.not_eq_true]
  intro header
  rcases plain_of_header hk header with ⟨_, rfl⟩ | ⟨_, rfl⟩ | ⟨_, _, rfl⟩ | ⟨_, _, rfl⟩ <;> cases ht

/-- What only one mode understands is understood in no other. -/
theorem Mode.eq_of_mem_ownKinds {mode mode' : Mode} {k : Kind} (h : k ∈ mode.kinds)
    (h' : k ∈ mode'.ownKinds) : mode = mode' := by
  cases mode <;> cases mode' <;> first
    | rfl
    | cases k <;> simp [kinds, sharedKinds, ownKinds] at h h'

/-! ## Where entries stand -/

/-- The module that is open behind a line of a probe. -/
def SourceLine.moduleBehind (current : Option String) : SourceLine → Option String
  | .call (.namespaceBegin name) => some name
  | .call .namespaceEnd => none
  | _ => current

/-- The module that functions belong to behind a declaration. -/
def Declaration.moduleBehind (current : Option String) : Declaration → Option String
  | .inNamespace name => some name
  | .function _ => current

theorem SourceLine.StaysInModule.moduleBehind_eq {l : SourceLine} (h : l.StaysInModule)
    (current : Option String) : l.moduleBehind current = current := by
  unfold moduleBehind
  split
  · rename_i name
    exact absurd rfl (h.1 name)
  · exact absurd rfl h.2
  · rfl

theorem SourceLine.moduleBehind_of_stays {ls : List SourceLine} (h : ∀ l ∈ ls, l.StaysInModule)
    (current : Option String) : ls.foldl moduleBehind current = current := by
  induction ls with
  | nil => rfl
  | cons l ls ih =>
    rw [List.foldl_cons, (h l (List.mem_cons_self ..)).moduleBehind_eq]
    exact ih fun l' hl' => h l' (List.mem_cons_of_mem _ hl')

/-- Behind the lines of an entry, the module that it opens is open, or still the one before. -/
theorem Entry.moduleBehind_lines (e : Entry) (current : Option String) :
    (e.added .probe current).lines.foldl SourceLine.moduleBehind current =
      e.module?.or current := by
  cases hmodule : e.module? with
  | none =>
    apply SourceLine.moduleBehind_of_stays
    intro l hl
    exact stays_of_mem_added hmodule hl
  | some name =>
    rw [eq_inNamespace_of_module? hmodule]
    -- the module before is ended first, if there is one
    cases current <;> rfl

theorem Entry.moduleBehind_declarations (e : Entry) (current : Option String) :
    (e.added .wrapper current).declarations.foldl Declaration.moduleBehind current =
      e.module?.or current := by
  cases e <;> rfl

theorem moduleBehind_linesFrom (current : Option String) (ps : List Placed) :
    (linesFrom .probe current ps).foldl SourceLine.moduleBehind current =
      moduleAfter current ps := by
  induction ps generalizing current with
  | nil => rfl
  | cons p ps ih =>
    rw [linesFrom, List.foldl_append, p.entry.moduleBehind_lines, ih, moduleAfter_cons]

theorem moduleBehind_declarationsFrom (current : Option String) (ps : List Placed) :
    (declarationsFrom .wrapper current ps).foldl Declaration.moduleBehind current =
      moduleAfter current ps := by
  induction ps generalizing current with
  | nil => rfl
  | cons p ps ih =>
    rw [declarationsFrom, List.foldl_append, p.entry.moduleBehind_declarations, ih,
      moduleAfter_cons]

theorem linesFrom_append (mode : Mode) (current : Option String) (before ps : List Placed) :
    linesFrom mode current (before ++ ps) =
      linesFrom mode current before ++ linesFrom mode (moduleAfter current before) ps := by
  rw [linesFrom_eq, linesFrom_eq, linesFrom_eq, alongFrom_append]

theorem declarationsFrom_append (mode : Mode) (current : Option String)
    (before ps : List Placed) :
    declarationsFrom mode current (before ++ ps) = declarationsFrom mode current before ++
      declarationsFrom mode (moduleAfter current before) ps := by
  rw [declarationsFrom_eq, declarationsFrom_eq, declarationsFrom_eq, alongFrom_append]

namespace Generated

/-- Where a module is open, or none, a probe has the lines of a draft, and a library of wrappers its
declarations. -/
def HasIn (g : Generated) (mode : Mode) (current : Option String) (d : Draft) : Prop :=
  match mode with
  | .probe => ∃ front back, g.lines = front ++ d.lines ++ back ∧
      front.foldl SourceLine.moduleBehind none = current
  | .wrapper => ∃ front back, g.declarations = front ++ d.declarations ++ back ∧
      front.foldl Declaration.moduleBehind none = current

/-- **Where entries stand.** Every entry but a header leaves what it adds where the module is open
that the entries before it have asked for last. -/
theorem added_in {mode : Mode} {ds : List Directive} {g : Generated} {w w' : World}
    (h : (ofDirectives mode ds).outcome w = (.ok g, w')) :
    ∃ ps, (Dialect.ofMode mode).interpretAll ds = .ok ps ∧
      ∀ before p after, ps = before ++ p :: after → p.kind.isHeader = false →
        g.HasIn mode (moduleAfter none before)
          (p.entry.added mode (moduleAfter none before)) := by
  cases mode with
  | wrapper =>
    obtain ⟨ps, s, hps, hall, rfl⟩ := wrapper_eq_ok h
    refine ⟨ps, hps, ?_⟩
    rintro before p after rfl -
    have declarations_eq : s.declarations = declarationsFrom .wrapper none (before ++ p :: after) :=
      hall.declarations_eq
    rw [declarationsFrom_append, declarationsFrom, ← List.append_assoc] at declarations_eq
    exact ⟨_, _, declarations_eq, moduleBehind_declarationsFrom none before⟩
  | probe =>
    obtain ⟨ps, s₁, s₂, hps, hheader, hbody, rfl⟩ := probe_eq_ok h
    refine ⟨ps, hps, ?_⟩
    rintro before p after rfl hp
    have header_module : ∀ q ∈ before ++ p :: after, q.kind.isHeader = true →
        q.entry.module? = none := fun q hq =>
      Entry.module?_of_header (Dialect.kind_mem_of_interpretAll hps hq)
    -- the headers open no module, so the rest starts at the root and misses no switch
    have at_root : moduleAfter none ((before ++ p :: after).filter fun q => q.kind.isHeader) =
        none := by
      apply moduleAfter_eq_self
      intro q hq
      obtain ⟨hq, hq_header⟩ := List.mem_filter.1 hq
      exact header_module q hq hq_header
    have same_module : moduleAfter none (before.filter fun q => !q.kind.isHeader) =
        moduleAfter none before := by
      apply moduleAfter_filter
      intro q hq hq_header
      exact header_module q (List.mem_append_left _ hq) (by simpa using hq_header)
    have header_lines : s₁.lines = banner ++ linesFrom .probe none _ := hheader.lines_eq
    have start : (s₁.lines ++ .plain "" :: opening).foldl SourceLine.moduleBehind none = none := by
      rw [header_lines, List.foldl_append, List.foldl_append]
      show (SourceLine.plain "" :: opening).foldl _ ((linesFrom .probe none _).foldl _ none) = none
      rw [moduleBehind_linesFrom, at_root]
      rfl
    have body_current : (s₁.write (.plain "" :: opening)).current = none :=
      hheader.current_eq.trans at_root
    have body_mode : (s₁.write (.plain "" :: opening)).mode = .probe := hheader.mode_eq
    have body_lines := hbody.lines_eq
    rw [body_current, body_mode, List.filter_append, List.filter_cons, if_pos (by simp [hp]),
      linesFrom_append, same_module, linesFrom] at body_lines
    refine ⟨s₁.lines ++ .plain "" :: opening ++
      linesFrom .probe none (before.filter fun q => !q.kind.isHeader),
      linesFrom .probe (p.entry.module?.or (moduleAfter none before))
        (after.filter fun q => !q.kind.isHeader) ++ s₂.closingLines ++ closing, ?_, ?_⟩
    · show s₂.lines ++ s₂.closingLines ++ closing = _
      rw [body_lines]
      simp only [Draft.write, List.append_assoc]
    · rw [List.foldl_append, start, moduleBehind_linesFrom, same_module]

/-- In a module, or at the root, the program spells a type of an entry in this way: as an argument
of a helper call, or in the declaration of a function. -/
inductive Emits (g : Generated) (current : Option String) : Entry → ForeignType → String → Prop
  /-- The call for a slot stands behind the start of its record, and before the end. -/
  | slot {r : Record} {s : Slot} {spelling : String} {front fields back : List SourceLine}
    (hslot : r.slots[fields.length]? = some s)
    (hlines : g.lines = front ++
      .call (.recordBegin r.kind r.name r.native r.documentation) :: (fields ++
        .call (.slot r.kind r.native s.native s.name spelling s.count) :: back))
    (hinside : .call .recordEnd ∉ fields)
    (hcurrent : front.foldl SourceLine.moduleBehind none = current) :
    Emits g current (.record r) s.type spelling
  | base {e : Enumeration} {spelling : String} {front back : List SourceLine}
    (hlines : g.lines = front ++ .call (.enumBegin e.name spelling e.documentation) :: back)
    (hcurrent : front.foldl SourceLine.moduleBehind none = current) :
    Emits g current (.enumeration e) e.base spelling
  | result {w : Wrapper} {f : DeclaredFunction} {spelling : String}
    {front back : List Declaration} (hdeclarations : g.declarations = front ++ .function f :: back)
    (hcurrent : front.foldl Declaration.moduleBehind none = current) (hsymbol : f.symbol = w.symbol)
    (hresult : f.result = some spelling) : Emits g current (.wrapper w) w.result spelling
  | parameter {w : Wrapper} {f : DeclaredFunction} {i : Nat} {name spelling : String}
    {type : ForeignType} {front back : List Declaration}
    (hdeclarations : g.declarations = front ++ .function f :: back)
    (hcurrent : front.foldl Declaration.moduleBehind none = current) (hsymbol : f.symbol = w.symbol)
    (hwritten : w.parameters[i]? = some (name, type))
    (hparameter : f.parameters[i]? = some (name, spelling)) :
    Emits g current (.wrapper w) type spelling

/-- In a module, or at the root, the program goes on to a module of this name: a probe ends the one
before and starts it, or the bindings declare it. -/
inductive Opens (g : Generated) (current : Option String) (name : String) : Prop
  | printed {front back : List SourceLine}
    (hlines : g.lines = front ++ (endOf current ++ [.call (.namespaceBegin name)]) ++ back)
    (hcurrent : front.foldl SourceLine.moduleBehind none = current)
  | declared {front back : List Declaration}
    (hdeclarations : g.declarations = front ++ .inNamespace name :: back)
    (hcurrent : front.foldl Declaration.moduleBehind none = current)

variable {g : Generated} {e : Entry} {mode : Mode} {current : Option String} {k : Kind}

/-- Each slot has its call behind the start of its record. -/
theorem emits_slot {r : Record} (h : g.HasIn .probe current ((Entry.record r).added .probe current))
    {s : Slot} (hs : s ∈ r.slots) : g.Emits current (.record r) s.type (s.type.path current) := by
  obtain ⟨front, back, hlines, hcurrent⟩ := h
  obtain ⟨before, after, hsplit⟩ := List.append_of_mem hs
  let call (s : Slot) : SourceLine :=
    .call (.slot r.kind r.native s.native s.name (s.type.path current) s.count)
  have slot_at : r.slots[(before.map call).length]? = some s := by
    simp [hsplit]
  have lines : g.lines = front ++
      .call (.recordBegin r.kind r.name r.native r.documentation) :: (before.map call ++
        call s :: (after.map call ++ .call .recordEnd :: back)) := by
    rw [hlines]
    show front ++ r.lines current ++ back = _
    rw [Record.lines, hsplit]
    simp [call]
  exact .slot slot_at lines (by simp [call]) hcurrent

/-- A program that has what an entry adds in a module spells its types from there. -/
theorem emits_of_hasIn (hk : k ∈ e.kinds) (hmode : k ∈ mode.kinds)
    (h : g.HasIn mode current (e.added mode current)) {t : ForeignType} (ht : t ∈ e.types)
    {s : Symbol} (hs : t.symbol? = some s) : g.Emits current e t (t.path current) := by
  cases e with
  | record r =>
    obtain rfl : mode = .probe := Mode.eq_of_mem_ownKinds hmode
      ((show [Kind.struct, .union] ⊆ Mode.probe.ownKinds by decide) hk)
    obtain ⟨slot, hslot, rfl⟩ := List.mem_map.1 ht
    exact emits_slot h hslot
  | enumeration e =>
    obtain rfl : mode = .probe := Mode.eq_of_mem_ownKinds hmode
      ((show [Kind.enum, .constantEnum] ⊆ Mode.probe.ownKinds by decide) hk)
    obtain rfl := List.mem_singleton.1 ht
    obtain ⟨front, back, hlines, hcurrent⟩ := h
    have lines : g.lines = front ++ e.lines current ++ back := hlines
    rw [Enumeration.lines, List.append_assoc, List.cons_append, List.cons_append] at lines
    exact .base lines hcurrent
  | wrapper w =>
    obtain rfl : mode = .wrapper := Mode.eq_of_mem_ownKinds hmode
      ((show [Kind.wrapper, .wrapperWithBody] ⊆ Mode.wrapper.ownKinds by decide) hk)
    obtain ⟨front, back, hdeclarations, hcurrent⟩ := h
    have declared : g.declarations = front ++ [.function (w.declaration current)] ++ back :=
      hdeclarations
    rw [List.append_assoc, List.singleton_append] at declared
    rcases List.mem_cons.1 ht with rfl | ht
    · -- a result that names a symbol is declared
      have not_void : w.result.isVoid = false := by
        unfold ForeignType.isVoid
        split
        · rename_i hvoid
          rw [hvoid] at hs
          cases hs
        · rfl
      exact .result declared hcurrent rfl (by simp [Wrapper.declaration, not_void])
    · obtain ⟨⟨name, type⟩, hmem, rfl⟩ := List.mem_map.1 ht
      obtain ⟨i, hi⟩ := List.mem_iff_getElem?.1 hmem
      exact .parameter declared hcurrent rfl hi (by simp [Wrapper.declaration, hi])
  | _ => cases ht

theorem opens_of_hasIn {name : String}
    (h : g.HasIn mode current ((Entry.inNamespace name).added mode current)) :
    g.Opens current name := by
  cases mode with
  | probe =>
    obtain ⟨front, back, hlines, hcurrent⟩ := h
    exact .printed hlines hcurrent
  | wrapper =>
    obtain ⟨front, back, hdeclarations, hcurrent⟩ := h
    have declared : g.declarations = front ++ [.inNamespace name] ++ back := hdeclarations
    rw [List.append_assoc, List.singleton_append] at declared
    exact .declared declared hcurrent

/-- **Paths in a generated program.** In a program for the directives of a text, plain words of
every directive have been read under the last namespace before it, and the module of that namespace
is open where the program has what the directive stands for. A switch of namespaces opens the module
of its name as an identifier there. Every named type is spelled there from that module. It is
spelled by the names that modules are declared by exactly where the namespace of the symbol is such
a name already, and where it is not another namespace with the same module. -/
theorem spelling_of_types {text : String} {ds : List Directive} (hread : directivesOf text = .ok ds)
    {mode : Mode} {g : Generated} {w w' : World}
    (hgenerated : (ofDirectives mode ds).outcome w = (.ok g, w')) :
    ∀ before d after, ds = before ++ d :: after →
      d.ReadUnder (namespaceAfter none before) ∧
      (∀ name, d.switchesTo? = some name →
        g.Opens ((namespaceAfter none before).map Identifier.typeName)
          (Identifier.typeName name)) ∧
      ∃ p, (Dialect.ofMode mode).interpret d = .ok p ∧
        ∀ t ∈ p.entry.types, ∀ s, t.symbol? = some s →
          g.Emits ((namespaceAfter none before).map Identifier.typeName) p.entry t
            (t.path ((namespaceAfter none before).map Identifier.typeName)) ∧
          (t.path ((namespaceAfter none before).map Identifier.typeName) =
              t.marks ++ s.declaredPath (namespaceAfter none before) ↔
            s.scope.map Identifier.typeName = s.scope ∧
              (s.scope = (namespaceAfter none before).map Identifier.typeName →
                s.scope = namespaceAfter none before)) := by
  obtain ⟨ps, hall, hin⟩ := added_in hgenerated
  have understood := Dialect.interpretAll_eq_ok.1 hall
  have in_turn := readInTurn_of_directivesOf hread
  rintro before d after rfl
  obtain ⟨psBefore, p, psAfter, hsplit, hbefore, hp⟩ := split_of_map_eq_ok understood
  -- what the directive leaves stands in the module of the namespace that it is read under
  have same_module : moduleAfter none psBefore =
      (namespaceAfter none before).map Identifier.typeName := moduleAfter_eq hbefore none
  have at_directive := hin psBefore p psAfter hsplit
  rw [same_module] at at_directive
  have kind_mem := Dialect.kind_mem_kinds hp
  refine ⟨in_turn.readUnder, ?_, p, hp, ?_⟩
  · intro name hname
    have opens := Dialect.module?_of_interpret hp
    rw [hname] at opens
    have entry_eq := Entry.eq_inNamespace_of_module? opens
    rw [entry_eq] at at_directive kind_mem
    have kind_eq : p.kind = .inNamespace := List.mem_singleton.1 kind_mem
    exact opens_of_hasIn (at_directive (by rw [kind_eq]; rfl))
  · intro t ht s hs
    have no_header := Entry.isHeader_of_mem_types kind_mem ht
    have mode_mem := (Dialect.interpret_eq_ok.1 hp).2.1
    refine ⟨emits_of_hasIn kind_mem mode_mem (at_directive no_header) ht hs, ?_⟩
    rw [ForeignType.path_of_symbol hs, String.append_right_inj]
    exact pathFrom_eq_declaredPath_iff s _

/-! ## A namespace with a dash -/

/-- A record in a namespace whose name is no identifier, with a field of a type beside it. -/
def dashedText : String :=
  "(in-namespace a-b)(cstruct s \"struct s\" (x \"x\" :type t))"

/-- The directives of that text. -/
def dashedDirectives : List Directive :=
  [⟨"in-namespace", [.symbol ⟨none, "a-b"⟩], 1⟩,
    ⟨"cstruct",
      [.symbol ⟨some "a-b", "s"⟩, .string "struct s",
        .list [.symbol ⟨some "a-b", "x"⟩, .string "x", .keyword "type",
          .symbol ⟨some "a-b", "t"⟩]], 1⟩]

/-- The record that it asks for. -/
def dashedRecord : Record :=
  ⟨.struct, "s", "struct s", none, [⟨"X", "x", .named ⟨some "a-b", "t"⟩, .fixed 1⟩]⟩

theorem interpret_dashed : (Dialect.ofMode .probe).interpret dashedDirectives[1] =
    .ok ⟨.struct, 1, .record dashedRecord⟩ := rfl

/-- The module is named by an identifier, and the type is looked for in a module that is not. -/
theorem spelling_of_dashed :
    directivesOf dashedText = .ok dashedDirectives ∧
    ∃ g, (ofDirectives .probe dashedDirectives).outcome World.bare = (.ok g, World.bare) ∧
      g.Opens none "a_b" ∧
      g.Emits (some "a_b") (.record dashedRecord) (.named ⟨some "a-b", "t"⟩) "super::a-b::t" := by
  have read : directivesOf dashedText = .ok dashedDirectives := by decide +kernel
  have generated : ∃ g, (ofDirectives .probe dashedDirectives).outcome World.bare =
      (.ok g, World.bare) := ⟨_, rfl⟩
  obtain ⟨g, generated⟩ := generated
  have spells := spelling_of_types read generated
  obtain ⟨-, opens, -⟩ := spells [] dashedDirectives[0] [dashedDirectives[1]] rfl
  obtain ⟨-, -, p, hp, types⟩ := spells [dashedDirectives[0]] dashedDirectives[1] [] rfl
  rw [interpret_dashed] at hp
  cases hp
  have emitted := (types (.named ⟨some "a-b", "t"⟩) (List.mem_singleton.2 rfl) _ rfl).1
  exact ⟨read, g, generated, opens "a-b" rfl, emitted⟩

/-- A type of the namespace in force is not always spelled by its bare name. -/
theorem dashed_not_bare :
    ¬ ∀ (text : String) (ds : List Directive) (mode : Mode) (g : Generated) (w w' : World),
      directivesOf text = .ok ds → (ofDirectives mode ds).outcome w = (.ok g, w') →
        ∀ before d after p, ds = before ++ d :: after →
          (Dialect.ofMode mode).interpret d = .ok p →
          ∀ t ∈ p.entry.types, ∀ s, t.symbol? = some s → s.scope = namespaceAfter none before →
            ∀ path, g.Emits ((namespaceAfter none before).map Identifier.typeName) p.entry t
              (t.marks ++ path) → path = Identifier.typeName s.name := by
  intro bare
  have read : directivesOf dashedText = .ok dashedDirectives := by decide +kernel
  have generated : ∃ g, (ofDirectives .probe dashedDirectives).outcome World.bare =
      (.ok g, World.bare) := ⟨_, rfl⟩
  obtain ⟨g, generated⟩ := generated
  obtain ⟨ps, hall, hin⟩ := added_in generated
  cases (show .ok _ = Except.ok ps from hall)
  have stands := hin [_] ⟨.struct, 1, .record dashedRecord⟩ [] rfl rfl
  have emitted : g.Emits (some "a_b") (.record dashedRecord) (.named ⟨some "a-b", "t"⟩)
      "super::a-b::t" := emits_slot stands (List.mem_singleton.2 rfl)
  have equal := bare dashedText dashedDirectives .probe g World.bare World.bare read generated
    [dashedDirectives[0]] dashedDirectives[1] [] _ rfl interpret_dashed
    (.named ⟨some "a-b", "t"⟩) (List.mem_singleton.2 rfl) _ rfl rfl "super::a-b::t" emitted
  revert equal
  decide +kernel

end Generated

end ForeignBindings
