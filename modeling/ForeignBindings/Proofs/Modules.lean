import Mathlib.Data.List.Basic
import ForeignBindings.Proofs.Blocks
import ForeignBindings.Proofs.Brackets
import ForeignBindings.Proofs.Calls

/-!
# Modules at the root

Every switch of namespaces starts a module at the root of the bindings. A namespace that is come
back to starts another module of the same name, two spellings of a name may be one module, and the
bindings of a library have a module of their own. Nothing keeps all these apart.

* `Spec.modulesOf` is the modules that some directives switch to.
* `Bindings.rootModules` reads the modules at the root off the text of bindings, and
  `SourceLine.openedModules` those that a probe opens off its lines.
* `SourceLine.OpensAtRoot` says that modules are opened where no other one is open, and outside of
  all conditionals.
* `Generated.modules_at_root` says that either program has one module for each switch, in order, and
  when the names of all modules are different.
-/

namespace ForeignBindings

open Spec Checks

/-! ## Modules of a specification -/

/-- The modules that some directives switch to, by the names that they are declared by. -/
def Spec.modulesOf (ds : List Directive) : List String :=
  (ds.filterMap Directive.switchesTo?).map Identifier.typeName

/-- Entries open the modules that their directives switch to. -/
theorem Dialect.modules_of_interpretAll {mode : Mode} {ds : List Directive} {ps : List Placed}
    (h : (ofMode mode).interpretAll ds = .ok ps) :
    ps.filterMap (fun p => p.entry.module?) = modulesOf ds := by
  rw [interpretAll_eq_ok] at h
  induction ds generalizing ps with
  | nil =>
    have no_entries : ps = [] := List.map_eq_nil_iff.1 h.symm
    rw [no_entries]
    rfl
  | cons d ds ih =>
    obtain ⟨p, rest, rfl, hp, hrest⟩ := List.map_eq_cons_iff.1 h.symm
    have others := ih hrest.symm
    rw [List.filterMap_cons, module?_of_interpret hp.symm, others]
    unfold modulesOf
    rw [List.filterMap_cons]
    cases d.switchesTo? <;> rfl

/-- Each entry that opens a module starts a section. -/
theorem sectionsOf_names (ps : List Placed) :
    (sectionsOf ps).map Section.name = ps.filterMap fun p => p.entry.module? := by
  induction ps with
  | nil => rfl
  | cons p ps ih =>
    rw [sectionsOf, List.filterMap_cons]
    cases p.entry.module? with
    | none => exact ih
    | some name =>
      show name :: (sectionsOf ps).map Section.name = name :: _
      rw [ih]

/-! ## Modules in a text -/

namespace Bindings

/-- The module that a row of bindings starts in the first column. What is inside of a module is
indented, so these are the modules at the root. -/
def moduleOf? (row : String) : Option String :=
  ("pub mod ".toList.isPrefixOf? row.toList).map fun rest =>
    String.ofList (rest.takeWhile fun c => c != ' ')

/-- The modules at the root of some bindings, in order. -/
def rootModules (text : String) : List String :=
  ((Text.rowsOf text.toList).map String.ofList).filterMap moduleOf?

/-- A row that does not start with the first letter of `pub` starts no module. -/
theorem moduleOf?_of_head {row : String} (h : row.toList.head? ≠ some 'p') :
    moduleOf? row = none := by
  cases hprefix : "pub mod ".toList.isPrefixOf? row.toList with
  | none => rw [moduleOf?, hprefix, Option.map_none]
  | some rest =>
    -- what is in front of the rest starts with that letter
    rw [← List.isPrefixOf?_eq_some_iff_append_eq.1 hprefix] at h
    exact absurd rfl h

theorem moduleOf?_indented (line : String) : moduleOf? ("    " ++ line) = none := by
  apply moduleOf?_of_head
  rw [String.toList_append]
  exact fun same => by cases same

/-- A module is read back by its name. -/
theorem moduleOf?_start {name : String} (h : ' ' ∉ name.toList) :
    moduleOf? ("pub mod " ++ name ++ " \x7b") = some name := by
  have split : "pub mod ".toList.isPrefixOf? ("pub mod " ++ name ++ " \x7b").toList =
      some (name.toList ++ " \x7b".toList) := by
    rw [List.isPrefixOf?_eq_some_iff_append_eq, String.toList_append, String.toList_append,
      List.append_assoc]
  -- the name ends at the blank in front of the brace
  have all_kept : ∀ c ∈ name.toList, (c != ' ') = true := by
    rintro c hc
    rw [bne_iff_ne]
    rintro rfl
    exact h hc
  rw [moduleOf?, split, Option.map_some, List.takeWhile_append_of_pos all_kept]
  have cut : " \x7b".toList.takeWhile (fun c => c != ' ') = [] := by decide
  rw [cut, List.append_nil, String.ofList_toList]

/-- No line of a block starts a module, be the block indented or not. -/
theorem moduleOf?_of_mem_indentedBlock {link indent line : String} {f : DeclaredFunction}
    (hindent : indent = "" ∨ indent = "    ") (h : line ∈ indentedBlock link indent f) :
    moduleOf? line = none := by
  rcases List.mem_cons.1 h with rfl | h
  · decide
  obtain ⟨l, hl, rfl⟩ := List.mem_map.1 h
  rcases hindent with rfl | rfl
  · rw [String.empty_append]
    simp only [blockLines, List.mem_append, List.mem_cons, List.mem_map, List.not_mem_nil,
      or_false] at hl
    -- the documentation and the function itself are indented, and other lines are no items
    rcases hl with ((rfl | rfl) | ⟨doc, -, rfl⟩) | rfl | rfl | rfl
    · exact moduleOf?_of_head (by simp)
    · exact moduleOf?_of_head (by simp)
    · exact moduleOf?_indented doc
    · exact moduleOf?_of_head (by simp)
    · exact moduleOf?_indented _
    · decide
  · exact moduleOf?_indented l

theorem no_modules_in_blocks {ws : List Wrapper} {link indent : String}
    (hindent : indent = "" ∨ indent = "    ") (current : Option String) :
    (ws.flatMap fun w => indentedBlock link indent (w.declaration current)).filterMap moduleOf? =
      [] := by
  rw [List.filterMap_eq_nil_iff]
  intro line hline
  obtain ⟨w, -, hblock⟩ := List.mem_flatMap.1 hline
  exact moduleOf?_of_mem_indentedBlock hindent hblock

/-- The library module is one, whatever the library is called. -/
theorem modules_libraryLines (library : Library) :
    (libraryLines library).filterMap moduleOf? = ["library"] := by
  have start : moduleOf? "pub mod library \x7b" = some "library" := by decide +kernel
  have constant : ∀ name value, moduleOf? (libraryConstant name value) = none := by
    intro name value
    apply moduleOf?_of_head
    show (("    pub const " ++ name ++ ": &str = " ++ Text.quoted value ++ ";").toList).head? ≠ _
    simp
  have finish : moduleOf? "\x7d" = none := by decide +kernel
  simp only [libraryLines, List.filterMap_cons, start, constant, finish, List.filterMap_nil]

/-- A section is one module at the root: its blocks are indented, and so is what they say. -/
theorem modules_moduleLines {s : Section} (h : ' ' ∉ s.name.toList) (link : String) :
    (s.moduleLines link).filterMap moduleOf? = [s.name] := by
  have start : ["", "pub mod " ++ s.name ++ " \x7b"].filterMap moduleOf? = [s.name] := by
    have empty_line : moduleOf? "" = none := by decide +kernel
    simp only [List.filterMap_cons, empty_line, moduleOf?_start h, List.filterMap_nil]
  have finish : ["\x7d"].filterMap moduleOf? = [] := by decide +kernel
  rw [Section.moduleLines, List.filterMap_append, List.filterMap_append, start, finish,
    no_modules_in_blocks (.inr rfl)]
  rfl

theorem modules_linesOf {root : List Placed} {sections : List Section}
    (h : ∀ s ∈ sections, ' ' ∉ s.name.toList) (library : Library) :
    (linesOf library root sections).filterMap moduleOf? =
      "library" :: sections.map Section.name := by
  have banner_none : banner.filterMap moduleOf? = [] := by decide +kernel
  have in_sections : (sections.flatMap (Section.moduleLines library.name)).filterMap moduleOf? =
      sections.map Section.name := by
    induction sections with
    | nil => rfl
    | cons s sections ih =>
      have first := modules_moduleLines (h s (List.mem_cons_self ..)) library.name
      have rest := ih fun t ht => h t (List.mem_cons_of_mem _ ht)
      rw [List.flatMap_cons, List.filterMap_append, first, rest]
      rfl
  rw [linesOf, List.filterMap_append, List.filterMap_append, List.filterMap_append, banner_none,
    modules_libraryLines, no_modules_in_blocks (.inl rfl), in_sections]
  rfl

end Bindings

/-! ## Modules of a probe -/

namespace SourceLine

/-- The module that a line opens. -/
def opens? : SourceLine → Option String
  | .call (.namespaceBegin name) => some name
  | _ => none

/-- The modules that some lines open, in order. -/
def openedModules (ls : List SourceLine) : List String :=
  ls.filterMap opens?

/-- Whether a module is open behind a line, or nothing if the line may not stand there. -/
def moduleStep : Bool → SourceLine → Option Bool
  | false, .call (.namespaceBegin _) => some true
  | true, .call (.namespaceBegin _) => none
  | true, .call .namespaceEnd => some false
  | false, .call .namespaceEnd => none
  | isOpen, _ => some isOpen

/-- Behind the lines, no module and no conditional is open. -/
structure AtRoot (ls : List SourceLine) : Prop where
  chained : WellChained ls
  ended : ls.foldlM moduleStep false = some false

/-- The lines open modules of these names, at the root only, and end each of them. -/
structure OpensAtRoot (ls : List SourceLine) (names : List String) : Prop where
  opened : openedModules ls = names
  behind : AtRoot ls
  before : ∀ front name back, ls = front ++ .call (.namespaceBegin name) :: back → AtRoot front

theorem StaysInModule.opens? {l : SourceLine} (h : l.StaysInModule) : l.opens? = none := by
  unfold SourceLine.opens?
  split
  · rename_i name
    exact absurd rfl (h.1 name)
  · rfl

theorem StaysInModule.moduleStep {l : SourceLine} (h : l.StaysInModule) (isOpen : Bool) :
    SourceLine.moduleStep isOpen l = some isOpen := by
  unfold SourceLine.moduleStep
  split
  · rename_i name
    exact absurd rfl (h.1 name)
  · rename_i name
    exact absurd rfl (h.1 name)
  · exact absurd rfl h.2
  · exact absurd rfl h.2
  · rfl

theorem moduleStep_of_stays {ls : List SourceLine} (h : ∀ l ∈ ls, l.StaysInModule)
    (isOpen : Bool) : ls.foldlM moduleStep isOpen = some isOpen := by
  induction ls with
  | nil => rfl
  | cons l ls ih =>
    rw [List.foldlM_cons, (h l (List.mem_cons_self ..)).moduleStep]
    exact ih fun l' hl' => h l' (List.mem_cons_of_mem _ hl')

theorem AtRoot.append {ls ls' : List SourceLine} (h : AtRoot ls) (h' : AtRoot ls') :
    AtRoot (ls ++ ls') where
  chained := h.chained.append h'.chained
  ended := by
    rw [List.foldlM_append, h.ended]
    exact h'.ended

namespace OpensAtRoot

variable {ls ls' : List SourceLine} {names names' : List String}

/-- Lines that have nothing to do with modules. -/
theorem of_stays (hchained : WellChained ls) (h : ∀ l ∈ ls, l.StaysInModule) :
    OpensAtRoot ls [] where
  opened := List.filterMap_eq_nil_iff.2 fun l hl => (h l hl).opens?
  behind := ⟨hchained, moduleStep_of_stays h false⟩
  before := by
    rintro front name back rfl
    exact absurd rfl ((h _ (by simp)).1 name)

/-- Text that is given as it stands. -/
theorem of_plain (h : ls.all SourceLine.isPlain = true) : OpensAtRoot ls [] := by
  have no_other : ∀ l ∈ ls, ∃ text, l = .plain text := by
    intro l hl
    have plain := List.all_eq_true.1 h l hl
    cases l with
    | plain text => exact ⟨text, rfl⟩
    | _ => cases plain
  refine of_stays (WellChained.of_unconditional fun l hl => ?_) fun l hl => ?_
  · obtain ⟨text, rfl⟩ := no_other l hl
    exact isUnconditional_plain text
  · obtain ⟨text, rfl⟩ := no_other l hl
    constructor
    · intro name same
      cases same
    · intro same
      cases same

theorem append (h : OpensAtRoot ls names) (h' : OpensAtRoot ls' names') :
    OpensAtRoot (ls ++ ls') (names ++ names') where
  opened := by
    rw [openedModules, List.filterMap_append, ← h.opened, ← h'.opened]
    rfl
  behind := h.behind.append h'.behind
  before := by
    intro front name back heq
    rcases List.append_eq_append_iff.1 heq with ⟨more, rfl, hmore⟩ | ⟨more, rfl, hmore⟩
    · -- the module is opened by the later lines, and all the earlier ones are before it
      exact h.behind.append (h'.before more name back hmore)
    · cases more with
      | nil =>
        have at_front := h.behind
        rwa [List.append_nil] at at_front
      | cons l more =>
        cases hmore
        exact h.before front name more rfl

theorem flatMap {α : Type} {xs : List α} {lines : α → List SourceLine} {name : α → String}
    (h : ∀ x ∈ xs, OpensAtRoot (lines x) [name x]) :
    OpensAtRoot (xs.flatMap lines) (xs.map name) := by
  induction xs with
  | nil => exact of_plain rfl
  | cons x xs ih =>
    have rest := ih fun y hy => h y (List.mem_cons_of_mem _ hy)
    exact (h x (List.mem_cons_self ..)).append rest

end OpensAtRoot

end SourceLine

open SourceLine

section Entries

variable {ps : List Placed}

theorem stays_of_mem_flatMap (h : ∀ p ∈ ps, p.entry.module? = none) {current : Option String} :
    ∀ l ∈ ps.flatMap fun p => (p.entry.added .probe current).lines, l.StaysInModule := by
  intro l hl
  obtain ⟨p, hp, hadded⟩ := List.mem_flatMap.1 hl
  exact Entry.stays_of_mem_added (h p hp) hadded

theorem wellChained_flatMap (h : ∀ p ∈ ps, p.entry.Valid p.kind) (current : Option String) :
    WellChained (ps.flatMap fun p => (p.entry.added .probe current).lines) :=
  .flatMap fun p hp => Entry.wellChained_added (h p hp) .probe current

/-- Entries without switches among them. -/
theorem opensAtRoot_of_stays (hstays : ∀ p ∈ ps, p.entry.module? = none)
    (hvalid : ∀ p ∈ ps, p.entry.Valid p.kind) (current : Option String) :
    OpensAtRoot (ps.flatMap fun p => (p.entry.added .probe current).lines) [] :=
  .of_stays (wellChained_flatMap hvalid current) (stays_of_mem_flatMap hstays)

end Entries

/-- A section is one module, with nothing of other modules inside. -/
theorem Section.opensAtRoot_probeLines {s : Section}
    (hstays : ∀ p ∈ s.entries, p.entry.module? = none)
    (hvalid : ∀ p ∈ s.entries, p.entry.Valid p.kind) : OpensAtRoot s.probeLines [s.name] := by
  let inside := s.entries.flatMap fun p => (p.entry.added .probe (some s.name)).lines
  have inside_stays : ∀ l ∈ inside, l.StaysInModule := stays_of_mem_flatMap hstays
  have inside_chained : WellChained inside := wellChained_flatMap hvalid (some s.name)
  have nothing_inside : openedModules inside = [] :=
    (OpensAtRoot.of_stays inside_chained inside_stays).opened
  have start : WellChained [SourceLine.call (.namespaceBegin s.name)] := rfl
  have finish : WellChained [SourceLine.call .namespaceEnd] := rfl
  constructor
  · show s.name :: (inside ++ [SourceLine.call .namespaceEnd]).filterMap opens? = [s.name]
    rw [List.filterMap_append, ← openedModules, nothing_inside]
    rfl
  · refine ⟨(start.append inside_chained).append finish, ?_⟩
    -- the first line opens the module, which stays open up to the last
    show (inside ++ [SourceLine.call .namespaceEnd]).foldlM moduleStep true = some false
    rw [List.foldlM_append, moduleStep_of_stays inside_stays]
    rfl
  · intro front name back heq
    cases front with
    | nil => exact ⟨.nil, rfl⟩
    | cons l front =>
      -- behind its first line, a section opens no module
      have behind_first : inside ++ [.call .namespaceEnd] =
          front ++ .call (.namespaceBegin name) :: back := (List.cons.inj heq).2
      have mem : SourceLine.call (.namespaceBegin name) ∈ inside ++ [.call .namespaceEnd] := by
        rw [behind_first]
        simp
      rcases List.mem_append.1 mem with entry | last
      · exact absurd rfl ((inside_stays _ entry).1 name)
      · cases List.mem_singleton.1 last

/-! ## Programs -/

/-- A header opens no module, so all switches are among the other entries. -/
theorem modules_othersIn {ps : List Placed} (h : ∀ p ∈ ps, p.kind ∈ p.entry.kinds) :
    (othersIn ps).filterMap (fun p => p.entry.module?) =
      ps.filterMap fun p => p.entry.module? := by
  rw [othersIn, List.filterMap_filter]
  apply List.filterMap_congr
  intro p hp
  cases hside : p.kind.isHeader with
  | true => simp [Entry.module?_of_header (h p hp) hside]
  | false => simp

namespace Generated

variable {ds : List Directive} {g : Generated} {w w' : World}

/-- The lines of a probe: what is at the root, and its sections behind that. -/
theorem probe_lines (h : (probe ds).outcome w = (.ok g, w')) :
    ∃ ps, (Dialect.ofMode .probe).interpretAll ds = .ok ps ∧
      g.lines = banner ++ headerLines (headersIn ps) ++ .plain "" :: opening ++
        ((rootOf (othersIn ps)).flatMap (fun p => (p.entry.added .probe none).lines) ++
          (sectionsOf (othersIn ps)).flatMap Section.probeLines) ++ closing := by
  obtain ⟨ps, -, -, hps, -⟩ := probe_eq_ok h
  refine ⟨ps, hps, ?_⟩
  rw [outcome_probe hps] at h
  have outcome := congrArg Prod.fst h
  dsimp only at outcome
  split at outcome
  · cases outcome
    rw [← (sectioned (othersIn ps)).closed_lines_eq]
    simp [layout, bodyLines, lastLines, endOf]
  · cases outcome

/-- A probe opens one module for each switch, at the root. -/
theorem opensAtRoot_probe (h : (probe ds).outcome w = (.ok g, w')) :
    OpensAtRoot g.lines (modulesOf ds) := by
  obtain ⟨ps, hps, lines⟩ := probe_lines h
  have kind_mem : ∀ p ∈ ps, p.kind ∈ p.entry.kinds :=
    fun p hp => Dialect.kind_mem_of_interpretAll hps hp
  have valid : ∀ p ∈ ps, p.entry.Valid p.kind :=
    fun p hp => Dialect.valid_of_interpretAll hps hp
  have hsections := sectioned (othersIn ps)
  have of_others : ∀ p ∈ othersIn ps, p ∈ ps := fun p hp => (List.mem_filter.1 hp).1
  have header_part : OpensAtRoot (headerLines (headersIn ps)) [] := by
    refine opensAtRoot_of_stays (fun p hp => ?_) (fun p hp => ?_) none
    · obtain ⟨hp, is_header⟩ := List.mem_filter.1 hp
      exact Entry.module?_of_header (kind_mem p hp) is_header
    · exact valid p (List.mem_filter.1 hp).1
  have root_part := opensAtRoot_of_stays hsections.root_stays
    (fun p hp => valid p (of_others p (hsections.mem_of_mem_root hp))) none
  -- a section may stand behind any other, since each ends its module itself
  have sections_part : OpensAtRoot ((sectionsOf (othersIn ps)).flatMap Section.probeLines)
      ((sectionsOf (othersIn ps)).map Section.name) := by
    refine .flatMap fun s hs => Section.opensAtRoot_probeLines (hsections.stays s hs) ?_
    intro p hp
    exact valid p (of_others p (hsections.mem_of_mem_all hs (List.mem_cons_of_mem _ hp)))
  have banner_part : OpensAtRoot banner [] := .of_plain rfl
  have opening_part : OpensAtRoot (.plain "" :: opening) [] := .of_plain rfl
  have closing_part : OpensAtRoot closing [] := .of_plain rfl
  -- a probe is the parts in this order, and only the sections open modules
  have all_parts := (((banner_part.append header_part).append opening_part).append
    (root_part.append sections_part)).append closing_part
  rw [sectionsOf_names, modules_othersIn kind_mem, Dialect.modules_of_interpretAll hps,
    List.append_nil] at all_parts
  rw [lines]
  exact all_parts

/-- The bindings of a library have one module for each switch, behind their own. -/
theorem rootModules_render {text : String} (hread : directivesOf text = .ok ds)
    (h : (wrapper ds).outcome w = (.ok g, w')) (library : Library) :
    Bindings.rootModules (Bindings.render g.declarations library) = "library" :: modulesOf ds := by
  obtain ⟨ps, hps, rows⟩ := rowsOf_render hread h library
  have no_blank : ∀ s ∈ sectionsOf ps, ' ' ∉ s.name.toList := by
    intro s hs blank
    have name_identifier := ((sectioned ps).declarable_name hps hs).1
    exact absurd (Identifier.isContinue_of_mem name_identifier ' ' blank) (by decide)
  have lines : ((Bindings.linesOf library (rootOf ps) (sectionsOf ps)).map String.toList).map
      String.ofList = Bindings.linesOf library (rootOf ps) (sectionsOf ps) := by
    simp [Function.comp_def]
  rw [Bindings.rootModules, rows, lines, Bindings.modules_linesOf no_blank, sectionsOf_names,
    Dialect.modules_of_interpretAll hps]

/-- **Modules at the root.** For the directives of a text, the bindings of a library have one module
at the root for each switch of namespaces, in the order of the switches and behind their own module
`library`. A probe opens one module for each switch too, and each of them at the root. So the names
of all modules are different exactly where no two switches name the same module, and, in a library,
none names `library`. -/
theorem modules_at_root {text : String} (hread : directivesOf text = .ok ds) :
    (∀ g w w' library, (wrapper ds).outcome w = (.ok g, w') →
      Bindings.rootModules (Bindings.render g.declarations library) = "library" :: modulesOf ds ∧
      ((Bindings.rootModules (Bindings.render g.declarations library)).Nodup ↔
        (modulesOf ds).Nodup ∧ "library" ∉ modulesOf ds)) ∧
    ∀ g w w', (probe ds).outcome w = (.ok g, w') →
      openedModules g.lines = modulesOf ds ∧
      ((openedModules g.lines).Nodup ↔ (modulesOf ds).Nodup) ∧
      ∀ before name after, g.lines = before ++ .call (.namespaceBegin name) :: after →
        AtRoot before := by
  constructor
  · intro g w w' library h
    have modules := rootModules_render hread h library
    refine ⟨modules, ?_⟩
    rw [modules, List.nodup_cons, and_comm]
  · intro g w w' h
    have modules := opensAtRoot_probe h
    exact ⟨modules.opened, by rw [modules.opened], modules.before⟩

/-- Switches to two namespaces, the first of which has a dash in its name. -/
def twoModulesText : String := "(in-namespace a-b)(in-namespace c)"

/-- The directives of that text. -/
def twoModules : List Directive :=
  [⟨"in-namespace", [.symbol ⟨none, "a-b"⟩], 1⟩, ⟨"in-namespace", [.symbol ⟨none, "c"⟩], 1⟩]

/-- The modules of that text are different. -/
theorem modules_at_root_of_two :
    directivesOf twoModulesText = .ok twoModules ∧
    (∃ g, (wrapper twoModules).outcome World.bare = (.ok g, World.bare) ∧
      ∀ library, Bindings.rootModules (Bindings.render g.declarations library) =
        ["library", "a_b", "c"]) ∧
    ∃ g, (probe twoModules).outcome World.bare = (.ok g, World.bare) ∧
      openedModules g.lines = ["a_b", "c"] := by
  have read : directivesOf twoModulesText = .ok twoModules := by decide +kernel
  have names : modulesOf twoModules = ["a_b", "c"] := by decide +kernel
  obtain ⟨of_wrapper, of_probe⟩ := modules_at_root read
  rw [names] at of_wrapper of_probe
  refine ⟨read, ⟨_, rfl, fun library => ?_⟩, ⟨_, rfl, ?_⟩⟩
  · exact (of_wrapper _ World.bare World.bare library rfl).1
  · exact (of_probe _ World.bare World.bare rfl).1

/-! ## A namespace that is come back to -/

/-- Two switches to one namespace. -/
def sameModuleText : String := "(in-namespace a)(in-namespace a)"

/-- The directives of that text. -/
def sameModule : List Directive :=
  [⟨"in-namespace", [.symbol ⟨none, "a"⟩], 1⟩, ⟨"in-namespace", [.symbol ⟨none, "a"⟩], 1⟩]

/-- A module may be defined twice at the root, in the bindings of a library and by a probe. -/
theorem modules_not_distinct :
    (¬ ∀ (text : String) (ds : List Directive) (g : Generated) (w w' : World) (library : Library),
      directivesOf text = .ok ds → (wrapper ds).outcome w = (.ok g, w') →
        (Bindings.rootModules (Bindings.render g.declarations library)).Nodup) ∧
    ¬ ∀ (text : String) (ds : List Directive) (g : Generated) (w w' : World),
      directivesOf text = .ok ds → (probe ds).outcome w = (.ok g, w') →
        (openedModules g.lines).Nodup := by
  have read : directivesOf sameModuleText = .ok sameModule := by decide +kernel
  have names : modulesOf sameModule = ["a", "a"] := by decide +kernel
  constructor
  · intro distinct
    have generated : ∃ g, (wrapper sameModule).outcome World.bare = (.ok g, World.bare) := ⟨_, rfl⟩
    obtain ⟨g, generated⟩ := generated
    let library : Library := ⟨"s", "/o", "libs.so"⟩
    have nodup := distinct sameModuleText sameModule g _ _ library read generated
    rw [rootModules_render read generated, names] at nodup
    exact absurd nodup (by decide)
  · intro distinct
    have generated : ∃ g, (probe sameModule).outcome World.bare = (.ok g, World.bare) := ⟨_, rfl⟩
    obtain ⟨g, generated⟩ := generated
    have nodup := distinct sameModuleText sameModule g _ _ read generated
    rw [(opensAtRoot_probe generated).opened, names] at nodup
    exact absurd nodup (by decide)

end Generated

end ForeignBindings
