import ForeignBindings.Proofs.Packages

/-!
# Sections of a specification

Each switch to a module starts a section, which goes on to the next switch. What stands in front of
all switches is at the root.

* `rootOf` and `sectionsOf` split entries so, and `sectioned` says that nothing is lost.
* `alongFrom` goes along entries with the module that is open, and `Section.alongFrom_all` goes
  through one section.
* `Sectioned.closed_lines_eq` gives the lines of a probe whose last module is ended, section by
  section.
* `Sectioned.declarations_eq` gives the declarations of a wrapper library.
-/

namespace ForeignBindings

/-- A switch to a module, and the entries behind it up to the next switch. -/
structure Section where
  switch : Placed
  /-- The module that the switch opens. -/
  name : String
  entries : List Placed

/-- The entries of a section, with its switch. -/
def Section.all (s : Section) : List Placed :=
  s.switch :: s.entries

/-- The entries in front of the first switch. -/
def rootOf (ps : List Placed) : List Placed :=
  ps.takeWhile fun p => p.entry.module?.isNone

/-- The sections of some entries. -/
def sectionsOf : List Placed → List Section
  | [] => []
  | p :: ps =>
    match p.entry.module? with
    | some name => ⟨p, name, rootOf ps⟩ :: sectionsOf ps
    | none => sectionsOf ps

/-- The entries stand at the root, up to the first switch, and then in sections. -/
structure Sectioned (ps root : List Placed) (sections : List Section) : Prop where
  eq : ps = root ++ sections.flatMap Section.all
  root_stays : ∀ p ∈ root, p.entry.module? = none
  switch_eq : ∀ s ∈ sections, s.switch.entry = .inNamespace s.name
  stays : ∀ s ∈ sections, ∀ p ∈ s.entries, p.entry.module? = none

theorem Entry.eq_inNamespace_of_module? {e : Entry} {name : String} (h : e.module? = some name) :
    e = .inNamespace name := by
  cases e with
  | inNamespace other =>
    cases h
    rfl
  | _ => cases h

/-- All entries can be split into sections. -/
theorem sectioned (ps : List Placed) : Sectioned ps (rootOf ps) (sectionsOf ps) := by
  induction ps with
  | nil => exact ⟨rfl, by simp [rootOf], by simp [sectionsOf], by simp [sectionsOf]⟩
  | cons p ps ih =>
    cases hp : p.entry.module? with
    | none =>
      have root_eq : rootOf (p :: ps) = p :: rootOf ps := by
        rw [rootOf, List.takeWhile_cons_of_pos (by simp [hp]), rootOf]
      have sections_eq : sectionsOf (p :: ps) = sectionsOf ps := by
        rw [sectionsOf, hp]
      rw [root_eq, sections_eq]
      refine ⟨?_, ?_, ih.switch_eq, ih.stays⟩
      · rw [List.cons_append, ← ih.eq]
      · intro q hq
        rcases List.mem_cons.1 hq with rfl | hq
        · exact hp
        · exact ih.root_stays q hq
    | some name =>
      -- what is at the root of the rest is in the section of this switch
      have root_eq : rootOf (p :: ps) = [] := by
        rw [rootOf, List.takeWhile_cons_of_neg (by simp [hp])]
      have sections_eq : sectionsOf (p :: ps) = ⟨p, name, rootOf ps⟩ :: sectionsOf ps := by
        rw [sectionsOf, hp]
      rw [root_eq, sections_eq]
      refine ⟨?_, by simp, ?_, ?_⟩
      · rw [List.nil_append, List.flatMap_cons, Section.all, List.cons_append, ← ih.eq]
      · intro s hs
        rcases List.mem_cons.1 hs with rfl | hs
        · exact Entry.eq_inNamespace_of_module? hp
        · exact ih.switch_eq s hs
      · intro s hs
        rcases List.mem_cons.1 hs with rfl | hs
        · exact ih.root_stays
        · exact ih.stays s hs

namespace Sectioned

variable {ps root : List Placed} {sections : List Section}

theorem mem_of_mem_root (h : Sectioned ps root sections) {p : Placed} (hp : p ∈ root) :
    p ∈ ps := by
  rw [h.eq]
  exact List.mem_append_left _ hp

theorem mem_of_mem_all (h : Sectioned ps root sections) {s : Section} (hs : s ∈ sections)
    {p : Placed} (hp : p ∈ s.all) : p ∈ ps := by
  rw [h.eq]
  exact List.mem_append_right _ (List.mem_flatMap.2 ⟨s, hs, hp⟩)

end Sectioned

/-! ## Along entries -/

/-- What comes of entries one after the other, each of them in the module that is open when it
comes. -/
def alongFrom {α : Type} (f : Option String → Entry → List α) :
    Option String → List Placed → List α
  | _, [] => []
  | current, p :: ps => f current p.entry ++ alongFrom f (p.entry.module?.or current) ps

theorem linesFrom_eq (mode : Mode) (current : Option String) (ps : List Placed) :
    linesFrom mode current ps = alongFrom (fun c e => (e.added mode c).lines) current ps := by
  induction ps generalizing current with
  | nil => rfl
  | cons p ps ih => rw [linesFrom, alongFrom, ih]

theorem declarationsFrom_eq (mode : Mode) (current : Option String) (ps : List Placed) :
    declarationsFrom mode current ps =
      alongFrom (fun c e => (e.added mode c).declarations) current ps := by
  induction ps generalizing current with
  | nil => rfl
  | cons p ps ih => rw [declarationsFrom, alongFrom, ih]

theorem moduleAfter_append (current : Option String) (ps qs : List Placed) :
    moduleAfter current (ps ++ qs) = moduleAfter (moduleAfter current ps) qs :=
  List.foldl_append

section Along

variable {α : Type} (f : Option String → Entry → List α)

theorem alongFrom_append (current : Option String) (ps qs : List Placed) :
    alongFrom f current (ps ++ qs) =
      alongFrom f current ps ++ alongFrom f (moduleAfter current ps) qs := by
  induction ps generalizing current with
  | nil => rfl
  | cons p ps ih =>
    rw [List.cons_append, alongFrom, alongFrom, ih, moduleAfter_cons, List.append_assoc]

/-- Entries that all stand in the same module. -/
theorem alongFrom_of_stays {ps : List Placed} (h : ∀ p ∈ ps, p.entry.module? = none)
    (current : Option String) :
    alongFrom f current ps = ps.flatMap fun p => f current p.entry := by
  induction ps with
  | nil => rfl
  | cons p ps ih =>
    have hrest := ih fun q hq => h q (List.mem_cons_of_mem _ hq)
    rw [alongFrom, h p (List.mem_cons_self ..), Option.none_or, hrest, List.flatMap_cons]

namespace Section

variable {s : Section}

theorem moduleAfter_all (hswitch : s.switch.entry = .inNamespace s.name)
    (hstays : ∀ p ∈ s.entries, p.entry.module? = none) (current : Option String) :
    moduleAfter current s.all = some s.name := by
  rw [all, moduleAfter_cons, hswitch]
  exact moduleAfter_eq_self hstays _

/-- The switch still stands in the module before, and all that is behind it in its own. -/
theorem alongFrom_all (hswitch : s.switch.entry = .inNamespace s.name)
    (hstays : ∀ p ∈ s.entries, p.entry.module? = none) (current : Option String) :
    alongFrom f current s.all =
      f current (.inNamespace s.name) ++ s.entries.flatMap fun p => f (some s.name) p.entry := by
  rw [all, alongFrom, hswitch]
  show _ ++ alongFrom f (some s.name) s.entries = _
  rw [alongFrom_of_stays f hstays]

end Section

/-- The root comes first, and behind it the sections start at the root. -/
theorem Sectioned.alongFrom_eq {ps root : List Placed} {sections : List Section}
    (h : Sectioned ps root sections) :
    alongFrom f none ps =
      (root.flatMap fun p => f none p.entry) ++
        alongFrom f none (sections.flatMap Section.all) := by
  rw [h.eq, alongFrom_append, alongFrom_of_stays f h.root_stays, moduleAfter_eq_self h.root_stays]

end Along

/-! ## Lines and declarations of drafts -/

/-- Collecting entries adds the lines along them. -/
theorem Draft.Collects.lines_eq {s s' : Draft} {ps : List Placed} (h : s.Collects ps s') :
    s'.lines = s.lines ++ linesFrom s.mode s.current ps := by
  induction h with
  | nil => rw [linesFrom, List.append_nil]
  | cons first rest ih =>
    rw [ih, first.lines_eq, first.mode_eq, first.current_eq, linesFrom, List.append_assoc]

theorem Draft.Collects.declarations_eq {s s' : Draft} {ps : List Placed} (h : s.Collects ps s') :
    s'.declarations = s.declarations ++ declarationsFrom s.mode s.current ps := by
  induction h with
  | nil => rw [declarationsFrom, List.append_nil]
  | cons first rest ih =>
    rw [ih, first.declarations_eq, first.mode_eq, first.current_eq, declarationsFrom,
      List.append_assoc]

/-- The line that ends a module, if one is open. -/
def endOf (current : Option String) : List SourceLine :=
  if current.isSome then [.call .namespaceEnd] else []

/-- The lines of a section of a probe, from the start of its module to the end. -/
def Section.probeLines (s : Section) : List SourceLine :=
  .call (.namespaceBegin s.name) ::
    (s.entries.flatMap fun p => (p.entry.added .probe (some s.name)).lines) ++
    [.call .namespaceEnd]

/-- In a probe, the module that is open is ended in front of the first section and behind the
last one. -/
theorem closed_linesFrom_sections {sections : List Section}
    (hswitch : ∀ s ∈ sections, s.switch.entry = .inNamespace s.name)
    (hstays : ∀ s ∈ sections, ∀ p ∈ s.entries, p.entry.module? = none) (current : Option String) :
    alongFrom (fun c e => (e.added .probe c).lines) current (sections.flatMap Section.all) ++
        endOf (moduleAfter current (sections.flatMap Section.all)) =
      endOf current ++ sections.flatMap Section.probeLines := by
  induction sections generalizing current with
  | nil =>
    show [] ++ endOf current = endOf current ++ []
    rw [List.nil_append, List.append_nil]
  | cons s sections ih =>
    have switch_eq := hswitch s (List.mem_cons_self ..)
    have stays := hstays s (List.mem_cons_self ..)
    have rest := ih (fun t ht => hswitch t (List.mem_cons_of_mem _ ht))
      (fun t ht => hstays t (List.mem_cons_of_mem _ ht)) (some s.name)
    -- the end of the module before is due to the switch, so it belongs to the section behind it
    have switch_lines : ((Entry.inNamespace s.name).added .probe current).lines =
        endOf current ++ [.call (.namespaceBegin s.name)] := rfl
    rw [List.flatMap_cons, List.flatMap_cons, moduleAfter_append, alongFrom_append,
      Section.moduleAfter_all switch_eq stays, Section.alongFrom_all _ switch_eq stays,
      switch_lines, List.append_assoc, rest]
    simp [endOf, Section.probeLines]

theorem declarationsFrom_sections {sections : List Section}
    (hswitch : ∀ s ∈ sections, s.switch.entry = .inNamespace s.name)
    (hstays : ∀ s ∈ sections, ∀ p ∈ s.entries, p.entry.module? = none) (current : Option String) :
    alongFrom (fun c e => (e.added .wrapper c).declarations) current
        (sections.flatMap Section.all) =
      sections.flatMap fun s => .inNamespace s.name ::
        s.entries.flatMap fun p => (p.entry.added .wrapper (some s.name)).declarations := by
  induction sections generalizing current with
  | nil => rfl
  | cons s sections ih =>
    have switch_eq := hswitch s (List.mem_cons_self ..)
    have stays := hstays s (List.mem_cons_self ..)
    have rest := ih (fun t ht => hswitch t (List.mem_cons_of_mem _ ht))
      (fun t ht => hstays t (List.mem_cons_of_mem _ ht)) (some s.name)
    rw [List.flatMap_cons, List.flatMap_cons, alongFrom_append,
      Section.moduleAfter_all switch_eq stays, Section.alongFrom_all _ switch_eq stays, rest]
    rfl

namespace Sectioned

variable {ps root : List Placed} {sections : List Section}

/-- The lines of a probe whose last module is ended. -/
theorem closed_lines_eq (h : Sectioned ps root sections) :
    linesFrom .probe none ps ++ endOf (moduleAfter none ps) =
      (root.flatMap fun p => (p.entry.added .probe none).lines) ++
        sections.flatMap Section.probeLines := by
  have module_eq : moduleAfter none ps = moduleAfter none (sections.flatMap Section.all) := by
    rw [h.eq, moduleAfter_append, moduleAfter_eq_self h.root_stays]
  have rest := closed_linesFrom_sections h.switch_eq h.stays none
  rw [linesFrom_eq, h.alongFrom_eq, module_eq, List.append_assoc, rest]
  rfl

/-- The declarations of a wrapper library: a switch declares its module, and what is behind it
declares functions of that module. -/
theorem declarations_eq (h : Sectioned ps root sections) :
    declarationsFrom .wrapper none ps =
      (root.flatMap fun p => (p.entry.added .wrapper none).declarations) ++
        sections.flatMap fun s => .inNamespace s.name ::
          s.entries.flatMap fun p => (p.entry.added .wrapper (some s.name)).declarations := by
  rw [declarationsFrom_eq, h.alongFrom_eq, declarationsFrom_sections h.switch_eq h.stays]

end Sectioned

end ForeignBindings
