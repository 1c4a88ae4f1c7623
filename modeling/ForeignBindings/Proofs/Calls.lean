import ForeignBindings.Proofs.Drafts

/-!
# Calls of an entry

Which helpers the lines of an entry call. It makes no difference here what conditionals the calls
stand in, so this is all that a program with the lines can ever call for the entry.

* `call_mem_candidateLines` says what a chain of candidates calls.
* `Entry.Makes` has one case for each call that an entry can make, and `Entry.makes_of_mem_added`
  says that its lines make no other.
* `Entry.stays_of_mem_added` says that an entry that opens no module ends none either.
* `Generated.makes_of_mem_lines` says of a whole program what it can call.
-/

namespace ForeignBindings

/-! ## Chains of candidates -/

section Chains

variable {call : String → ProbeCall} {c : ProbeCall}

theorem call_mem_branchLines {candidates : List String} {first : Bool}
    (h : SourceLine.call c ∈ branchLines call first candidates) :
    ∃ native ∈ candidates, c = call native := by
  induction candidates generalizing first with
  | nil => cases h
  | cons candidate rest ih =>
    rw [branchLines, List.mem_cons, List.mem_cons] at h
    rcases h with conditional | this_call | later
    · cases conditional
    · exact ⟨candidate, List.mem_cons_self .., SourceLine.call.inj this_call⟩
    · obtain ⟨native, hnative, hcall⟩ := ih later
      exact ⟨native, List.mem_cons_of_mem _ hnative, hcall⟩

/-- A chain makes the call for a candidate, or reports the name that it is given. -/
theorem call_mem_candidateLines {candidates : List String} {optional : Bool} {missingName : String}
    (h : SourceLine.call c ∈ candidateLines candidates optional missingName call) :
    (∃ native ∈ candidates, c = call native) ∨ (optional = false ∧ c = .missing missingName) := by
  rw [candidateLines, List.mem_append, List.mem_append] at h
  rcases h with (branch | report) | last
  · exact .inl (call_mem_branchLines branch)
  · cases optional with
    | true => cases report
    | false =>
      rcases List.mem_cons.1 report with otherwise | report
      · cases otherwise
      · cases List.mem_singleton.1 report
        exact .inr ⟨rfl, rfl⟩
  · cases List.mem_singleton.1 last

end Chains

/-! ## Calls of an entry -/

/-- The entry can make the call in the module `current` or at the root. -/
inductive Entry.Makes (current : Option String) : Entry → ProbeCall → Prop
  | constant {x : Constant} {native : String} (h : native ∈ x.candidates) :
    Makes current (.constant x) (.constant x.type x.name native x.documentation)
  | missing {x : Constant} (h : x.optional = false) :
    Makes current (.constant x) (.missing x.name)
  | intAlias (a : Alias) :
    Makes current (.intAlias a) (.intAlias a.name a.native a.documentation)
  | recordBegin (r : Record) :
    Makes current (.record r) (.recordBegin r.kind r.name r.native r.documentation)
  | slot {r : Record} {s : Slot} (h : s ∈ r.slots) :
    Makes current (.record r)
      (.slot r.kind r.native s.native s.name (s.type.path current) s.count)
  | recordEnd (r : Record) : Makes current (.record r) .recordEnd
  | enumBegin (e : Enumeration) :
    Makes current (.enumeration e) (.enumBegin e.name (e.base.path current) e.documentation)
  | member {e : Enumeration} {m : Member} {native : String} (hm : m ∈ e.members)
    (h : native ∈ m.candidates) :
    Makes current (.enumeration e) (.enumMember m.name native m.documentation)
  | missingMember {e : Enumeration} {m : Member} (hm : m ∈ e.members) (h : m.optional = false) :
    Makes current (.enumeration e) (.missing (e.name ++ "::" ++ m.name))
  | enumEnd (e : Enumeration) : Makes current (.enumeration e) .enumEnd
  | memberConstant {e : Enumeration} {m : Member} {native : String} (hm : m ∈ e.members)
    (h : native ∈ m.candidates) (hconstants : e.defineConstants = true) :
    Makes current (.enumeration e) (.constant .integer m.name native m.documentation)
  | namespaceEnd (name : String) : Makes current (.inNamespace name) .namespaceEnd
  | namespaceBegin (name : String) : Makes current (.inNamespace name) (.namespaceBegin name)

variable {c : ProbeCall} {current : Option String}

theorem Enumeration.makes_of_mem_memberLines {e : Enumeration} {m : Member} (hm : m ∈ e.members)
    (h : SourceLine.call c ∈ e.memberLines m) : Entry.Makes current (.enumeration e) c := by
  unfold memberLines at h
  split at h
  · rcases call_mem_candidateLines h with ⟨native, hnative, rfl⟩ | ⟨required, rfl⟩
    · exact .member hm hnative
    · exact .missingMember hm required
  · -- plain enumerators have one name, which is not tested for unless they are optional
    unfold Member.plainLines at h
    split at h
    · cases h
    · rename_i native hnative
      have candidate : native ∈ m.candidates := List.mem_of_mem_head? hnative
      have this_call : c = .enumMember m.name native m.documentation := by
        split at h <;> simpa using h
      rw [this_call]
      exact .member hm candidate

theorem Enumeration.makes_of_mem_lines {e : Enumeration}
    (h : SourceLine.call c ∈ e.lines current) : Entry.Makes current (.enumeration e) c := by
  rw [lines, List.cons_append, List.mem_cons, List.mem_append, List.mem_cons] at h
  rcases h with start | member | finish | constant
  · cases start
    exact .enumBegin e
  · obtain ⟨m, hm, hmember⟩ := List.mem_flatMap.1 member
    exact makes_of_mem_memberLines hm hmember
  · cases finish
    exact .enumEnd e
  · split at constant
    · rename_i constants
      obtain ⟨m, hm, hconstant⟩ := List.mem_flatMap.1 constant
      -- a member is optional as a constant, so nothing is reported
      rcases call_mem_candidateLines hconstant with ⟨native, hnative, rfl⟩ | ⟨required, -⟩
      · exact .memberConstant hm hnative constants
      · cases required
    · cases constant

theorem Record.makes_of_mem_lines {r : Record} (h : SourceLine.call c ∈ r.lines current) :
    Entry.Makes current (.record r) c := by
  rw [lines, List.cons_append, List.mem_cons, List.mem_append, List.mem_singleton] at h
  rcases h with start | slot | finish
  · cases start
    exact .recordBegin r
  · obtain ⟨s, hs, hslot⟩ := List.mem_map.1 slot
    cases hslot
    exact .slot hs
  · cases finish
    exact .recordEnd r

/-- **Calls of an entry.** The lines of an entry make no other calls than those of the entry. -/
theorem Entry.makes_of_mem_added {e : Entry} {mode : Mode}
    (h : SourceLine.call c ∈ (e.added mode current).lines) : e.Makes current c := by
  cases e with
  | constant x =>
    rcases call_mem_candidateLines (show SourceLine.call c ∈ x.lines from h) with
      ⟨native, hnative, rfl⟩ | ⟨required, rfl⟩
    · exact .constant hnative
    · exact .missing required
  | enumeration e => exact Enumeration.makes_of_mem_lines h
  | record r => exact Record.makes_of_mem_lines h
  | intAlias a =>
    cases List.mem_singleton.1 (show SourceLine.call c ∈ a.lines from h)
    exact .intAlias a
  | inNamespace name =>
    cases mode with
    | wrapper => cases h
    | probe =>
      have lines : SourceLine.call c ∈
          (if current.isSome then [.call .namespaceEnd] else []) ++
            [SourceLine.call (.namespaceBegin name)] := h
      rw [List.mem_append, List.mem_singleton] at lines
      rcases lines with finish | start
      · split at finish
        · cases List.mem_singleton.1 finish
          exact .namespaceEnd name
        · cases finish
      · cases start
        exact .namespaceBegin name
  | define name value =>
    cases value <;> simp [added, Draft.absorb, Draft.write, Draft.defineLine] at h
  | flags words | packages names optional => cases h
  | verbatim _ | headers _ | typedef _ _ | wrapper _ =>
    simp [added, Draft.absorb, Draft.write, Draft.declare, Definition.lines] at h

/-- The line opens no module and ends none. -/
def SourceLine.StaysInModule (l : SourceLine) : Prop :=
  (∀ name, l ≠ .call (.namespaceBegin name)) ∧ l ≠ .call .namespaceEnd

/-- An entry that opens no module has nothing to do with modules. -/
theorem Entry.stays_of_mem_added {e : Entry} (h : e.module? = none) {mode : Mode}
    {current : Option String} {l : SourceLine} (hl : l ∈ (e.added mode current).lines) :
    l.StaysInModule := by
  constructor
  · rintro name rfl
    cases makes_of_mem_added hl
    cases h
  · rintro rfl
    cases makes_of_mem_added hl
    cases h

/-- Whatever a draft calls in the end, it has called before, or one of its entries calls it. -/
theorem Draft.Collects.makes_of_mem_lines {s s' : Draft} {ps : List Placed}
    (h : s.Collects ps s') (hcall : SourceLine.call c ∈ s'.lines) :
    SourceLine.call c ∈ s.lines ∨ ∃ p ∈ ps, ∃ current, p.entry.Makes current c := by
  induction h with
  | nil => exact .inl hcall
  | cons first rest ih =>
    rcases ih hcall with earlier | ⟨p, hp, hmakes⟩
    · rw [first.lines_eq, List.mem_append] at earlier
      rcases earlier with before | added
      · exact .inl before
      · exact .inr ⟨_, List.mem_cons_self .., _, Entry.makes_of_mem_added added⟩
    · exact .inr ⟨p, List.mem_cons_of_mem _ hp, hmakes⟩

/-! ## Calls of a program -/

namespace Generated

theorem call_not_mem_banner : SourceLine.call c ∉ banner := by
  simp [banner]

theorem call_not_mem_opening : SourceLine.call c ∉ SourceLine.plain "" :: opening := by
  simp [opening]

theorem call_not_mem_closing : SourceLine.call c ∉ closing := by
  simp [closing]

/-- **Calls of a program.** What a generated program calls comes from an entry of one of its
directives, except that a module may be ended behind all of them. -/
theorem makes_of_mem_lines {mode : Mode} {ds : List Spec.Directive} {g : Generated} {w w' : World}
    (h : (ofDirectives mode ds).outcome w = (.ok g, w')) (hcall : SourceLine.call c ∈ g.lines) :
    c = .namespaceEnd ∨ ∃ d ∈ ds, ∃ p current, (Dialect.ofMode mode).interpret d = .ok p ∧
      p.entry.Makes current c := by
  -- an entry that has been taken stands for some directive
  have of_entry : ∀ {ps : List Placed}, (Dialect.ofMode mode).interpretAll ds = .ok ps →
      (∃ p ∈ ps, ∃ current, p.entry.Makes current c) →
        ∃ d ∈ ds, ∃ p current, (Dialect.ofMode mode).interpret d = .ok p ∧
          p.entry.Makes current c := by
    rintro ps hps ⟨p, hp, current, hmakes⟩
    obtain ⟨d, hd, hdp⟩ := Dialect.exists_interpret_of_mem hps hp
    exact ⟨d, hd, p, current, hdp, hmakes⟩
  cases mode with
  | wrapper =>
    obtain ⟨ps, s, hps, hall, rfl⟩ := wrapper_eq_ok h
    rcases hall.makes_of_mem_lines hcall with fixed | entry
    · exact absurd fixed call_not_mem_banner
    · exact .inr (of_entry hps entry)
  | probe =>
    obtain ⟨ps, s₁, s₂, hps, hheader, hbody, rfl⟩ := probe_eq_ok h
    have part : ∀ {keep : Placed → Bool},
        (∃ p ∈ ps.filter keep, ∃ current, p.entry.Makes current c) →
          ∃ p ∈ ps, ∃ current, p.entry.Makes current c := by
      rintro keep ⟨p, hp, hmakes⟩
      exact ⟨p, (List.mem_filter.1 hp).1, hmakes⟩
    have lines : SourceLine.call c ∈ s₂.lines ++ s₂.closingLines ++ closing := hcall
    rw [List.mem_append, List.mem_append] at lines
    rcases lines with (body | finish) | fixed
    · rcases hbody.makes_of_mem_lines body with earlier | entry
      · have before_body : SourceLine.call c ∈ s₁.lines ++ SourceLine.plain "" :: opening := earlier
        rcases List.mem_append.1 before_body with header | fixed
        · rcases hheader.makes_of_mem_lines header with fixed | entry
          · exact absurd fixed call_not_mem_banner
          · exact .inr (of_entry hps (part entry))
        · exact absurd fixed call_not_mem_opening
      · exact .inr (of_entry hps (part entry))
    · -- the end of the last module
      unfold Draft.closingLines at finish
      split at finish
      · cases List.mem_singleton.1 finish
        exact .inl rfl
      · cases finish
    · exact absurd fixed call_not_mem_closing

end Generated

end ForeignBindings
