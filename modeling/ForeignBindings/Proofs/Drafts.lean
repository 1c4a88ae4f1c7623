import ForeignBindings.Proofs.Actions
import ForeignBindings.Proofs.Dialects
import ForeignBindings.Source.Program

/-!
# What drafts collect

A draft only grows, and what an entry adds to it depends on the module that is open alone. That
module is the last one that an entry has asked for.

* `Draft.Takes` is one step of a draft, and `Draft.takes_of_accept` says that accepting an entry is
  such a step, whatever the packages of the host are.
* `Draft.Collects` is a run of steps. Its lemmas say which module is open after it.
* `Generated.probe_eq_ok` and `Generated.wrapper_eq_ok` give the runs that a program comes from.
-/

namespace ForeignBindings

open Spec Checks

/-! ## Modules of entries -/

/-- The module that an entry opens. -/
def Entry.module? : Entry → Option String
  | .inNamespace name => some name
  | _ => none

/-- The module that is open after some entries. -/
def moduleAfter (current : Option String) (ps : List Placed) : Option String :=
  ps.foldl (fun current p => p.entry.module?.or current) current

@[simp] theorem moduleAfter_nil (current : Option String) : moduleAfter current [] = current := rfl

@[simp] theorem moduleAfter_cons (current : Option String) (p : Placed) (ps : List Placed) :
    moduleAfter current (p :: ps) = moduleAfter (p.entry.module?.or current) ps := rfl

/-- Entries that open no module may be left out. -/
theorem moduleAfter_filter {keep : Placed → Bool} {ps : List Placed}
    (h : ∀ p ∈ ps, keep p = false → p.entry.module? = none) (current : Option String) :
    moduleAfter current (ps.filter keep) = moduleAfter current ps := by
  induction ps generalizing current with
  | nil => rfl
  | cons p ps ih =>
    have hrest := ih fun q hq => h q (List.mem_cons_of_mem _ hq)
    rw [moduleAfter_cons, ← hrest]
    cases hkeep : keep p with
    | true => rw [List.filter_cons_of_pos hkeep, moduleAfter_cons]
    | false =>
      have no_module := h p (List.mem_cons_self ..) hkeep
      rw [List.filter_cons_of_neg (by simp [hkeep]), no_module, Option.none_or]

/-- Where no entry opens a module, the same one stays open. -/
theorem moduleAfter_eq_self {ps : List Placed} (h : ∀ p ∈ ps, p.entry.module? = none)
    (current : Option String) : moduleAfter current ps = current := by
  induction ps with
  | nil => rfl
  | cons p ps ih =>
    rw [moduleAfter_cons, h p (List.mem_cons_self ..), Option.none_or]
    exact ih fun q hq => h q (List.mem_cons_of_mem _ hq)

/-! ## Steps of a draft -/

/-- What an entry adds in a module, or at the root. -/
def Entry.added (e : Entry) (mode : Mode) (current : Option String) : Draft :=
  Draft.absorb ⟨mode, [], [], [], current⟩ e

namespace Draft

/-- The second draft is the first one after it has taken an entry, but for its flags. -/
structure Takes (s : Draft) (p : Placed) (s' : Draft) : Prop where
  mode_eq : s'.mode = s.mode
  current_eq : s'.current = p.entry.module?.or s.current
  lines_eq : s'.lines = s.lines ++ (p.entry.added s.mode s.current).lines
  declarations_eq :
    s'.declarations = s.declarations ++ (p.entry.added s.mode s.current).declarations

theorem takes_absorb (s : Draft) (p : Placed) : s.Takes p (s.absorb p.entry) := by
  cases hentry : p.entry with
  | inNamespace name =>
    -- the only entry that changes the module, and the only one that the mode matters to
    cases hmode : s.mode <;>
      constructor <;>
        simp [hentry, hmode, Entry.module?, Entry.added, absorb, openModule, write, declare,
          closingLines]
  | _ =>
    constructor <;>
      simp [hentry, Entry.module?, Entry.added, absorb, write, declare, withFlags]

theorem takes_of_packages {s s' : Draft} {p : Placed} {names : List String} {optional : Bool}
    (hentry : p.entry = .packages names optional) (hmode : s'.mode = s.mode)
    (hcurrent : s'.current = s.current) (hlines : s'.lines = s.lines)
    (hdeclarations : s'.declarations = s.declarations) : s.Takes p s' := by
  constructor <;>
    simp [hentry, Entry.module?, Entry.added, absorb, hmode, hcurrent, hlines, hdeclarations]

/-- What comes of the packages of an entry is decided by one command. -/
theorem run_addPackages (s : Draft) (line : Nat) (names : List String) (optional : Bool)
    (w : World) :
    StateT.run (s.addPackages line names optional) w =
      match (Command.packageFlags names).outcome w with
      | (.ok flags, w') => ((.ok (), s.withFlags flags), w')
      | (.error cause, w') =>
        if optional then
          ((.ok (), s), w'.record ⟨.warn, logOrigin,
            "skipping optional pkg-config packages " ++ " ".intercalate names ++ ": " ++
              cause.message⟩)
        else ((.error (.packages line names cause), s), w') := by
  unfold addPackages Action.outcome
  rw [Action.run_bind]
  cases StateT.run (ExceptT.run (Command.packageFlags names)) w with
  | mk result w' =>
    cases result with
    | ok flags => rfl
    | error cause => cases optional <;> rfl

/-- An entry that is accepted is taken, whatever the host says of its packages. -/
theorem takes_of_accept {s s' : Draft} {p : Placed} {w w' : World}
    (h : StateT.run (s.accept p) w = ((.ok (), s'), w')) : s.Takes p s' := by
  cases hentry : p.entry with
  | packages names optional =>
    -- packages change the flags, or nothing where they are skipped
    rw [accept, hentry] at h
    dsimp only at h
    rw [run_addPackages] at h
    cases hflags : (Command.packageFlags names).outcome w with
    | mk result w₁ =>
      rw [hflags] at h
      cases result with
      | ok flags =>
        cases h
        exact takes_of_packages hentry rfl rfl rfl rfl
      | error cause =>
        cases optional with
        | true =>
          cases h
          exact takes_of_packages hentry rfl rfl rfl rfl
        | false => cases h
  | _ =>
    have absorbed : s.absorb p.entry = s' := by
      rw [accept, hentry] at h
      cases h
      rw [hentry]
    rw [← absorbed]
    exact takes_absorb s p

/-! ## Runs of a draft -/

/-- The second draft is the first one after it has taken some entries, but for its flags. -/
inductive Collects : Draft → List Placed → Draft → Prop
  | nil (s : Draft) : Collects s [] s
  | cons {s s' s'' : Draft} {p : Placed} {ps : List Placed} (first : s.Takes p s')
    (rest : Collects s' ps s'') : Collects s (p :: ps) s''

theorem run_acceptAll_cons (s : Draft) (p : Placed) (ps : List Placed) (w : World) :
    StateT.run (s.acceptAll (p :: ps)) w =
      match StateT.run (s.accept p) w with
      | ((.ok (), s'), w') => StateT.run (s'.acceptAll ps) w'
      | ((.error e, s'), w') => ((.error e, s'), w') := by
  rw [acceptAll, Action.run_bind]
  cases StateT.run (s.accept p) w with
  | mk taken w' =>
    obtain ⟨result, s'⟩ := taken
    cases result <;> rfl

theorem collects_of_acceptAll {s s' : Draft} {ps : List Placed} {w w' : World}
    (h : StateT.run (s.acceptAll ps) w = ((.ok (), s'), w')) : s.Collects ps s' := by
  induction ps generalizing s w with
  | nil =>
    cases h
    exact .nil _
  | cons p ps ih =>
    rw [run_acceptAll_cons] at h
    cases hfirst : StateT.run (s.accept p) w with
    | mk result w₁ =>
      obtain ⟨outcome, s₁⟩ := result
      rw [hfirst] at h
      cases outcome with
      | error e => cases h
      | ok _ => exact .cons (takes_of_accept hfirst) (ih h)

namespace Collects

variable {s s' : Draft} {ps : List Placed}

theorem mode_eq (h : s.Collects ps s') : s'.mode = s.mode := by
  induction h with
  | nil => rfl
  | cons first rest ih => rw [ih, first.mode_eq]

theorem current_eq (h : s.Collects ps s') : s'.current = moduleAfter s.current ps := by
  induction h with
  | nil => rfl
  | cons first rest ih => rw [ih, first.current_eq, moduleAfter_cons]

end Collects

end Draft

/-! ## Generated programs -/

/-- A header is plain text. -/
theorem Entry.plain_of_header {e : Entry} {k : Kind} (hk : k ∈ e.kinds) (h : k.isHeader = true) :
    (∃ lines, e = .verbatim lines) ∨ (∃ names, e = .headers names) ∨
      (∃ name value, e = .define name value) ∨ ∃ base name, e = .typedef base name := by
  cases e with
  | verbatim lines => exact .inl ⟨_, rfl⟩
  | headers names => exact .inr (.inl ⟨_, rfl⟩)
  | define name value => exact .inr (.inr (.inl ⟨_, _, rfl⟩))
  | typedef base name => exact .inr (.inr (.inr ⟨_, _, rfl⟩))
  | _ =>
    -- directives of any other entry are no headers
    simp only [Entry.kinds, List.mem_cons, List.not_mem_nil, or_false] at hk
    rcases hk with rfl | rfl <;> cases h

theorem Entry.module?_of_header {e : Entry} {k : Kind} (hk : k ∈ e.kinds)
    (h : k.isHeader = true) : e.module? = none := by
  rcases plain_of_header hk h with ⟨_, rfl⟩ | ⟨_, rfl⟩ | ⟨_, _, rfl⟩ | ⟨_, _, rfl⟩ <;> rfl

theorem Dialect.kind_mem_of_interpretAll {mode : Mode} {ds : List Directive} {ps : List Placed}
    (h : (ofMode mode).interpretAll ds = .ok ps) {p : Placed} (hp : p ∈ ps) :
    p.kind ∈ p.entry.kinds := by
  obtain ⟨d, -, hd⟩ := exists_interpret_of_mem h hp
  exact kind_mem_kinds hd

namespace Generated

theorem outcome_collect (s : Draft) (ps : List Placed) (w : World) :
    (collect s ps).outcome w =
      match StateT.run (s.acceptAll ps) w with
      | ((.ok (), s'), w') => (.ok s', w')
      | ((.error e, _), w') => (.error e, w') := by
  rw [collect, Action.outcome_bind_of_ok (Action.outcome_liftM_state (s.acceptAll ps) w)]
  cases StateT.run (s.acceptAll ps) w with
  | mk taken w' =>
    obtain ⟨result, s'⟩ := taken
    cases result <;> rfl

theorem collects_of_collect {s s' : Draft} {ps : List Placed} {w w' : World}
    (h : (collect s ps).outcome w = (.ok s', w')) : s.Collects ps s' := by
  rw [outcome_collect] at h
  cases hrun : StateT.run (s.acceptAll ps) w with
  | mk taken w₁ =>
    obtain ⟨result, s₁⟩ := taken
    rw [hrun] at h
    cases result with
    | error e => cases h
    | ok _ =>
      cases h
      exact Draft.collects_of_acceptAll hrun

/-- The two runs that a probe goes through, over its headers and over the rest. -/
theorem probe_eq_ok {ds : List Directive} {g : Generated} {w w' : World}
    (h : (probe ds).outcome w = (.ok g, w')) :
    ∃ ps s₁ s₂, (Dialect.ofMode .probe).interpretAll ds = .ok ps ∧
      ((Draft.start .probe).write banner).Collects (ps.filter fun p => p.kind.isHeader) s₁ ∧
      (s₁.write (.plain "" :: opening)).Collects (ps.filter fun p => !p.kind.isHeader) s₂ ∧
      g = ofDraft (s₂.closeModule.write closing) := by
  obtain ⟨ps, w₁, hps, h⟩ := Action.outcome_bind_eq_ok.1 h
  have entries_ok : entries .probe ds = .ok ps := congrArg Prod.fst hps
  rw [List.partition_eq_filter_filter] at h
  obtain ⟨s₁, w₂, hheader, h⟩ := Action.outcome_bind_eq_ok.1 h
  obtain ⟨s₂, w₃, hbody, h⟩ := Action.outcome_bind_eq_ok.1 h
  cases h
  exact ⟨ps, s₁, s₂, ok_of_mapError entries_ok, collects_of_collect hheader,
    collects_of_collect hbody, rfl⟩

theorem wrapper_eq_ok {ds : List Directive} {g : Generated} {w w' : World}
    (h : (wrapper ds).outcome w = (.ok g, w')) :
    ∃ ps s, (Dialect.ofMode .wrapper).interpretAll ds = .ok ps ∧
      ((Draft.start .wrapper).write banner).Collects ps s ∧ g = ofDraft s := by
  obtain ⟨ps, w₁, hps, h⟩ := Action.outcome_bind_eq_ok.1 h
  have entries_ok : entries .wrapper ds = .ok ps := congrArg Prod.fst hps
  obtain ⟨s, w₂, hall, h⟩ := Action.outcome_bind_eq_ok.1 h
  cases h
  exact ⟨ps, s, ok_of_mapError entries_ok, collects_of_collect hall, rfl⟩

end Generated

end ForeignBindings
