import ForeignBindings.Proofs.CodeLines

/-!
# Resolved conditionals

What is left of a program once its conditionals are resolved. Which macros are defined is a setting,
as is what other conditions come to. The lines are read one by one over a stack of conditionals
still open, as a C compiler does it.

* `Preprocessor.resolve` gives the rows that are left, or nothing if the conditionals are not well
  nested.
* `Preprocessor.Yields` says what some lines come down to wherever they stand; it composes along
  `++` (`Yields.append`).
* `yields_iff` says that what lines come down to alone, they come down to wherever they stand.
-/

namespace ForeignBindings.Preprocessor

/-! ## Settings -/

/-- Which macros are defined, and what the conditions come to that ask for anything else. -/
structure Setting where
  defined : String → Bool
  value : String → Bool

/-- What a condition comes to. -/
def Setting.holds (setting : Setting) : Condition → Bool
  | .defined name => setting.defined name
  | .undefined name => !setting.defined name
  | .other text => setting.value text

/-! ## Open conditionals -/

/-- Where an open conditional stands. -/
inductive Branch where
  /-- No branch has been taken yet. -/
  | seeking
  /-- The branch at hand is taken. -/
  | taken
  /-- A branch before has been taken, so no other one is. -/
  | passed
deriving Repr, DecidableEq

/-- What a branch that starts here is, by its condition and what came before it. -/
def Branch.next : Branch → Bool → Branch
  | seeking, true => taken
  | seeking, false => seeking
  | taken, _ => passed
  | passed, _ => passed

/-- A conditional that has not ended. -/
structure Opened where
  branch : Branch
  /-- The `#else` has come, so only the `#endif` may follow. -/
  isLast : Bool
deriving Repr, DecidableEq

/-- The conditionals still open, the innermost first, and the rows that are left so far. -/
structure State where
  opened : List Opened
  kept : List (List Char)
deriving Repr, DecidableEq

namespace State

/-- Every open conditional takes the branch at hand. -/
def isLive (s : State) : Bool :=
  s.opened.all fun o => o.branch == .taken

/-- Keeps rows, unless a branch is not taken. -/
def keep (s : State) (rows : List (List Char)) : State :=
  if s.isLive then { s with kept := s.kept ++ rows } else s

/-- Goes on with a line of a conditional. Only an open one can have another branch or end. -/
def branch (setting : Setting) (s : State) : BranchLine → Option State
  | .first condition =>
    some { s with opened := ⟨Branch.seeking.next (setting.holds condition), false⟩ :: s.opened }
  | .further condition =>
    match s.opened with
    | ⟨branch, false⟩ :: outer =>
      some { s with opened := ⟨branch.next (setting.holds condition), false⟩ :: outer }
    | _ => none
  | .otherwise =>
    match s.opened with
    | ⟨branch, false⟩ :: outer => some { s with opened := ⟨branch.next true, true⟩ :: outer }
    | _ => none
  | .endif =>
    match s.opened with
    | _ :: outer => some { s with opened := outer }
    | [] => none

/-- Reads a line. -/
def line (setting : Setting) (s : State) : Line → Option State
  | .branch b => s.branch setting b
  | .text row => some (s.keep [row])

@[simp] theorem keep_nil (s : State) : s.keep [] = s := by
  simp [keep]

theorem keep_append (s : State) (rows more : List (List Char)) :
    s.keep (rows ++ more) = (s.keep rows).keep more := by
  unfold keep
  by_cases h : s.isLive = true
  · -- keeping rows opens and closes nothing
    have still_live : State.isLive ⟨s.opened, s.kept ++ rows⟩ = true := h
    simp [h, still_live]
  · simp [h]

/-- Reads lines one after the other. -/
def run (setting : Setting) (s : State) (lines : List Line) : Option State :=
  lines.foldlM (State.line setting) s

@[simp] theorem run_nil (setting : Setting) (s : State) : s.run setting [] = some s := rfl

theorem run_cons_of_eq {setting : Setting} {s s' : State} {l : Line}
    (h : s.line setting l = some s') (rest : List Line) :
    s.run setting (l :: rest) = s'.run setting rest := by
  rw [run, List.foldlM_cons, h]
  rfl

theorem run_append_of_eq {setting : Setting} {s s' : State} {lines : List Line}
    (h : s.run setting lines = some s') (more : List Line) :
    s.run setting (lines ++ more) = s'.run setting more := by
  rw [run] at h
  rw [run, List.foldlM_append, h]
  rfl

end State

/-- The rows that are left of some lines in a setting, or nothing if the conditionals are not well
nested. -/
def resolve (setting : Setting) (lines : List Line) : Option (List (List Char)) :=
  (State.run setting ⟨[], []⟩ lines).bind fun s =>
    if s.opened.isEmpty then some s.kept else none

/-! ## Lines in any surroundings -/

/-- Wherever these lines stand, they come down to the rows kept, and open and close their own
conditionals only. -/
def Yields (setting : Setting) (lines : List Line) (kept : List (List Char)) : Prop :=
  ∀ s : State, s.run setting lines = some (s.keep kept)

namespace Yields

variable {setting : Setting} {lines more : List Line} {kept kept' : List (List Char)}

theorem nil : Yields setting [] [] := by
  intro s
  simp

theorem append (h : Yields setting lines kept) (h' : Yields setting more kept') :
    Yields setting (lines ++ more) (kept ++ kept') := by
  intro s
  rw [State.run_append_of_eq (h s), h' (s.keep kept), State.keep_append]

/-- Lines that yield something make a whole program too. -/
theorem resolve_eq (h : Yields setting lines kept) : resolve setting lines = some kept := by
  rw [resolve, h]
  rfl

/-- A row of text stands for itself. -/
theorem text (row : List Char) : Yields setting [.text row] [row] := by
  intro s
  rw [State.run_cons_of_eq rfl, State.run_nil]

end Yields

/-! ## Lines alone -/

namespace State

variable {setting : Setting} {t t' : State}

theorem exists_of_run_cons {l : Line} {lines : List Line}
    (h : t.run setting (l :: lines) = some t') :
    ∃ next, t.line setting l = some next ∧ next.run setting lines = some t' := by
  rw [run, List.foldlM_cons] at h
  cases hline : t.line setting l with
  | none =>
    rw [hline] at h
    cases h
  | some next =>
    rw [hline] at h
    exact ⟨next, rfl, h⟩

/-- The first state, with what the second one has opened and kept inside of it. -/
def enclose (s t : State) : State :=
  { opened := t.opened ++ s.opened
    kept := if s.isLive then s.kept ++ t.kept else s.kept }

theorem enclose_keep (s t : State) (rows : List (List Char)) :
    s.enclose (t.keep rows) = (s.enclose t).keep rows := by
  have live : (s.enclose t).isLive = (t.isLive && s.isLive) := by
    rw [enclose, isLive, List.all_append]
    rfl
  unfold keep
  rw [live]
  cases t.isLive <;> cases hs : s.isLive <;> simp [enclose, hs]

/-- A line that can be read alone is read in the same way inside of other conditionals. -/
theorem line_enclose {l : Line} (h : t.line setting l = some t') (s : State) :
    (s.enclose t).line setting l = some (s.enclose t') := by
  cases l with
  | text row =>
    cases h
    rw [line, enclose_keep]
  | branch b =>
    obtain ⟨opened, kept⟩ := t
    cases b with
    | first condition =>
      cases h
      rfl
    | further condition | otherwise | endif =>
      -- alone, these need a conditional that has been opened by the lines themselves
      cases opened with
      | nil => cases h
      | cons o outer =>
        obtain ⟨branch, isLast⟩ := o
        cases isLast <;> cases h <;> rfl

theorem run_enclose {lines : List Line} (h : t.run setting lines = some t') (s : State) :
    (s.enclose t).run setting lines = some (s.enclose t') := by
  induction lines generalizing t with
  | nil =>
    cases h
    rfl
  | cons l lines ih =>
    obtain ⟨next, hline, hlines⟩ := exists_of_run_cons h
    rw [run_cons_of_eq (line_enclose hline s)]
    exact ih hlines

/-- A line keeps what has been kept, and may be kept itself. -/
theorem mem_kept_of_line {l : Line} (h : t.line setting l = some t') :
    ∀ r ∈ t'.kept, r ∈ t.kept ∨ l = .text r := by
  cases l with
  | branch b =>
    have same_kept : t'.kept = t.kept := by
      cases b with
      | first condition =>
        cases h
        rfl
      | further condition | otherwise | endif =>
        unfold line branch at h
        dsimp only at h
        split at h
        · cases h
          rfl
        · cases h
    rw [same_kept]
    exact fun r hr => .inl hr
  | text row =>
    cases h
    intro r hr
    unfold keep at hr
    split at hr
    · rcases List.mem_append.1 hr with hr | hr
      · exact .inl hr
      · exact .inr (by rw [List.mem_singleton.1 hr])
    · exact .inl hr

theorem mem_kept_of_run {lines : List Line} (h : t.run setting lines = some t') :
    ∀ r ∈ t'.kept, r ∈ t.kept ∨ .text r ∈ lines := by
  induction lines generalizing t with
  | nil =>
    cases h
    exact fun r hr => .inl hr
  | cons l lines ih =>
    obtain ⟨next, hline, hlines⟩ := exists_of_run_cons h
    intro r hr
    rcases ih hlines r hr with earlier | later
    · rcases mem_kept_of_line hline r earlier with before | rfl
      · exact .inl before
      · exact .inr (List.mem_cons_self ..)
    · exact .inr (List.mem_cons_of_mem _ later)

end State

section Alone

variable {setting : Setting} {lines : List Line} {kept : List (List Char)}

theorem run_of_resolve (h : resolve setting lines = some kept) :
    State.run setting ⟨[], []⟩ lines = some ⟨[], kept⟩ := by
  unfold resolve at h
  cases hrun : State.run setting ⟨[], []⟩ lines with
  | none =>
    rw [hrun] at h
    cases h
  | some s =>
    obtain ⟨opened, kept'⟩ := s
    rw [hrun] at h
    cases opened with
    | nil =>
      cases h
      rfl
    | cons o outer => cases h

/-- What lines come down to alone, they come down to wherever they stand. -/
theorem yields_iff : Yields setting lines kept ↔ resolve setting lines = some kept := by
  constructor
  · exact Yields.resolve_eq
  · intro h s
    have inside := State.run_enclose (run_of_resolve h) s
    -- nothing is open at the start, and nothing at the end
    have start : s.enclose ⟨[], []⟩ = s := by
      obtain ⟨opened, before⟩ := s
      simp [State.enclose]
    have finish : s.enclose ⟨[], kept⟩ = s.keep kept := by
      obtain ⟨opened, before⟩ := s
      unfold State.enclose State.keep
      split <;> rfl
    rwa [start, finish] at inside

/-- No row is left that was not there. -/
theorem mem_of_resolve (h : resolve setting lines = some kept) : ∀ r ∈ kept, .text r ∈ lines := by
  intro r hr
  rcases State.mem_kept_of_run (run_of_resolve h) r hr with before | among
  · cases before
  · exact among

end Alone

end ForeignBindings.Preprocessor
