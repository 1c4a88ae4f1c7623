import ForeignBindings.Proofs.Preprocessor
import ForeignBindings.Source.Items

/-!
# Chains of candidates

What the conditionals around the calls for a list of candidates come down to, for every set of
defined macros.

* `candidateCalls` is a chain of candidates read directly: the first one defined, or the report of
  a missing name.
* `yields_candidateLines` says that the chain of conditionals comes down to the direct reading.
-/

namespace ForeignBindings

open Preprocessor

/-! ## Inside one more conditional -/

namespace Preprocessor.State

/-- The state inside one more conditional. -/
def within (s : State) (o : Opened) : State :=
  ⟨o :: s.opened, s.kept⟩

theorem keep_within_taken (s : State) (isLast : Bool) (rows : List (List Char)) :
    (s.within ⟨.taken, isLast⟩).keep rows = (s.keep rows).within ⟨.taken, isLast⟩ := by
  -- a branch that is taken is as live as what is around it
  have same_life : (s.within ⟨.taken, isLast⟩).isLive = s.isLive := by
    simp [within, isLive]
  unfold keep
  rw [same_life]
  split <;> rfl

theorem keep_within_of_ne_taken (s : State) {o : Opened} (h : o.branch ≠ .taken)
    (rows : List (List Char)) : (s.within o).keep rows = s.within o := by
  have dead : (s.within o).isLive = false := by
    simp [within, isLive, h]
  simp [keep, dead]

variable {setting : Setting}

theorem line_call (s : State) (c : ProbeCall) :
    s.line setting (SourceLine.call c).line = some (s.keep [c.text.toList]) := rfl

theorem line_ifDefined (s : State) (name : String) :
    s.line setting (SourceLine.conditional (.ifDefined name)).line =
      some (s.within ⟨Branch.seeking.next (setting.defined name), false⟩) := rfl

theorem line_elifDefined (s : State) (branch : Branch) (name : String) :
    (s.within ⟨branch, false⟩).line setting (SourceLine.conditional (.elifDefined name)).line =
      some (s.within ⟨branch.next (setting.defined name), false⟩) := rfl

theorem line_otherwise (s : State) (branch : Branch) :
    (s.within ⟨branch, false⟩).line setting (SourceLine.conditional .otherwise).line =
      some (s.within ⟨branch.next true, true⟩) := rfl

theorem line_endif (s : State) (o : Opened) :
    (s.within o).line setting (SourceLine.conditional .endif).line = some s := rfl

end Preprocessor.State

/-! ## Chains of candidates -/

/-- The call for the first candidate that is defined. If none is, an item that is not optional is
reported as missing. -/
def candidateCalls (defined : String → Bool) (candidates : List String) (optional : Bool)
    (missingName : String) (call : String → ProbeCall) : List ProbeCall :=
  match candidates.find? defined with
  | some native => [call native]
  | none => if optional then [] else [.missing missingName]

/-- Calls as lines. -/
def SourceLine.ofCalls (calls : List ProbeCall) : List SourceLine :=
  calls.map .call

section Chains

open SourceLine Preprocessor.State

variable (setting : Setting) (call : String → ProbeCall)

theorem lines_first_branch (candidate : String) (rest : List String) :
    codeLines (branchLines call true (candidate :: rest)) =
      (conditional (.ifDefined candidate)).line :: (SourceLine.call (call candidate)).line ::
        codeLines (branchLines call false rest) := rfl

theorem lines_further_branch (candidate : String) (rest : List String) :
    codeLines (branchLines call false (candidate :: rest)) =
      (conditional (.elifDefined candidate)).line :: (SourceLine.call (call candidate)).line ::
        codeLines (branchLines call false rest) := rfl

/-- Once a branch has been taken, the candidates that are left change nothing. -/
theorem run_branches_of_ne_seeking (s : State) (candidates : List String) {branch : Branch}
    (h : branch ≠ .seeking) :
    ∃ branch' ≠ Branch.seeking,
      (s.within ⟨branch, false⟩).run setting (codeLines (branchLines call false candidates)) =
        some (s.within ⟨branch', false⟩) := by
  induction candidates generalizing branch with
  | nil => exact ⟨branch, h, rfl⟩
  | cons candidate rest ih =>
    have next_passed : branch.next (setting.defined candidate) = .passed := by
      cases branch with
      | seeking => exact absurd rfl h
      | taken => rfl
      | passed => rfl
    obtain ⟨branch', hne, hrest⟩ := ih (show Branch.passed ≠ .seeking by decide)
    refine ⟨branch', hne, ?_⟩
    -- whether the candidate is defined or not, its branch is passed over
    rw [lines_further_branch, run_cons_of_eq (line_elifDefined s branch candidate), next_passed]
    rw [run_cons_of_eq (line_call _ _), keep_within_of_ne_taken s (by decide)]
    exact hrest

/-- Candidates in a conditional that has taken no branch yet: none is taken if none is defined, and
else the first one that is. -/
theorem run_branches_of_seeking (s : State) (candidates : List String) :
    ∃ branch,
      (s.within ⟨.seeking, false⟩).run setting (codeLines (branchLines call false candidates)) =
        some ((s.keep (rows (ofCalls ((candidates.find? setting.defined).toList.map call)))).within
          ⟨branch, false⟩) ∧
      (branch = .seeking ↔ candidates.find? setting.defined = none) := by
  induction candidates with
  | nil => exact ⟨.seeking, by simp [ofCalls, branchLines], by simp⟩
  | cons candidate rest ih =>
    rw [lines_further_branch, run_cons_of_eq (line_elifDefined s .seeking candidate)]
    cases hd : setting.defined candidate with
    | true =>
      -- this branch is taken, and the rest of the chain is passed over
      obtain ⟨branch, hne, hrest⟩ := run_branches_of_ne_seeking setting call
        (s.keep [(call candidate).text.toList]) rest (show Branch.taken ≠ .seeking by decide)
      refine ⟨branch, ?_, ?_⟩
      · rw [Branch.next, run_cons_of_eq (line_call _ _), keep_within_taken, hrest,
          List.find?_cons_of_pos hd]
        rfl
      · simp [hne, hd]
    | false =>
      -- nothing has been taken, so the rest of the chain decides
      have not_defined : ¬ setting.defined candidate = true := by simp [hd]
      obtain ⟨branch, hrest, hseeking⟩ := ih
      refine ⟨branch, ?_, ?_⟩
      · rw [Branch.next, run_cons_of_eq (line_call _ _), keep_within_of_ne_taken s (by decide),
          hrest, List.find?_cons_of_neg not_defined]
      · rw [hseeking, List.find?_cons_of_neg not_defined]

/-- The end of a chain: the report of a missing name is left if the chain has it and has taken no
branch before. -/
theorem run_chain_end (s : State) (branch : Branch) (optional : Bool) (missingName : String) :
    (s.within ⟨branch, false⟩).run setting
        (codeLines
          ((if optional then [] else [.conditional .otherwise, .call (.missing missingName)]) ++
            [.conditional .endif])) =
      some (if branch = .seeking ∧ optional = false then
        s.keep [(ProbeCall.missing missingName).text.toList] else s) := by
  cases optional with
  | true =>
    -- there is nothing between the last branch and the end
    show State.run _ _ [(conditional .endif).line] = _
    rw [run_cons_of_eq (line_endif _ _)]
    simp
  | false =>
    show State.run _ _ [(conditional .otherwise).line,
      (SourceLine.call (.missing missingName)).line, (conditional .endif).line] = _
    rw [run_cons_of_eq (line_otherwise _ _), run_cons_of_eq (line_call _ _)]
    -- the `#else` is taken only if nothing has been
    cases branch with
    | seeking =>
      rw [Branch.next, keep_within_taken, run_cons_of_eq (line_endif _ _)]
      simp
    | taken =>
      rw [Branch.next, keep_within_of_ne_taken s (by decide), run_cons_of_eq (line_endif _ _)]
      simp
    | passed =>
      rw [Branch.next, keep_within_of_ne_taken s (by decide), run_cons_of_eq (line_endif _ _)]
      simp

/-- **Chains of candidates.** Wherever it stands, a chain with at least one candidate is well
nested and comes down to the first candidate that is defined. -/
theorem yields_candidateLines {candidates : List String} (h : candidates ≠ []) (optional : Bool)
    (missingName : String) :
    Yields setting (codeLines (candidateLines candidates optional missingName call))
      (rows (ofCalls (candidateCalls setting.defined candidates optional missingName call))) := by
  intro s
  obtain ⟨candidate, rest, rfl⟩ := List.exists_cons_of_ne_nil h
  obtain ⟨branch, hbranches, hseeking⟩ :=
    run_branches_of_seeking setting call s (candidate :: rest)
  have opening : s.run setting (codeLines (branchLines call true (candidate :: rest))) =
      some ((s.keep
        (rows (ofCalls (((candidate :: rest).find? setting.defined).toList.map call)))).within
          ⟨branch, false⟩) := by
    -- an `#if` is an `#elif` in a conditional that has taken no branch yet
    rw [← hbranches, lines_first_branch, lines_further_branch]
    rw [run_cons_of_eq (line_ifDefined s candidate)]
    rw [run_cons_of_eq (line_elifDefined s .seeking candidate)]
  rw [candidateLines, List.append_assoc, codeLines_append, run_append_of_eq opening, run_chain_end]
  unfold candidateCalls
  -- the chain is still seeking at its end exactly if no candidate is defined
  cases found : (candidate :: rest).find? setting.defined with
  | none =>
    rw [hseeking.2 found]
    cases optional <;> simp [ofCalls]
  | some native =>
    have not_seeking : branch ≠ .seeking := by
      intro hb
      rw [hseeking.1 hb] at found
      cases found
    simp [not_seeking, ofCalls]

/-- A row that depends on one condition alone. -/
theorem yields_guarded (condition : Condition) (row : List Char) :
    Yields setting [.branch (.first condition), .text row, .branch .endif]
      (if setting.holds condition then [row] else []) := by
  intro s
  have opening : s.line setting (.branch (.first condition)) =
      some (s.within ⟨Branch.seeking.next (setting.holds condition), false⟩) := rfl
  have closing : ∀ (s : State) o, (s.within o).line setting (.branch .endif) = some s :=
    fun s o => rfl
  rw [run_cons_of_eq opening, run_cons_of_eq (show State.line _ _ (.text row) = _ from rfl)]
  -- the only branch is either live or dead
  cases hc : setting.holds condition with
  | true =>
    rw [Branch.next, keep_within_taken, run_cons_of_eq (closing _ _)]
    rfl
  | false =>
    rw [Branch.next, keep_within_of_ne_taken s (by decide), run_cons_of_eq (closing _ _)]
    simp

/-- A call that depends on one macro alone. -/
theorem yields_ifdef (name : String) (c : ProbeCall) :
    Yields setting (codeLines [.conditional (.ifdef name), .call c, .conditional .endif])
      (rows (ofCalls (if setting.defined name then [c] else []))) := by
  have kept_eq : rows (ofCalls (if setting.defined name then [c] else [])) =
      if setting.holds (.defined name) then [c.text.toList] else [] := by
    cases hd : setting.defined name <;> simp [Setting.holds, hd, ofCalls]
  rw [kept_eq]
  exact yields_guarded setting (.defined name) c.text.toList

theorem yields_call (c : ProbeCall) : Yields setting (codeLines [.call c]) (rows (ofCalls [c])) :=
  Yields.text c.text.toList

end Chains

end ForeignBindings
