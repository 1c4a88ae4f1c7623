import ForeignBindings.Proofs.Drafts

/-!
# Packages of a specification

All that a draft needs from outside is the flags of packages. They are asked for in the order of the
entries, and the first request that has to be met and is not ends the draft.

* `Packages.askAll` are the answers to some requests, and the world after the last of them.
* `Draft.after` is a draft after some entries, as a function of the answers alone.
* `Generated.outcome_collect_eq` says that collecting comes to nothing else: the draft after all
  entries, or the first request that is refused.
-/

namespace ForeignBindings

/-! ## Requests and answers -/

namespace Packages

/-- A request for the flags of packages. -/
structure Request where
  line : Nat
  names : List String
  /-- The packages may be missing. -/
  optional : Bool
deriving Repr, DecidableEq

/-- What the program that knows the packages says to a request. -/
abbrev Answer := Except CommandError (List String)

/-- What is logged about packages that are missing and may be. -/
def Request.skipped (r : Request) (cause : CommandError) : LogEntry :=
  ⟨.warn, Draft.logOrigin,
    "skipping optional pkg-config packages " ++ " ".intercalate r.names ++ ": " ++ cause.message⟩

/-- Asks one request after the other, up to the first that has to be met and is not. -/
def askAll : List Request → World → List Answer × World
  | [], w => ([], w)
  | r :: rest, w =>
    match (Command.packageFlags r.names).outcome w with
    | (.ok flags, w') =>
      let (answers, last) := askAll rest w'
      (.ok flags :: answers, last)
    | (.error cause, w') =>
      if r.optional then
        let (answers, last) := askAll rest (w'.record (r.skipped cause))
        (.error cause :: answers, last)
      else ([.error cause], w')

/-- The failure of the first request that has to be met and is not. -/
def refusal? : List Request → List Answer → Option GenerationError
  | _ :: rest, .ok _ :: answers => refusal? rest answers
  | r :: rest, .error cause :: answers =>
    if r.optional then refusal? rest answers else some (.packages r.line r.names cause)
  | _, _ => none

end Packages

open Packages

/-- The request that an entry makes. -/
def Placed.request? (p : Placed) : Option Request :=
  match p.entry with
  | .packages names optional => some ⟨p.line, names, optional⟩
  | _ => none

theorem Placed.request?_eq_some {p : Placed} {r : Request} :
    p.request? = some r ↔ p.entry = .packages r.names r.optional ∧ p.line = r.line := by
  obtain ⟨line, names, optional⟩ := r
  cases hentry : p.entry <;> simp [request?, hentry, and_comm]

namespace Packages

/-- The requests that some entries make. -/
def requests (ps : List Placed) : List Request :=
  ps.filterMap Placed.request?

/-- The flags that some entries ask for: those that are written down, and those that the answers to
their requests give. -/
def flagsOf : List Placed → List Answer → List String
  | [], _ => []
  | p :: ps, answers =>
    match p.entry, answers with
    | .flags flags, answers => flags ++ flagsOf ps answers
    | .packages .., .ok flags :: answers => flags ++ flagsOf ps answers
    | .packages .., .error _ :: answers => flagsOf ps answers
    | _, answers => flagsOf ps answers

theorem requests_cons (p : Placed) (ps : List Placed) :
    requests (p :: ps) = p.request?.toList ++ requests ps := by
  rw [requests, List.filterMap_cons]
  cases p.request? <;> rfl

end Packages

/-! ## What entries leave -/

/-- The lines that some entries add, each of them in the module that is open when it comes. -/
def linesFrom (mode : Mode) : Option String → List Placed → List SourceLine
  | _, [] => []
  | current, p :: ps =>
    (p.entry.added mode current).lines ++ linesFrom mode (p.entry.module?.or current) ps

/-- The declarations that some entries add. -/
def declarationsFrom (mode : Mode) : Option String → List Placed → List Declaration
  | _, [] => []
  | current, p :: ps =>
    (p.entry.added mode current).declarations ++
      declarationsFrom mode (p.entry.module?.or current) ps

namespace Draft

/-- A draft after some entries. -/
def after (s : Draft) (ps : List Placed) (answers : List Answer) : Draft :=
  { mode := s.mode
    lines := s.lines ++ linesFrom s.mode s.current ps
    flags := s.flags ++ flagsOf ps answers
    declarations := s.declarations ++ declarationsFrom s.mode s.current ps
    current := moduleAfter s.current ps }

@[simp] theorem after_nil (s : Draft) (answers : List Answer) : s.after [] answers = s := by
  simp [after, linesFrom, declarationsFrom, flagsOf]

/-- A step that takes the first of the entries with its flags leaves the others. -/
theorem Takes.after_eq {s s' : Draft} {p : Placed} (h : s.Takes p s') {ps : List Placed}
    {answers answers' : List Answer}
    (hflags : s'.flags ++ flagsOf ps answers' = s.flags ++ flagsOf (p :: ps) answers) :
    s'.after ps answers' = s.after (p :: ps) answers := by
  have lines_eq : s'.lines ++ linesFrom s'.mode s'.current ps =
      s.lines ++ linesFrom s.mode s.current (p :: ps) := by
    rw [h.lines_eq, h.mode_eq, h.current_eq, linesFrom, List.append_assoc]
  have declarations_eq : s'.declarations ++ declarationsFrom s'.mode s'.current ps =
      s.declarations ++ declarationsFrom s.mode s.current (p :: ps) := by
    rw [h.declarations_eq, h.mode_eq, h.current_eq, declarationsFrom, List.append_assoc]
  have current_eq : moduleAfter s'.current ps = moduleAfter s.current (p :: ps) := by
    rw [h.current_eq, moduleAfter_cons]
  rw [after, lines_eq, declarations_eq, current_eq, hflags, h.mode_eq]
  rfl

/-- An entry that makes no request adds the flags that it has written down. -/
theorem flags_absorb {p : Placed} (hp : p.request? = none) (s : Draft) (ps : List Placed)
    (answers : List Answer) :
    (s.absorb p.entry).flags ++ flagsOf ps answers = s.flags ++ flagsOf (p :: ps) answers := by
  cases hentry : p.entry with
  | flags flags => simp [absorb, withFlags, flagsOf, hentry]
  | packages names optional => simp [Placed.request?, hentry] at hp
  | inNamespace name => cases hmode : s.mode <;> simp [absorb, openModule, write, declare, flagsOf,
      hentry, hmode]
  | _ => simp [absorb, write, declare, flagsOf, hentry]

theorem accept_of_no_request {p : Placed} (hp : p.request? = none) (s : Draft) :
    s.accept p = pure (.ok (), s.absorb p.entry) := by
  cases hentry : p.entry with
  | packages names optional => simp [Placed.request?, hentry] at hp
  | _ => simp [accept, hentry]

/-- What comes of an entry that makes a request. -/
theorem run_accept_of_request {p : Placed} {r : Request} (hp : p.request? = some r) (s : Draft)
    (w : World) :
    StateT.run (s.accept p) w =
      match (Command.packageFlags r.names).outcome w with
      | (.ok flags, w') => ((.ok (), s.withFlags flags), w')
      | (.error cause, w') =>
        if r.optional then ((.ok (), s), w'.record (r.skipped cause))
        else ((.error (.packages r.line r.names cause), s), w') := by
  obtain ⟨hentry, hline⟩ := Placed.request?_eq_some.1 hp
  have asked : s.accept p = s.addPackages r.line r.names r.optional := by
    rw [accept, hentry, hline]
  rw [asked, run_addPackages]
  rfl

end Draft

namespace Generated

theorem outcome_collect_cons (s : Draft) (p : Placed) (ps : List Placed) (w : World) :
    (collect s (p :: ps)).outcome w =
      match StateT.run (s.accept p) w with
      | ((.ok (), s'), w') => (collect s' ps).outcome w'
      | ((.error e, _), w') => (.error e, w') := by
  rw [outcome_collect, Draft.run_acceptAll_cons]
  cases StateT.run (s.accept p) w with
  | mk taken w' =>
    obtain ⟨result, s'⟩ := taken
    cases result with
    | ok _ => exact (outcome_collect s' ps w').symm
    | error e => rfl

/-- **Collecting.** What comes of some entries depends on the host through the answers to their
requests only: it is the draft after all of them, or the first refusal. -/
theorem outcome_collect_eq (s : Draft) (ps : List Placed) (w : World) :
    (collect s ps).outcome w =
      (match refusal? (requests ps) (askAll (requests ps) w).1 with
        | none => .ok (s.after ps (askAll (requests ps) w).1)
        | some e => .error e,
      (askAll (requests ps) w).2) := by
  induction ps generalizing s w with
  | nil =>
    rw [Draft.after_nil]
    rfl
  | cons p ps ih =>
    rw [outcome_collect_cons, requests_cons]
    cases hrequest : p.request? with
    | none =>
      -- nothing is asked, so the answers are those that the others get
      have same_flags := s.flags_absorb hrequest ps (askAll (requests ps) w).1
      have taken := (s.takes_absorb p).after_eq same_flags
      rw [s.accept_of_no_request hrequest, Option.toList_none, List.nil_append, ← taken]
      exact ih (s.absorb p.entry) w
    | some r =>
      obtain ⟨hentry, hline⟩ := Placed.request?_eq_some.1 hrequest
      rw [Draft.run_accept_of_request hrequest, Option.toList_some, List.singleton_append, askAll]
      -- the request is met, or not and may be missing, or not and ends the draft
      cases (Command.packageFlags r.names).outcome w with
      | mk answer w' =>
        cases answer with
        | ok flags =>
          have taken : (s.withFlags flags).after ps (askAll (requests ps) w').1 =
              s.after (p :: ps) (.ok flags :: (askAll (requests ps) w').1) := by
            have step : s.Takes p (s.withFlags flags) :=
              Draft.takes_of_packages hentry rfl rfl rfl rfl
            apply step.after_eq
            simp [Draft.withFlags, flagsOf, hentry]
          dsimp only [refusal?]
          rw [← taken]
          exact ih (s.withFlags flags) w'
        | error cause =>
          cases hoptional : r.optional with
          | true =>
            have taken : s.after ps (askAll (requests ps) (w'.record (r.skipped cause))).1 =
                s.after (p :: ps)
                  (.error cause :: (askAll (requests ps) (w'.record (r.skipped cause))).1) := by
              have step : s.Takes p s := Draft.takes_of_packages hentry rfl rfl rfl rfl
              apply step.after_eq
              simp [flagsOf, hentry]
            have rest := ih s (w'.record (r.skipped cause))
            rw [taken] at rest
            simpa only [refusal?, hoptional, if_true] using rest
          | false => simp only [refusal?, hoptional, Bool.false_eq_true, if_false]

end Generated

end ForeignBindings
