import ForeignBindings.Proofs.Composition
import ForeignBindings.Proofs.Sections

/-!
# What entries leave alone

An entry adds to a draft and changes nothing else of it, and an entry that fails does not change the
draft at all. So a session that goes on after a failure, as the runs of a program do not, comes to
what it would have come to without the entry that has failed.

* `Entry.Adds` says what the entries of each kind may add, and `Draft.Extends` that nothing else of
  a draft is changed.
* `Draft.proceed` is a session that goes on, and `Draft.run_proceed` says that it depends on the
  host through the answers to its requests only.
* `Draft.session_frame` puts these together, for one entry and for whole sessions.
-/

namespace ForeignBindings

open Packages

/-! ## One entry -/

/-- What an entry may add to a draft in a mode. -/
def Entry.Adds (mode : Mode) (lines : List SourceLine) (flags : List String)
    (declarations : List Declaration) : Entry → Prop
  | .verbatim _ | .headers _ | .define .. | .typedef .. | .constant _ | .intAlias _ | .record _
  | .enumeration _ => flags = [] ∧ declarations = []
  | .flags _ | .packages .. => lines = [] ∧ declarations = []
  | .wrapper _ => flags = [] ∧ ∃ f, declarations = [.function f]
  | .inNamespace name =>
    flags = [] ∧ (mode = .probe → lines ≠ [] ∧ declarations = []) ∧
      (mode = .wrapper → lines = [] ∧ declarations = [.inNamespace name])

namespace Draft

/-- The second draft is the first one with what an entry may add behind it. Only a namespace changes
the module that is open. -/
structure Extends (s : Draft) (e : Entry) (s' : Draft) : Prop where
  mode_eq : s'.mode = s.mode
  current_of_namespace : ∀ name, e = .inNamespace name → s'.current = some name
  current_of_other : (∀ name, e ≠ .inNamespace name) → s'.current = s.current
  added : ∃ lines flags declarations, s'.lines = s.lines ++ lines ∧ s'.flags = s.flags ++ flags ∧
    s'.declarations = s.declarations ++ declarations ∧ e.Adds s.mode lines flags declarations

theorem extends_openModule (s : Draft) (name : String) :
    s.Extends (.inNamespace name) (s.openModule name) := by
  obtain ⟨mode, lines, flags, declarations, current⟩ := s
  cases mode with
  | probe =>
    -- the lines end the module before it and start this one
    exact
      { mode_eq := rfl
        current_of_namespace := fun _ h => congrArg some (Entry.inNamespace.inj h)
        current_of_other := fun h => absurd rfl (h name)
        added := ⟨_, [], [], rfl, (List.append_nil _).symm, (List.append_nil _).symm, rfl,
          fun _ => ⟨by simp, rfl⟩, nofun⟩ }
  | wrapper =>
    exact
      { mode_eq := rfl
        current_of_namespace := fun _ h => congrArg some (Entry.inNamespace.inj h)
        current_of_other := fun h => absurd rfl (h name)
        added := ⟨[], [], [.inNamespace name], (List.append_nil _).symm, (List.append_nil _).symm,
          rfl, rfl, nofun, fun _ => ⟨rfl, rfl⟩⟩ }

theorem withFlags_nil (s : Draft) : s.withFlags [] = s := by
  rw [withFlags, List.append_nil]

/-- Flags are added for flags and for packages. -/
theorem extends_withFlags {e : Entry}
    (h : (∃ words, e = .flags words) ∨ ∃ names optional, e = .packages names optional) (s : Draft)
    (flags : List String) : s.Extends e (s.withFlags flags) := by
  have added : e.Adds s.mode [] flags [] := by
    rcases h with ⟨words, rfl⟩ | ⟨names, optional, rfl⟩ <;> exact ⟨rfl, rfl⟩
  have no_namespace : ∀ name, e ≠ .inNamespace name := by
    rcases h with ⟨words, rfl⟩ | ⟨names, optional, rfl⟩ <;> exact nofun
  exact
    { mode_eq := rfl
      current_of_namespace := fun name h => absurd h (no_namespace name)
      current_of_other := fun _ => rfl
      added := ⟨[], flags, [], (List.append_nil _).symm, rfl, (List.append_nil _).symm, added⟩ }

theorem extends_absorb (s : Draft) (e : Entry) : s.Extends e (s.absorb e) := by
  cases e with
  | inNamespace name => exact extends_openModule s name
  | flags flags => exact extends_withFlags (.inl ⟨flags, rfl⟩) s flags
  | packages names optional =>
    have extended := extends_withFlags (.inr ⟨names, optional, rfl⟩) s []
    rwa [withFlags_nil] at extended
  | wrapper w =>
    exact
      { mode_eq := rfl
        current_of_namespace := nofun
        current_of_other := fun _ => rfl
        added := ⟨w.definition.lines, [], [.function (w.declaration s.current)], rfl,
          (List.append_nil _).symm, rfl, rfl, _, rfl⟩ }
  | _ =>
    -- all others add lines only
    exact
      { mode_eq := rfl
        current_of_namespace := nofun
        current_of_other := fun _ => rfl
        added := ⟨_, [], [], rfl, (List.append_nil _).symm, (List.append_nil _).symm, rfl, rfl⟩ }

end Draft

/-! ## Answers to requests -/

namespace Packages

/-- The flags that an answer gives. -/
def given : Answer → List String
  | .ok flags => flags
  | .error _ => []

/-- What comes of a request by its answer. -/
def Request.result (r : Request) : Answer → Except GenerationError Unit
  | .ok _ => .ok ()
  | .error cause => if r.optional then .ok () else .error (.packages r.line r.names cause)

/-- The world once an answer has been taken: packages that are skipped are logged. -/
def Request.noted (r : Request) (w : World) : Answer → World
  | .ok _ => w
  | .error cause => if r.optional then w.record (r.skipped cause) else w

/-- Asks one request after the other, whatever the answers are. -/
def askOn : List Request → World → List Answer × World
  | [], w => ([], w)
  | r :: rest, w =>
    let (answer, w') := (Command.packageFlags r.names).outcome w
    let (answers, last) := askOn rest (r.noted w' answer)
    (answer :: answers, last)

theorem length_askOn (rs : List Request) (w : World) : (askOn rs w).1.length = rs.length := by
  induction rs generalizing w with
  | nil => rfl
  | cons r rs ih =>
    rw [askOn]
    exact congrArg (· + 1) (ih _)

/-- What comes of some entries by the answers to their requests. -/
def resultsOf : List Placed → List Answer → List (Except GenerationError Unit)
  | [], _ => []
  | p :: ps, answers =>
    match p.request?, answers with
    | some r, answer :: answers => r.result answer :: resultsOf ps answers
    | _, answers => .ok () :: resultsOf ps answers

theorem resultsOf_of_no_request {p : Placed} (h : p.request? = none) (ps : List Placed)
    (answers : List Answer) : resultsOf (p :: ps) answers = .ok () :: resultsOf ps answers := by
  rw [resultsOf.eq_def]
  dsimp only
  rw [h]

theorem resultsOf_of_request {p : Placed} {r : Request} (h : p.request? = some r)
    (ps : List Placed) (answer : Answer) (answers : List Answer) :
    resultsOf (p :: ps) (answer :: answers) = r.result answer :: resultsOf ps answers := by
  rw [resultsOf.eq_def]
  dsimp only
  rw [h]

theorem resultsOf_append {ps : List Placed} {answers : List Answer}
    (h : answers.length = (requests ps).length) (qs : List Placed) (answers' : List Answer) :
    resultsOf (ps ++ qs) (answers ++ answers') =
      resultsOf ps answers ++ resultsOf qs answers' := by
  induction ps generalizing answers with
  | nil =>
    rw [List.length_eq_zero_iff.1 h]
    rfl
  | cons p ps ih =>
    rw [requests_cons] at h
    cases hrequest : p.request? with
    | none =>
      rw [hrequest, Option.toList_none, List.nil_append] at h
      rw [List.cons_append, resultsOf_of_no_request hrequest, resultsOf_of_no_request hrequest,
        ih h, List.cons_append]
    | some r =>
      rw [hrequest, Option.toList_some, List.singleton_append] at h
      obtain ⟨answer, others, rfl⟩ := List.exists_cons_of_length_eq_add_one h
      rw [List.cons_append, List.cons_append, resultsOf_of_request hrequest,
        resultsOf_of_request hrequest, ih (Nat.succ.inj h), List.cons_append]

theorem flagsOf_append {ps : List Placed} {answers : List Answer}
    (h : answers.length = (requests ps).length) (qs : List Placed) (answers' : List Answer) :
    flagsOf (ps ++ qs) (answers ++ answers') = flagsOf ps answers ++ flagsOf qs answers' := by
  induction ps generalizing answers with
  | nil =>
    rw [List.length_eq_zero_iff.1 h]
    rfl
  | cons p ps ih =>
    rw [requests_cons] at h
    cases hentry : p.entry with
    | packages names optional =>
      have request : p.request? = some ⟨p.line, names, optional⟩ := by
        rw [Placed.request?, hentry]
      rw [request, Option.toList_some, List.singleton_append] at h
      obtain ⟨answer, others, rfl⟩ := List.exists_cons_of_length_eq_add_one h
      cases answer <;> simp [flagsOf, hentry, ih (Nat.succ.inj h)]
    | _ =>
      have no_request : p.request? = none := by
        rw [Placed.request?, hentry]
      rw [no_request, Option.toList_none, List.nil_append] at h
      simp [flagsOf, hentry, ih h]

end Packages

/-! ## Sessions that go on -/

namespace Draft

/-- Takes entries one after the other, also behind one that fails. -/
def proceed (s : Draft) :
    List Placed → StateM World (List (Except GenerationError Unit) × Draft)
  | [] => return ([], s)
  | p :: rest => do
    let (result, s) ← s.accept p
    let (results, s) ← proceed s rest
    return (result :: results, s)

/-- What comes of an entry that makes a request, by its answer. -/
theorem run_accept_of_answer {p : Placed} {r : Request} (hp : p.request? = some r) (s : Draft)
    (w : World) :
    let asked := (Command.packageFlags r.names).outcome w
    StateT.run (s.accept p) w =
      ((r.result asked.1, s.withFlags (given asked.1)), r.noted asked.2 asked.1) := by
  intro asked
  rw [run_accept_of_request hp]
  show _ = ((r.result asked.1, s.withFlags (given asked.1)), r.noted asked.2 asked.1)
  cases hasked : (Command.packageFlags r.names).outcome w with
  | mk answer w' =>
    have same : asked = (answer, w') := hasked
    rw [same]
    cases answer with
    | ok flags => rfl
    | error cause =>
      rw [given, withFlags_nil]
      dsimp only [Request.result, Request.noted]
      split <;> rfl

theorem run_proceed_cons (s : Draft) (p : Placed) (ps : List Placed) (w : World) :
    StateT.run (s.proceed (p :: ps)) w =
      let first := StateT.run (s.accept p) w
      let others := StateT.run (first.1.2.proceed ps) first.2
      ((first.1.1 :: others.1.1, others.1.2), others.2) := rfl

/-- A session of two parts is the second part behind the first. -/
theorem run_proceed_append (s : Draft) (ps qs : List Placed) (w : World) :
    StateT.run (s.proceed (ps ++ qs)) w =
      let first := StateT.run (s.proceed ps) w
      let others := StateT.run (first.1.2.proceed qs) first.2
      ((first.1.1 ++ others.1.1, others.1.2), others.2) := by
  induction ps generalizing s w with
  | nil => rfl
  | cons p ps ih =>
    rw [List.cons_append, run_proceed_cons, run_proceed_cons]
    dsimp only
    rw [ih]
    rfl

/-- **Sessions that go on.** What comes of a session depends on the host through the answers to its
requests only. -/
theorem run_proceed (s : Draft) (ps : List Placed) (w : World) :
    let asked := askOn (requests ps) w
    StateT.run (s.proceed ps) w = ((resultsOf ps asked.1, s.after ps asked.1), asked.2) := by
  intro asked
  show _ = ((resultsOf ps (askOn (requests ps) w).1, s.after ps (askOn (requests ps) w).1),
    (askOn (requests ps) w).2)
  clear asked
  -- the draft and the world are those that the entries before have left
  induction ps generalizing s w with
  | nil =>
    rw [after_nil]
    rfl
  | cons p ps ih =>
    rw [run_proceed_cons, requests_cons]
    cases hrequest : p.request? with
    | none =>
      -- nothing is asked, so the answers are those that the others get
      have taken := (s.takes_absorb p).after_eq
        (s.flags_absorb hrequest ps (askOn (requests ps) w).1)
      have first : StateT.run (s.accept p) w = ((.ok (), s.absorb p.entry), w) := by
        rw [s.accept_of_no_request hrequest]
        rfl
      rw [first, Option.toList_none, List.nil_append, ← taken, resultsOf_of_no_request hrequest]
      dsimp only
      rw [ih]
    | some r =>
      obtain ⟨hentry, hline⟩ := Placed.request?_eq_some.1 hrequest
      let asked := (Command.packageFlags r.names).outcome w
      have taken : ∀ answers, (s.withFlags (given asked.1)).after ps answers =
          s.after (p :: ps) (asked.1 :: answers) := by
        intro answers
        have step : s.Takes p (s.withFlags (given asked.1)) :=
          takes_of_packages hentry rfl rfl rfl rfl
        apply step.after_eq
        cases asked.1 <;> simp [withFlags, flagsOf, given, hentry]
      rw [run_accept_of_answer hrequest, Option.toList_some, List.singleton_append, askOn]
      dsimp only
      rw [ih, taken, resultsOf_of_request hrequest]

/-- A draft after some entries and then others. -/
theorem after_append {ps : List Placed} {answers : List Answer}
    (h : answers.length = (requests ps).length) (s : Draft) (qs : List Placed)
    (answers' : List Answer) :
    s.after (ps ++ qs) (answers ++ answers') = (s.after ps answers).after qs answers' := by
  unfold after
  simp only [linesFrom_eq, declarationsFrom_eq, alongFrom_append, flagsOf_append h,
    moduleAfter_append, List.append_assoc]

/-! ## Frames -/

/-- What comes of one entry: the draft is extended, and only packages that have to be there can
fail, which leaves the draft as it was. -/
theorem frame_of_accept {s s' : Draft} {p : Placed} {w w' : World}
    {result : Except GenerationError Unit}
    (h : StateT.run (s.accept p) w = ((result, s'), w')) :
    s.Extends p.entry s' ∧
      ∀ e, result = .error e → s' = s ∧
        ∃ names cause, p.entry = .packages names false ∧ e = .packages p.line names cause := by
  cases hrequest : p.request? with
  | none =>
    rw [s.accept_of_no_request hrequest] at h
    cases h
    exact ⟨s.extends_absorb p.entry, nofun⟩
  | some r =>
    obtain ⟨hentry, hline⟩ := Placed.request?_eq_some.1 hrequest
    rw [run_accept_of_answer hrequest] at h
    generalize (Command.packageFlags r.names).outcome w = asked at h
    obtain ⟨answer, w₁⟩ := asked
    cases h
    refine ⟨extends_withFlags (.inr ⟨_, _, hentry⟩) s (given answer), ?_⟩
    intro e failed
    cases answer with
    | ok flags => cases failed
    | error cause =>
      -- an optional request does not fail, whatever its answer is
      dsimp only [Request.result] at failed
      split at failed
      · cases failed
      · rename_i required
        cases failed
        rw [hentry, hline, Bool.eq_false_iff.2 required]
        exact ⟨s.withFlags_nil, r.names, cause, rfl, rfl⟩

/-- A session only adds to a draft, and the module that is open is the last one it has asked for. -/
theorem frame_of_proceed (s : Draft) (ps : List Placed) (w : World) :
    let s' := (StateT.run (s.proceed ps) w).1.2
    s'.mode = s.mode ∧ s.lines <+: s'.lines ∧ s.flags <+: s'.flags ∧
      s.declarations <+: s'.declarations ∧ s'.current = moduleAfter s.current ps := by
  rw [run_proceed]
  exact ⟨rfl, List.prefix_append .., List.prefix_append .., List.prefix_append .., rfl⟩

/-- **Frames of entries.** For every draft and every entry, and whatever the programs of the host
answer: taking the entry only adds to the lines, the flags and the declarations, each kind of entry
to its own ones, and keeps the mode, and the open module but for a namespace. It fails only for
packages that have to be there and are not, and then the draft is as it was. For every list of
entries the same holds of a session that goes on behind failures, and an entry that fails in it
might as well not be there: the others come to what they come to from the same draft without it, in
the world that the failure has left and in every world that gives them the same answers. -/
theorem session_frame (s : Draft) :
    (∀ (p : Placed) (w : World) (result : Except GenerationError Unit) (s' : Draft) (w' : World),
      StateT.run (s.accept p) w = ((result, s'), w') →
        s.Extends p.entry s' ∧
        ∀ e, result = .error e → s' = s ∧
          ∃ names cause, p.entry = .packages names false ∧ e = .packages p.line names cause) ∧
    (∀ (ps : List Placed) (w : World),
      let s' := (StateT.run (s.proceed ps) w).1.2
      s'.mode = s.mode ∧ s.lines <+: s'.lines ∧ s.flags <+: s'.flags ∧
        s.declarations <+: s'.declarations ∧ s'.current = moduleAfter s.current ps) ∧
    ∀ (before : List Placed) (p : Placed) (after : List Placed) (w : World)
      (results : List (Except GenerationError Unit)) (s₁ : Draft) (w₁ : World)
      (e : GenerationError) (s' : Draft) (w₂ : World),
      StateT.run (s.proceed before) w = ((results, s₁), w₁) →
      StateT.run (s₁.accept p) w₁ = ((.error e, s'), w₂) →
      ∃ later s₂ last, StateT.run (s₁.proceed after) w₂ = ((later, s₂), last) ∧
        StateT.run (s.proceed (before ++ p :: after)) w =
          ((results ++ .error e :: later, s₂), last) ∧
        ∀ w', (askOn (requests (before ++ after)) w').1 =
            (askOn (requests before) w).1 ++ (askOn (requests after) w₂).1 →
          (StateT.run (s.proceed (before ++ after)) w').1 = (results ++ later, s₂) := by
  refine ⟨fun p w result s' w' => frame_of_accept, fun ps w => s.frame_of_proceed ps w, ?_⟩
  intro before p after w results s₁ w₁ e s' w₂ hbefore hfails
  -- the others start from the draft that the failed entry was given
  obtain ⟨rfl, -⟩ := (frame_of_accept hfails).2 e rfl
  refine ⟨_, _, _, s'.run_proceed after w₂, ?_, ?_⟩
  · rw [run_proceed_append, hbefore]
    dsimp only
    rw [run_proceed_cons, hfails]
    dsimp only
    rw [run_proceed]
  · intro w' answers
    have counted := length_askOn (requests before) w
    rw [run_proceed] at hbefore
    cases hbefore
    rw [run_proceed, answers, resultsOf_append counted, after_append counted]

/-- Packages that have to be there, on a host that has none, between flags and a namespace. -/
def unmetEntries : List Placed :=
  [⟨.flag, 1, .flags ["-g"]⟩, ⟨.packageFlags, 2, .packages ["zlib"] false⟩,
    ⟨.inNamespace, 3, .inNamespace "net"⟩]

/-- The session goes on in the namespace, with the flags that it had. -/
theorem session_frame_unmet :
    ∃ cause last, StateT.run ((start .wrapper).proceed unmetEntries) World.bare =
        (([.ok (), .error (.packages 2 ["zlib"] cause), .ok ()],
          ⟨.wrapper, [], ["-g"], [.inNamespace "net"], some "net"⟩), last) ∧
      (StateT.run ((start .wrapper).proceed
          [⟨.flag, 1, .flags ["-g"]⟩, ⟨.inNamespace, 3, .inNamespace "net"⟩]) World.bare).1 =
        ([.ok (), .ok ()], ⟨.wrapper, [], ["-g"], [.inNamespace "net"], some "net"⟩) := by
  obtain ⟨later, s₂, last, hafter, hall, without⟩ := (session_frame (start .wrapper)).2.2
    [⟨.flag, 1, .flags ["-g"]⟩] ⟨.packageFlags, 2, .packages ["zlib"] false⟩
    [⟨.inNamespace, 3, .inNamespace "net"⟩] World.bare _ _ _ _ _ _ rfl rfl
  cases hafter
  exact ⟨_, _, hall, without World.bare rfl⟩

end Draft

end ForeignBindings
