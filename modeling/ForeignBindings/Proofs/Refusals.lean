import ForeignBindings.Build.Pipeline
import ForeignBindings.Proofs.Actions
import ForeignBindings.Proofs.Dialects
import ForeignBindings.Proofs.Forms

/-!
# Runs that are refused

A specification is read and understood as a whole before anything else is done. A run that stops
there has started no program, has changed no file and has logged nothing, also where directives that
ask for packages stand before the one at fault.

* `Pipeline.Refuses` says that the run of a mode fails and leaves the world as it was.
* `Pipeline.refuses_of_fault` says when a run is refused, and with which error.
-/

namespace ForeignBindings

open Spec

namespace Generated

/-- Where a directive is not understood, no program is generated, and none of the directives before
it has had an effect. -/
theorem outcome_of_firstFault {mode : Mode} {ds : List Directive} {e : InterpretError}
    (h : (Dialect.ofMode mode).FirstFault ds e) (w : World) :
    (ofDirectives mode ds).outcome w = (.error (.interpret e), w) := by
  -- all directives are interpreted first, and that is where both modes stop
  have refused : entries mode ds = .error (.interpret e) := by
    rw [entries, Dialect.interpretAll_eq_error.2 h]
    rfl
  have first : (liftM (entries mode ds) : Action GenerationError (List Placed)).outcome w =
      (.error (.interpret e), w) := by
    rw [refused]
    rfl
  cases mode with
  | probe => exact Action.outcome_bind_of_error first _
  | wrapper => exact Action.outcome_bind_of_error first _

end Generated

namespace Pipeline

/-- The run of a mode fails with this error and leaves the world as it was. -/
def Refuses (mode : Mode) (input : String) (output : Option String) (compiler : Compiler)
    (w : World) (e : RunError) : Prop :=
  match mode with
  | .probe => (probe input output compiler).outcome w = (.error e, w)
  | .wrapper => (wrapper input output compiler).outcome w = (.error e, w)

/-- Reading a specification changes nothing. -/
theorem outcome_directivesIn (input : String) (w : World) :
    (directivesIn input).outcome w =
      match w.readText input with
      | .error cause => (.error (.host input cause), w)
      | .ok text =>
        match directivesOf text with
        | .error cause => (.error (.read input cause), w)
        | .ok ds => (.ok ds, w) := by
  unfold directivesIn
  rw [Action.outcome_bind, Action.outcome_mapError, Action.outcome_ofLook]
  cases w.readText input with
  | error cause => rfl
  | ok text =>
    dsimp only [Except.mapError]
    cases directivesOf text <;> rfl

variable {mode : Mode} {input : String} {output : Option String} {compiler : Compiler} {w : World}

theorem refuses_of_prepare {e : RunError}
    (h : (prepare mode input output).outcome w = (.error e, w)) :
    Refuses mode input output compiler w e := by
  cases mode with
  | probe => exact Action.outcome_bind_of_error h _
  | wrapper => exact Action.outcome_bind_of_error h _

/-- A specification that cannot be read is refused. -/
theorem refuses_of_directivesIn {e : RunError}
    (h : (directivesIn input).outcome w = (.error e, w)) :
    Refuses mode input output compiler w e :=
  refuses_of_prepare (Action.outcome_bind_of_error h _)

theorem refuses_of_generated {ds : List Directive} {e : GenerationError}
    (hread : (directivesIn input).outcome w = (.ok ds, w))
    (h : (Generated.ofDirectives mode ds).outcome w = (.error e, w)) :
    Refuses mode input output compiler w (.generate e) := by
  apply refuses_of_prepare
  -- a fault in a directive is reported as one of the run, in the same world
  have generated : (Action.mapError RunError.generate (Generated.ofDirectives mode ds)).outcome w =
      (.error (.generate e), w) := by
    rw [Action.outcome_mapError, h]
    rfl
  unfold prepare
  rw [Action.outcome_bind_of_ok hread]
  exact Action.outcome_bind_of_error generated _

/-- **Refused runs.** For every world, input, output directory and compiler, and in both modes: a
run whose specification cannot be read as a text, or as directives, or has a directive anywhere that
the mode does not understand, fails and leaves the world as it was. The error is that of the
reading, or else that of the first directive at fault. -/
theorem refuses_of_fault (mode : Mode) (input : String) (output : Option String)
    (compiler : Compiler) (w : World) :
    (∀ cause, w.readText input = .error cause →
      Refuses mode input output compiler w (.host input cause)) ∧
    ∀ text, w.readText input = .ok text →
      (∀ cause, directivesOf text = .error cause →
        Refuses mode input output compiler w (.read input cause)) ∧
      ∀ ds, directivesOf text = .ok ds →
        ∀ d ∈ ds, ∀ e, (Dialect.ofMode mode).interpret d = .error e →
          ∃ first, (Dialect.ofMode mode).FirstFault ds first ∧
            Refuses mode input output compiler w (.generate (.interpret first)) := by
  have reading := outcome_directivesIn input w
  refine ⟨?_, ?_⟩
  · intro cause hcause
    rw [hcause] at reading
    exact refuses_of_directivesIn reading
  · intro text htext
    rw [htext] at reading
    refine ⟨?_, ?_⟩
    · intro cause hcause
      dsimp only at reading
      rw [hcause] at reading
      exact refuses_of_directivesIn reading
    · intro ds hds d hd e he
      dsimp only at reading
      rw [hds] at reading
      -- the directive at fault need not be the first one, but then there is one before it
      obtain ⟨first, hfirst⟩ := Dialect.exists_firstFault hd he
      exact ⟨first, hfirst,
        refuses_of_generated reading (Generated.outcome_of_firstFault hfirst w)⟩

/-- A directive that asks for packages, and one that means nothing. -/
def unknownText : String :=
  "(pkg-config-cflags \"gtk\")(constant (ok \"OK\"))(bogus)(cenum)"

/-- The program that knows the packages is not started if a later directive means nothing. -/
theorem refuses_unknown :
    Refuses .probe "s.spec" none default (World.holding "s.spec" unknownText)
      (.generate (.interpret (.unknownDirective "bogus" 1))) := by
  have read : (World.holding "s.spec" unknownText).readText "s.spec" = .ok unknownText := by
    decide +kernel
  have directives : directivesOf unknownText =
      .ok [⟨"pkg-config-cflags", [.string "gtk"], 1⟩,
        ⟨"constant", [.list [.symbol ⟨none, "ok"⟩, .string "OK"]], 1⟩, ⟨"bogus", [], 1⟩,
        ⟨"cenum", [], 1⟩] := by
    decide +kernel
  have faults := (refuses_of_fault .probe "s.spec" none default
    (World.holding "s.spec" unknownText)).2 unknownText read
  obtain ⟨first, hfirst, refuses⟩ := faults.2 _ directives ⟨"cenum", [], 1⟩ (by simp) _ rfl
  have first_eq : (Dialect.ofMode .probe).interpretAll _ = .error first :=
    Dialect.interpretAll_eq_error.2 hfirst
  cases first_eq
  exact refuses

end Pipeline

end ForeignBindings
