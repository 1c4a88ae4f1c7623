import ForeignBindings.Build.Command

/-!
# Outcomes of actions

What an action comes to when it is started in a world: its result or failure, and the world it
leaves behind.

* `Action.outcome` is both of them, with one equation for each way to build an action.
* `Action.outcome_bind_eq_ok` takes an action apart that succeeds.
* `Action.Preserves` says that a relation holds between the world before and the world after,
  however the action ends; it is proved action by action along the steps.
-/

namespace ForeignBindings

/-- A host without files and programs. -/
def World.bare : World :=
  { nodes := []
    workingDirectory := []
    environment := ⟨none, none, "/"⟩
    programs := fun _ => none
    built := ⟨fun _ _ => ⟨.code 0, "", "", []⟩⟩
    calls := []
    log := [] }

/-- A host with one text file, in its root. -/
def World.holding (name text : String) : World :=
  { World.bare with nodes := [([name], .file text.toUTF8 false)] }

namespace Action

variable {ε ε' α β : Type}

/-- Two steps that cannot fail, one after the other. -/
theorem run_bind (x : StateM World α) (f : α → StateM World β) (w : World) :
    StateT.run (x >>= f) w =
      match StateT.run x w with
      | (a, w') => StateT.run (f a) w' := rfl

/-- What an action comes to in a world. -/
def outcome (a : Action ε α) (w : World) : Except ε α × World :=
  StateT.run (ExceptT.run a) w

section Equations

variable (w : World)

@[simp] theorem outcome_pure (x : α) : outcome (pure x : Action ε α) w = (.ok x, w) := rfl

@[simp] theorem outcome_throw (e : ε) : outcome (throw e : Action ε α) w = (.error e, w) := rfl

@[simp] theorem outcome_get : outcome (get : Action ε World) w = (.ok w, w) := rfl

@[simp] theorem outcome_modify (f : World → World) :
    outcome (modify f : Action ε PUnit) w = (.ok ⟨⟩, f w) := rfl

@[simp] theorem outcome_monadLift_except (x : Except ε α) :
    outcome (monadLift x : Action ε α) w = (x, w) := rfl

theorem outcome_liftM_state (x : StateM World α) (w : World) :
    outcome (liftM x : Action ε α) w = (.ok (StateT.run x w).1, (StateT.run x w).2) := rfl

theorem outcome_bind (a : Action ε α) (f : α → Action ε β) :
    outcome (a >>= f) w =
      match outcome a w with
      | (.ok x, w') => outcome (f x) w'
      | (.error e, w') => (.error e, w') := by
  -- a failure is a result like any other here, which the rest hands on
  show (match outcome a w with
    | (result, w') => StateT.run (ExceptT.bindCont f result) w') = _
  cases outcome a w with
  | mk result w' => cases result <;> rfl

/-- What comes first decides which world the rest starts in. -/
theorem outcome_bind_of_ok {a : Action ε α} {w w' : World} {x : α}
    (h : outcome a w = (.ok x, w')) (f : α → Action ε β) :
    outcome (a >>= f) w = outcome (f x) w' := by
  rw [outcome_bind, h]

/-- A failure ends an action. -/
theorem outcome_bind_of_error {a : Action ε α} {w w' : World} {e : ε}
    (h : outcome a w = (.error e, w')) (f : α → Action ε β) :
    outcome (a >>= f) w = (.error e, w') := by
  rw [outcome_bind, h]

/-- An action that succeeds has gone through a first part that does. -/
theorem outcome_bind_eq_ok {a : Action ε α} {f : α → Action ε β} {w w'' : World} {y : β} :
    outcome (a >>= f) w = (.ok y, w'') ↔
      ∃ x w', outcome a w = (.ok x, w') ∧ outcome (f x) w' = (.ok y, w'') := by
  rw [outcome_bind]
  cases h : outcome a w with
  | mk result w' =>
    cases result with
    | error e => simp
    | ok x =>
      constructor
      · intro hy
        exact ⟨x, w', rfl, hy⟩
      · rintro ⟨x', w₁, heq, hy⟩
        cases heq
        exact hy

/-- What is made of a result at the end changes nothing else. -/
theorem outcome_bind_pure (a : Action ε α) (f : α → β) :
    outcome (a >>= fun x => pure (f x)) w = ((outcome a w).1.map f, (outcome a w).2) := by
  rw [outcome_bind]
  cases outcome a w with
  | mk result w' => cases result <;> rfl

theorem outcome_mapError (f : ε → ε') (a : Action ε α) :
    outcome (mapError f a) w = ((outcome a w).1.mapError f, (outcome a w).2) := by
  unfold mapError outcome
  rw [ExceptT.run_mk, run_bind]
  cases StateT.run (ExceptT.run a) w with
  | mk result w' => cases result <;> rfl

/-- Only failures have another form. -/
theorem outcome_mapError_eq_ok {f : ε → ε'} {a : Action ε α} {w w' : World} {x : α} :
    outcome (mapError f a) w = (.ok x, w') ↔ outcome a w = (.ok x, w') := by
  rw [outcome_mapError]
  cases outcome a w with
  | mk result w₁ =>
    cases result with
    | ok y =>
      constructor
      · intro h
        cases h
        rfl
      · intro h
        cases h
        rfl
    | error e =>
      constructor
      · intro h
        cases h
      · intro h
        cases h

theorem outcome_ofLook (look : World → Except HostError α) :
    outcome (ofLook look) w = (look w, w) := by
  unfold ofLook
  rw [outcome_bind_of_ok (outcome_get w)]
  cases look w <;> rfl

theorem outcome_ofChange (change : World → Except HostError World) :
    outcome (ofChange change) w =
      match change w with
      | .ok w' => (.ok ⟨⟩, w')
      | .error e => (.error e, w) := by
  unfold ofChange
  rw [outcome_bind_of_ok (outcome_get w)]
  cases change w <;> rfl

theorem outcome_ofSteps (steps : World → Except HostError α × World) :
    outcome (ofSteps steps) w = steps w := by
  unfold ofSteps
  rw [outcome_bind_of_ok (outcome_get w)]
  cases steps w with
  | mk result w' => cases result <;> rfl

theorem outcome_start (call : Invocation) : outcome (start call) w = w.start call :=
  outcome_ofSteps w _

@[simp] theorem outcome_log (level : Level) (origin message : String) :
    outcome (log level origin message : Action ε Unit) w =
      (.ok ⟨⟩, w.record ⟨level, origin, message⟩) := rfl

end Equations

/-! ## Relations between before and after -/

/-- However the action ends, the world it leaves is related to the world it was started in. -/
def Preserves (r : World → World → Prop) (a : Action ε α) : Prop :=
  ∀ w, r w (outcome a w).2

namespace Preserves

variable {r : World → World → Prop}

theorem pure (refl : ∀ w, r w w) (x : α) : Preserves r (pure x : Action ε α) :=
  fun w => refl w

theorem throw (refl : ∀ w, r w w) (e : ε) : Preserves r (throw e : Action ε α) :=
  fun w => refl w

/-- What comes after a first part only has to be looked at for the results that it can have. -/
theorem bind_of_ok (trans : ∀ w₁ w₂ w₃, r w₁ w₂ → r w₂ w₃ → r w₁ w₃) {a : Action ε α}
    {f : α → Action ε β} (ha : Preserves r a)
    (hf : ∀ w x w', outcome a w = (.ok x, w') → Preserves r (f x)) : Preserves r (a >>= f) := by
  intro w
  have first := ha w
  rw [outcome_bind]
  cases h : outcome a w with
  | mk result w' =>
    rw [h] at first
    cases result with
    | ok x => exact trans _ _ _ first (hf w x w' h w')
    | error e => exact first  -- a failure keeps the changes made before it

theorem bind (trans : ∀ w₁ w₂ w₃, r w₁ w₂ → r w₂ w₃ → r w₁ w₃) {a : Action ε α}
    {f : α → Action ε β} (ha : Preserves r a) (hf : ∀ x, Preserves r (f x)) :
    Preserves r (a >>= f) :=
  bind_of_ok trans ha fun _ x _ _ => hf x

theorem mapError {a : Action ε α} (h : Preserves r a) (f : ε → ε') :
    Preserves r (mapError f a) := by
  intro w
  rw [outcome_mapError]
  exact h w

theorem ofExcept (refl : ∀ w, r w w) (x : Except ε α) :
    Preserves r (liftM x : Action ε α) :=
  fun w => refl w

theorem ofLook (refl : ∀ w, r w w) (look : World → Except HostError α) :
    Preserves r (ofLook look) := by
  intro w
  rw [outcome_ofLook]
  exact refl w

theorem ofChange (refl : ∀ w, r w w) {change : World → Except HostError World}
    (h : ∀ w w', change w = .ok w' → r w w') : Preserves r (ofChange change) := by
  intro w
  rw [outcome_ofChange]
  cases hw : change w with
  | ok w' => exact h w w' hw
  | error e => exact refl w

theorem ofSteps {steps : World → Except HostError α × World} (h : ∀ w, r w (steps w).2) :
    Preserves r (ofSteps steps) := by
  intro w
  rw [outcome_ofSteps]
  exact h w

theorem log (h : ∀ w entry, r w (w.record entry)) (level : Level) (origin message : String) :
    Preserves r (log level origin message : Action ε Unit) :=
  fun w => h w _

end Preserves

end Action

end ForeignBindings
