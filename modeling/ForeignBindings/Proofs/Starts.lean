import ForeignBindings.Proofs.Blanks
import ForeignBindings.Proofs.Packages
import ForeignBindings.Proofs.Tree

/-!
# Programs that are started

A program is tried once for each time that it is started, and writes files only: no directory comes
or goes. What commands do is said in these terms.

* `World.readText_of_write` says that a text that has been written is read back.
* `World.start_eq` says what a start changes, and `World.sameDirectories_start` what it does not.
* `Packages.Asked` says which programs are tried for some requests, and where that ends;
  `Packages.asked_askAll` says so of every run.
* `Packages.answered_askAll` says what each request is answered: the words that the program prints,
  if it succeeds.
-/

namespace ForeignBindings

open Checks

namespace World

variable {w w' : World}

/-! ## Directories -/

/-- The same places are directories. -/
def SameDirectories (w w' : World) : Prop :=
  ∀ place, w'.isDirectoryAt place = w.isDirectoryAt place

theorem SameDirectories.refl (w : World) : SameDirectories w w :=
  fun _ => rfl

theorem SameDirectories.trans {w₁ w₂ w₃ : World} (h : SameDirectories w₁ w₂)
    (h' : SameDirectories w₂ w₃) : SameDirectories w₁ w₃ :=
  fun place => (h' place).trans (h place)

/-- A file is never written over a directory. -/
theorem not_isDirectoryAt_of_write {file : Written} (h : w.write file = .ok w') :
    w.isDirectoryAt (w.destination file.path) = false := by
  obtain ⟨_, _, -, -, -, no_directory, -⟩ := write_spec h
  exact no_directory

theorem ne_nil_of_not_isDirectoryAt {place : Location} (h : w.isDirectoryAt place = false) :
    place ≠ [] := by
  rintro rfl
  cases h

theorem sameDirectories_write {file : Written} (h : w.write file = .ok w') :
    SameDirectories w w' := by
  have no_directory := not_isDirectoryAt_of_write h
  have not_root := ne_nil_of_not_isDirectoryAt no_directory
  rw [write_eq_ok h]
  intro place
  by_cases here : w.destination file.path = place
  · -- there was no directory, and now there is a file
    subst here
    rw [no_directory, isDirectoryAt, node?_put not_root]
  · rw [isDirectoryAt, node?_put_of_ne here, isDirectoryAt]

theorem sameDirectories_applyWrites (w : World) (writes : List Written) :
    SameDirectories w (w.applyWrites writes) := by
  induction writes generalizing w with
  | nil => exact .refl w
  | cons file rest ih =>
    show SameDirectories w (((w.write file).toOption.getD w).applyWrites rest)
    cases hwrite : w.write file with
    | error e => exact ih w
    | ok w' => exact (sameDirectories_write hwrite).trans (ih w')

/-! ## Reading back -/

theorem walk_append (w : World) (place : Location) (steps more : List String) :
    w.walk place (steps ++ more) = w.walk place steps >>= fun place' => w.walk place' more := by
  induction steps generalizing place with
  | nil => rfl
  | cons step rest ih =>
    rw [List.cons_append, walk, walk]
    split
    · rfl
    · split
      · exact ih place
      · split
        · exact ih _
        · split
          · rfl
          · split
            · rfl
            · exact ih _

/-- Steps lead where they led before, as long as nothing on their way is taken away. -/
theorem walk_of_stays (hdirectories : SameDirectories w w')
    (hstays : ∀ place, (w.node? place).isNone = false → (w'.node? place).isNone = false)
    {place place' : Location} {steps : List String} (h : w.walk place steps = .ok place') :
    w'.walk place steps = .ok place' := by
  induction steps generalizing place with
  | nil => exact h
  | cons step rest ih =>
    rw [walk] at h ⊢
    rw [hdirectories place]
    split at h
    · cases h
    · rename_i is_directory
      rw [if_neg is_directory]
      split at h
      · rename_i dot
        rw [if_pos dot]
        exact ih h
      · rename_i no_dot
        rw [if_neg no_dot]
        split at h
        · rename_i up
          rw [if_pos up]
          exact ih h
        · rename_i not_up
          rw [if_neg not_up]
          split at h
          · cases h
          · rename_i short
            rw [if_neg short]
            split at h
            · cases h
            · rename_i found
              have still := hstays (place ++ [step]) (Bool.eq_false_iff.2 found)
              rw [still, if_neg Bool.false_ne_true]
              exact ih h

/-- The path of a file that has been written leads to it. -/
theorem resolve_of_write {file : Written} (h : w.write file = .ok w') :
    w'.resolve file.path = .ok (w.destination file.path) := by
  have directories := sameDirectories_write h
  obtain ⟨place, name, hnew, no_slash, short, no_directory, rfl⟩ := write_spec h
  obtain ⟨possible, front, hfront, hwalk, is_directory, not_dot, not_up⟩ :=
    steps_of_resolveNew hnew
  have content := node?_put (w := w) (ne_nil_of_not_isDirectoryAt no_directory)
    (.file file.content file.executable)
  -- what was on the way is still there, and the last step leads to the file
  have stays : ∀ place, (w.node? place).isNone = false →
      ((w.put (w.destination file.path) (.file file.content file.executable)).node? place).isNone =
        false := by
    intro place hplace
    by_cases here : w.destination file.path = place
    · rw [← here, content]
      rfl
    · rwa [node?_put_of_ne here]
  have last_step : (w.put (w.destination file.path) (.file file.content file.executable)).walk
      place [name] = .ok (w.destination file.path) := by
    rw [walk, directories place, is_directory, resolveNew_eq_ok hnew, content]
    simp [not_dot, not_up, short, walk]
  unfold resolve
  rw [possible, no_slash, if_neg Bool.false_ne_true, List.append_nil, hfront]
  show World.walk _ (w.startOf file.path) (front ++ [name]) = _
  rw [walk_append, walk_of_stays directories stays hwalk]
  exact last_step

/-- **Reading back.** A text that has been written is there, and is read as it was written. -/
theorem readText_of_write {path text : String} {executable : Bool}
    (h : w.write ⟨path, text.toUTF8, executable⟩ = .ok w') :
    w'.pathExists path = true ∧ w'.readText path = .ok text := by
  have found : w'.resolve path = .ok (w.destination path) := resolve_of_write h
  have not_root := ne_nil_of_not_isDirectoryAt (not_isDirectoryAt_of_write h)
  have content : w'.node? (w.destination path) = some (.file text.toUTF8 executable) := by
    rw [write_eq_ok h]
    exact node?_put not_root _
  have decoded : String.fromUTF8? text.toUTF8 = some text := dif_pos text.isValidUTF8
  constructor
  · rw [pathExists, found]
    rfl
  · unfold readText
    rw [found]
    simp only [bind, Except.bind, content, decoded]

/-! ## Starts -/

/-- A start changes the tree and the calls, and is itself the last attempt. -/
theorem start_eq (w : World) (call : Invocation) :
    ∃ nodes calls,
      (w.start call).2 = { w with nodes, calls, attempts := w.attempts ++ [call] } := by
  unfold start
  dsimp only
  split
  · exact ⟨w.nodes, w.calls, rfl⟩
  · split
    · exact ⟨w.nodes, w.calls, rfl⟩
    · rename_i p hp
      obtain ⟨nodes, hnodes⟩ := applyWrites_eq
        { w.attempt call with calls := (w.attempt call).calls ++ [call] }
        (p.respond (w.attempt call).calls call.tail).writes
      exact ⟨nodes, _, hnodes⟩

theorem attempts_start (w : World) (call : Invocation) :
    (w.start call).2.attempts = w.attempts ++ [call] := by
  obtain ⟨nodes, calls, h⟩ := w.start_eq call
  rw [h]

theorem environment_start (w : World) (call : Invocation) :
    (w.start call).2.environment = w.environment := by
  obtain ⟨nodes, calls, h⟩ := w.start_eq call
  rw [h]

theorem sameDirectories_start (w : World) (call : Invocation) :
    SameDirectories w (w.start call).2 := by
  unfold start
  dsimp only
  split
  · exact fun _ => rfl
  · split
    · exact fun _ => rfl
    · exact fun place => sameDirectories_applyWrites _ _ place

/-- Where a file has been removed, nothing is. -/
theorem node?_of_remove {path : String} (h : w.remove path = .ok w') :
    w'.node? (w.destination path) = none := by
  obtain ⟨not_root, removed⟩ := remove_eq_ok h
  rw [removed]
  exact node?_delete not_root

/-- The program that is started with a call can be started, and ends with success. -/
def Succeeds (w : World) (call : Invocation) : Prop :=
  ∃ response, (w.start call).1 = .ok response ∧ response.exit = .code 0

end World

/-! ## Commands -/

namespace Command

/-- A command fails if its program cannot be started, or ends with anything but success. -/
theorem outcome_run (call : Invocation) (w : World) :
    (run call).outcome w =
      (match (w.start call).1 with
        | .ok response =>
          if response.exit = .code 0 then .ok response
          else .error (.failed (line call) response.exit response.stdout response.stderr)
        | .error e => .error (.spawn (line call) e),
      (w.start call).2) := by
  unfold run
  rw [Action.outcome_bind, Action.outcome_mapError, Action.outcome_start]
  cases w.start call with
  | mk result w' =>
    cases result with
    | error e => rfl
    | ok response =>
      show Action.outcome (if response.exit = .code 0 then _ else _) w' = _
      dsimp only
      split <;> rfl

end Command

/-! ## Packages -/

namespace Packages

/-- The call that asks for the packages of a request. -/
def Request.call (w : World) (r : Request) : Invocation :=
  w.environment.packageTool.getD "pkg-config" :: "--cflags" :: r.names

/-- The request has been met, or may be missing. -/
def Request.SettledBy (r : Request) (a : Answer) : Prop :=
  (∃ flags, a = .ok flags) ∨ r.optional = true

/-- Each request has been answered, and is settled. -/
inductive Settled : List Request → List Answer → Prop
  | nil : Settled [] []
  | cons {r : Request} {a : Answer} {rs : List Request} {answers : List Answer}
    (first : r.SettledBy a) (rest : Settled rs answers) : Settled (r :: rs) (a :: answers)

/-- How the answers to some requests have come about: one program has been tried for each request in
turn, until all of them were settled, or up to one that has to be met and was not. -/
inductive Asked (w : World) : List Request → List Answer → World → Prop
  | settled {rs : List Request} {answers : List Answer} {w' : World} (h : Settled rs answers)
    (tried : w'.attempts = w.attempts ++ rs.map (Request.call w)) : Asked w rs answers w'
  | refused {before after : List Request} {r : Request} {met : List Answer} {cause : CommandError}
    {w' : World} (h : Settled before met) (required : r.optional = false)
    (tried : w'.attempts = w.attempts ++ (before ++ [r]).map (Request.call w)) :
    Asked w (before ++ r :: after) (met ++ [.error cause]) w'

theorem refusal?_cons {r : Request} {a : Answer} (h : r.SettledBy a) (rs : List Request)
    (answers : List Answer) : refusal? (r :: rs) (a :: answers) = refusal? rs answers := by
  cases a with
  | ok flags => rfl
  | error cause =>
    rcases h with ⟨flags, heq⟩ | optional
    · cases heq
    · rw [refusal?, if_pos optional]

theorem Settled.refusal?_eq {rs : List Request} {answers : List Answer} (h : Settled rs answers) :
    refusal? rs answers = none := by
  induction h with
  | nil => rfl
  | cons first rest ih => rw [refusal?_cons first, ih]

theorem Settled.refusal?_append {before after : List Request} {r : Request} {met : List Answer}
    {cause : CommandError} (h : Settled before met) (required : r.optional = false) :
    refusal? (before ++ r :: after) (met ++ [.error cause]) =
      some (.packages r.line r.names cause) := by
  induction h with
  | nil => simp [refusal?, required]
  | cons first rest ih => rw [List.cons_append, List.cons_append, refusal?_cons first, ih]

/-- A settled request leaves the others, which are asked in the world after it. -/
theorem Asked.cons {w w' w'' : World} {r : Request} {a : Answer} {rs : List Request}
    {answers : List Answer} (first : r.SettledBy a)
    (tried : w'.attempts = w.attempts ++ [r.call w]) (same : w'.environment = w.environment)
    (rest : Asked w' rs answers w'') : Asked w (r :: rs) (a :: answers) w'' := by
  have same_call : Request.call w' = Request.call w := by
    funext r'
    rw [Request.call, Request.call, same]
  cases rest with
  | settled h tried' =>
    refine .settled (.cons first h) ?_
    rw [tried', tried, same_call, List.append_assoc]
    rfl
  | refused h required tried' =>
    refine .refused (.cons first h) required ?_
    rw [tried', tried, same_call, List.append_assoc]
    rfl

/-- A request starts one program. -/
theorem world_packageFlags (r : Request) (w : World) :
    ((Command.packageFlags r.names).outcome w).2 = (w.start (r.call w)).2 := by
  unfold Command.packageFlags
  rw [Action.outcome_bind_of_ok (Action.outcome_get w), Action.outcome_bind_pure,
    Command.outcome_run]
  rfl

theorem asked_askAll (rs : List Request) (w : World) :
    Asked w rs (askAll rs w).1 (askAll rs w).2 := by
  induction rs generalizing w with
  | nil => exact .settled .nil (by simp [askAll])
  | cons r rest ih =>
    have tried := World.attempts_start w (r.call w)
    have same := World.environment_start w (r.call w)
    rw [← world_packageFlags] at tried same
    cases hflags : (Command.packageFlags r.names).outcome w with
    | mk answer w' =>
      rw [hflags] at tried same
      cases answer with
      | ok flags =>
        rw [askAll, hflags]
        exact (ih w').cons (.inl ⟨flags, rfl⟩) tried same
      | error cause =>
        cases hoptional : r.optional with
        | true =>
          -- what is logged in between starts nothing
          let logged := w'.record (r.skipped cause)
          have logged_tried : logged.attempts = w.attempts ++ [r.call w] := tried
          have logged_same : logged.environment = w.environment := same
          have settled : r.SettledBy (.error cause) := .inr hoptional
          have asked := (ih logged).cons settled logged_tried logged_same
          simpa [askAll, hflags, hoptional] using asked
        | false =>
          have refused : Asked w ([] ++ r :: rest) ([] ++ [.error cause]) w' :=
            .refused .nil hoptional tried
          simpa [askAll, hflags, hoptional] using refused

/-- What a request is answered in a world: the words that the program prints, if it succeeds, and a
failure otherwise. -/
def Request.AnsweredBy (r : Request) (w : World) : Answer → Prop
  | .ok flags => ∃ response, (w.start (r.call w)).1 = .ok response ∧ response.exit = .code 0 ∧
      Text.HasWords response.stdout.toList (flags.map String.toList)
  | .error _ => ¬ w.Succeeds (r.call w)

theorem answeredBy_packageFlags (r : Request) (w : World) :
    r.AnsweredBy w ((Command.packageFlags r.names).outcome w).1 := by
  have outcome : (Command.packageFlags r.names).outcome w =
      (((Command.run (r.call w)).outcome w).1.map fun response => Text.words response.stdout,
        ((Command.run (r.call w)).outcome w).2) := by
    unfold Command.packageFlags
    rw [Action.outcome_bind_of_ok (Action.outcome_get w), Action.outcome_bind_pure]
    rfl
  rw [outcome, Command.outcome_run]
  cases hstart : (w.start (r.call w)).1 with
  | error e =>
    rintro ⟨response, started, -⟩
    cases hstart.symm.trans started
  | ok response =>
    dsimp only
    by_cases success : response.exit = .code 0
    · rw [if_pos success]
      refine ⟨response, hstart, success, Text.hasWords_iff.2 ?_⟩
      simp [Text.words, Function.comp_def]
    · rw [if_neg success]
      rintro ⟨response', started, success'⟩
      cases hstart.symm.trans started
      exact success success'

/-- **Answers.** Each request is answered in the world that the requests before it have left. -/
theorem answered_askAll (rs : List Request) (w : World) {i : Nat} {r : Request} {a : Answer}
    (hr : rs[i]? = some r) (ha : (askAll rs w).1[i]? = some a) :
    r.AnsweredBy (askAll (rs.take i) w).2 a := by
  induction rs generalizing w i with
  | nil => cases hr
  | cons q rest ih =>
    have answered := answeredBy_packageFlags q w
    cases hflags : (Command.packageFlags q.names).outcome w with
    | mk answer w' =>
      rw [hflags] at answered
      cases answer with
      | ok flags =>
        simp only [askAll, hflags] at ha
        cases i with
        | zero =>
          cases hr
          cases ha
          exact answered
        | succ i =>
          simp only [List.take_succ_cons, askAll, hflags]
          exact ih w' hr ha
      | error cause =>
        cases i with
        | zero =>
          cases hr
          have first : (askAll (r :: rest) w).1[0]? = some (.error cause) := by
            cases hoptional : r.optional <;> simp [askAll, hflags, hoptional]
          rw [first] at ha
          cases ha
          exact answered
        | succ i =>
          -- only a request that may be missing is followed by others
          cases hoptional : q.optional with
          | true =>
            simp only [askAll, hflags, hoptional, if_true] at ha
            simp only [List.take_succ_cons, askAll, hflags, hoptional, if_true]
            exact ih _ hr ha
          | false =>
            simp only [askAll, hflags, hoptional] at ha
            cases ha

end Packages

end ForeignBindings
