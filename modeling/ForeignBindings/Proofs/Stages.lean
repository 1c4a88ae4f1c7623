import ForeignBindings.Proofs.Layout
import ForeignBindings.Proofs.Refusals
import ForeignBindings.Proofs.Runs
import ForeignBindings.Proofs.Starts

/-!
# The stages of a run

A run on a specification that is understood goes through three stages in which programs are started:
the packages, the compiler, and for a probe the program that has been compiled. Each stage begins
only after the one before it has succeeded.

* `World.Idle` says that nothing is tried between two worlds, as in all that a run does itself.
* `Generated.outcome_ofDirectives` says that the packages decide whether a program is generated.
* `Pipeline.run_of_prepare_error`, `Pipeline.run_of_compiler_error` and
  `Pipeline.attempts_of_compiled` are the ways in which a run ends.
* `Pipeline.stages` puts them together: which programs are tried, in which order and with which
  arguments, and what each failure leaves in the tree.
-/

namespace ForeignBindings

open Spec Checks Packages

/-! ## Between programs -/

namespace World

variable {w w' : World}

/-- No program has been tried between the two worlds. -/
def Idle (w w' : World) : Prop :=
  w'.attempts = w.attempts

theorem Idle.refl (w : World) : Idle w w := rfl

theorem Idle.trans (w₁ w₂ w₃ : World) (h : Idle w₁ w₂) (h' : Idle w₂ w₃) : Idle w₁ w₃ :=
  Eq.trans h' h

theorem idle_write {file : Written} (h : w.write file = .ok w') : Idle w w' := by
  rw [write_eq_ok h]
  rfl

theorem idle_createDirectory {path : String} (h : w.createDirectory path = .ok w') :
    Idle w w' := by
  rw [(createDirectory_eq_ok h).2]
  rfl

theorem idle_remove (w : World) (path : String) : Idle w ((w.remove path).toOption.getD w) := by
  cases hremove : w.remove path with
  | error e => rfl
  | ok w' =>
    show w'.attempts = w.attempts
    rw [(remove_eq_ok hremove).2]
    rfl

theorem Keeps.file?_eq {place : Location} (h : Keeps place w w') :
    w'.file? place = w.file? place ∨ WritesBetween place w w' := by
  rcases h.node?_eq with same | ⟨free, created⟩ | written
  · exact .inl (by rw [file?, file?, same])
  · exact .inl (by rw [file?, file?, free, created])
  · exact .inr written

/-- Where no directory has come, something is at a place only if it was before, or was written. -/
theorem Keeps.node?_eq_of_sameDirectories {place : Location} (h : Keeps place w w')
    (hdirectories : SameDirectories w w') :
    w'.node? place = w.node? place ∨ WritesBetween place w w' := by
  rcases h.node?_eq with same | ⟨free, created⟩ | written
  · exact .inl same
  · have directory := hdirectories place
    rw [isDirectoryAt, isDirectoryAt, free, created] at directory
    cases directory
  · exact .inr written

end World

open World (Idle Succeeds)

theorem Command.outcome_run_of_succeeds {call : Invocation} {w : World} (h : w.Succeeds call) :
    ∃ response, (run call).outcome w = (.ok response, (w.start call).2) := by
  obtain ⟨response, started, success⟩ := h
  refine ⟨response, ?_⟩
  rw [outcome_run, started]
  dsimp only
  rw [if_pos success]

theorem Command.outcome_run_of_not_succeeds {call : Invocation} {w : World}
    (h : ¬ w.Succeeds call) :
    ∃ cause, (run call).outcome w = (.error cause, (w.start call).2) := by
  rw [outcome_run]
  cases hstart : (w.start call).1 with
  | error e => exact ⟨_, rfl⟩
  | ok response =>
    have failed : response.exit ≠ .code 0 := fun success => h ⟨response, hstart, success⟩
    dsimp only
    rw [if_neg failed]
    exact ⟨_, rfl⟩

theorem Packages.sameDirectories_askAll (rs : List Request) (w : World) :
    World.SameDirectories w (askAll rs w).2 := by
  induction rs generalizing w with
  | nil => exact .refl w
  | cons r rest ih =>
    have started := w.sameDirectories_start (r.call w)
    rw [← world_packageFlags] at started
    rw [askAll]
    cases hflags : (Command.packageFlags r.names).outcome w with
    | mk answer w' =>
      rw [hflags] at started
      cases answer with
      | ok flags => exact started.trans (ih w')
      | error cause =>
        dsimp only
        split
        · exact started.trans (ih (w'.record (r.skipped cause)))
        · exact started

/-! ## The first stage -/

/-- The answers to the requests decide whether a program is generated, and which flags it has. -/
theorem Generated.outcome_ofDirectives {mode : Mode} {ds : List Directive} {ps : List Placed}
    (h : (Dialect.ofMode mode).interpretAll ds = .ok ps) :
    ∃ g : List Answer → Generated, (∀ answers, (g answers).flags = flagsOf ps answers) ∧
      ∀ w, (ofDirectives mode ds).outcome w =
        (match refusal? (requests ps) (askAll (requests ps) w).1 with
          | none => .ok (g (askAll (requests ps) w).1)
          | some e => .error e,
        (askAll (requests ps) w).2) := by
  cases mode with
  | probe =>
    -- headers are taken first, but ask for nothing
    obtain ⟨same_requests, same_flags⟩ :=
      of_othersIn fun p hp => Dialect.kind_mem_of_interpretAll h hp
    refine ⟨layout (headersIn ps) (othersIn ps), fun answers => congrFun same_flags answers, ?_⟩
    intro w
    rw [← same_requests]
    exact outcome_probe h w
  | wrapper =>
    refine ⟨fun answers => ofDraft (((Draft.start .wrapper).write banner).after ps answers),
      fun answers => List.nil_append _, ?_⟩
    intro w
    have understood : (monadLift (entries .wrapper ds) : Action GenerationError _).outcome w =
        (.ok ps, w) := by
      rw [Action.outcome_monadLift_except, entries, h]
      rfl
    show (wrapper ds).outcome w = _
    unfold wrapper
    rw [Action.outcome_bind_of_ok understood, Action.outcome_bind_pure, outcome_collect_eq]
    cases refusal? (requests ps) (askAll (requests ps) w).1 <;> rfl

/-! ## Saving the source -/

namespace Pipeline

theorem idle_saveText (path text : String) : Action.Preserves Idle (saveText path text) :=
  .ofChange Idle.refl fun _ _ => World.idle_write

theorem idle_saveProgram (o : Outputs) (source : String) :
    Action.Preserves Idle (saveProgram o source) := by
  refine .bind Idle.trans (.mapError (.ofSteps ?_) _) fun _ => .mapError (idle_saveText _ _) _
  intro w
  exact World.createChain_induction Idle.refl Idle.trans
    (fun _ _ _ => World.idle_createDirectory) w _

theorem idle_logMissing (input : String) (names : List String) :
    Action.Preserves Idle (logMissing input names) := by
  induction names with
  | nil => exact .pure Idle.refl _
  | cons name rest ih => exact .bind Idle.trans (.log (fun _ _ => rfl) _ _ _) fun _ => ih

/-- A text that has been saved is put where its path leads, below the root. -/
theorem put_of_saveText {path text : String} {w w' : World}
    (h : (saveText path text).outcome w = (.ok (), w')) :
    w.destination path ≠ [] ∧ w' = w.put (w.destination path) (.file text.toUTF8 false) := by
  unfold saveText at h
  rw [Action.outcome_ofChange] at h
  split at h
  · rename_i w₁ hwrite
    obtain ⟨-, rfl⟩ := Prod.mk.inj h
    have not_root := World.ne_nil_of_not_isDirectoryAt (World.not_isDirectoryAt_of_write hwrite)
    exact ⟨not_root, World.write_eq_ok hwrite⟩
  · cases h

/-- A source that has been saved is found at its path. -/
theorem node?_of_saveProgram {o : Outputs} {source : String} {w w' : World}
    (h : (saveProgram o source).outcome w = (.ok (), w')) :
    w'.node? (w.destination o.source) = some (.file (endLine source).toUTF8 false) := by
  obtain ⟨_, w₁, hdirectories, hsave⟩ := Action.outcome_bind_eq_ok.1 h
  rw [Action.outcome_mapError_eq_ok] at hdirectories hsave
  -- creating directories leaves paths leading where they led
  have same_place : w₁.destination o.source = w.destination o.source := by
    have kept : World.Keeps [] w (w.createDirectories o.directory).2 :=
      World.Keeps.createChain w _
    rw [Action.outcome_ofSteps] at hdirectories
    rw [hdirectories] at kept
    exact World.destination_congr kept.workingDirectory_eq _
  obtain ⟨not_root, rfl⟩ := put_of_saveText hsave
  rw [← same_place]
  exact World.node?_put not_root _

end Pipeline

/-! ## The compiler -/

/-- What the compiler makes in a mode. -/
def Mode.product : Mode → Product
  | probe => .executable
  | wrapper => .sharedLibrary

/-- The world in which something is compiled. An old library is gone, unless the host keeps it. -/
def Product.cleared (product : Product) (output : String) (w : World) : World :=
  match product with
  | executable => w
  | sharedLibrary => (w.remove output).toOption.getD w

theorem Compiler.outcome_compile (c : Compiler) (source output : String) (flags : List String)
    (product : Product) (w : World) :
    (c.compile source output flags product).outcome w =
      (((Command.run (c.command source output flags product)).outcome
          (product.cleared output w)).1.map fun _ => (),
        ((Command.run (c.command source output flags product)).outcome
          (product.cleared output w)).2) := by
  cases product with
  | executable =>
    show Action.outcome (do let _ ← Command.run _) w = _
    rw [Action.outcome_bind_pure]
    rfl
  | sharedLibrary =>
    have discarded : (discard output).outcome w =
        (.ok ⟨⟩, Product.sharedLibrary.cleared output w) := rfl
    show Action.outcome (discard output >>= fun _ => (do let _ ← Command.run _)) w = _
    rw [Action.outcome_bind_of_ok discarded, Action.outcome_bind_pure]

/-- The failure comes from a program that has been started, or could not be. -/
def RunError.isBuild : RunError → Bool
  | .build _ => true
  | _ => false

theorem RunError.eq_build {e : RunError} (h : e.isBuild = true) : ∃ cause, e = .build cause := by
  cases e with
  | build cause => exact ⟨cause, rfl⟩
  | _ => cases h

namespace Pipeline

/-- The call of the compiler in a run: the compiler that the environment asks for, or else the
configuration, with all flags in their places. -/
def compilerCall (config : Configuration) (env : Environment) (mode : Mode) (flags : List String)
    (o : Outputs) : Invocation :=
  [((Compiler.environmentCompiler? env).or config.compiler).getD "cc"] ++
    config.wordSizeFlags.getD ["-m64"] ++ config.extraFlags ++ flags ++
    ["-I" ++ config.supportDirectory.getD env.supportDirectory] ++
    (match mode with
      | .probe => []
      | .wrapper => config.sharedLibraryFlags.getD ["-shared", "-fPIC"]) ++
    ["-o", o.binary, o.source]

theorem command_eq_compilerCall (config : Configuration) (env : Environment) (mode : Mode)
    (flags : List String) (o : Outputs) :
    (Compiler.ofConfiguration config env).command o.source o.binary flags mode.product =
      compilerCall config env mode flags o := by
  cases mode <;> rfl

/-- What a run logs before it compiles. -/
def announcement (o : Outputs) : Mode → LogEntry
  | .probe => ⟨.info, logOrigin, "compiling probe " ++ o.binary⟩
  | .wrapper => ⟨.info, logOrigin, "linking " ++ o.binary⟩

/-- The world in which a run starts the compiler, once the source has been saved. -/
def readyToCompile (mode : Mode) (o : Outputs) (saved : World) : World :=
  mode.product.cleared o.binary (saved.record (announcement o mode))

/-- The calls of a run after the compiler has succeeded. -/
def callsAfterCompiler (o : Outputs) : Mode → List Invocation
  | .probe => [[o.binary, o.bindings]]
  | .wrapper => []

/-- How the run of a mode fails, if it does. -/
def failureAfter (mode : Mode) (input : String) (output : Option String) (compiler : Compiler)
    (w : World) : Option RunError :=
  match mode with
  | .probe =>
    match ((probe input output compiler).outcome w).1 with
    | .ok _ => none
    | .error e => some e
  | .wrapper =>
    match ((wrapper input output compiler).outcome w).1 with
    | .ok _ => none
    | .error e => some e

/-! ## How a run ends -/

theorem outcome_log (level : Level) (message : String) (w : World) :
    (log level message).outcome w = (.ok (), w.record ⟨level, logOrigin, message⟩) := rfl

section Ends

variable {mode : Mode} {input : String} {output : Option String} {compiler : Compiler}
  {w saved w' : World} {g : Generated} {o : Outputs}

theorem run_of_prepare_error {e : RunError}
    (h : (prepare mode input output).outcome w = (.error e, w')) :
    failureAfter mode input output compiler w = some e ∧
      worldAfter mode input output compiler w = w' := by
  cases mode with
  | probe =>
    unfold failureAfter worldAfter probe
    rw [Action.outcome_bind_of_error h]
    exact ⟨rfl, rfl⟩
  | wrapper =>
    unfold failureAfter worldAfter wrapper
    rw [Action.outcome_bind_of_error h]
    exact ⟨rfl, rfl⟩

theorem run_of_compiler_error {cause : CommandError}
    (hprepare : (prepare mode input output).outcome w = (.ok (g, o), saved))
    (hrun : (Command.run (compiler.command o.source o.binary g.flags mode.product)).outcome
      (readyToCompile mode o saved) = (.error cause, w')) :
    failureAfter mode input output compiler w = some (.build cause) ∧
      worldAfter mode input output compiler w = w' := by
  have compiled : (Action.mapError RunError.build
      (compiler.compile o.source o.binary g.flags mode.product)).outcome
        (saved.record (announcement o mode)) = (.error (.build cause), w') := by
    rw [Action.outcome_mapError, Compiler.outcome_compile, ← readyToCompile, hrun]
    rfl
  cases mode with
  | probe =>
    dsimp only [Mode.product, announcement] at compiled
    unfold failureAfter worldAfter probe
    rw [Action.outcome_bind_of_ok hprepare]
    dsimp only
    rw [Action.outcome_bind_of_ok (outcome_log ..), Action.outcome_bind_of_error compiled]
    exact ⟨rfl, rfl⟩
  | wrapper =>
    dsimp only [Mode.product, announcement] at compiled
    unfold failureAfter worldAfter wrapper
    rw [Action.outcome_bind_of_ok hprepare]
    dsimp only
    rw [Action.outcome_bind_of_ok (outcome_log ..), Action.outcome_bind_of_error compiled]
    exact ⟨rfl, rfl⟩

theorem attempts_of_compiled {response : Response}
    (hprepare : (prepare mode input output).outcome w = (.ok (g, o), saved))
    (hrun : (Command.run (compiler.command o.source o.binary g.flags mode.product)).outcome
      (readyToCompile mode o saved) = (.ok response, w')) :
    (worldAfter mode input output compiler w).attempts =
      w'.attempts ++ callsAfterCompiler o mode := by
  have compiled : (Action.mapError RunError.build
      (compiler.compile o.source o.binary g.flags mode.product)).outcome
        (saved.record (announcement o mode)) = (.ok (), w') := by
    rw [Action.outcome_mapError, Compiler.outcome_compile, ← readyToCompile, hrun]
    rfl
  cases mode with
  | probe =>
    dsimp only [Mode.product, announcement] at compiled
    unfold worldAfter probe
    dsimp only
    rw [Action.outcome_bind_of_ok hprepare]
    dsimp only
    rw [Action.outcome_bind_of_ok (outcome_log ..), Action.outcome_bind_of_ok compiled,
      Action.outcome_bind_of_ok (outcome_log ..)]
    -- the probe is tried, and whatever comes of it, nothing else is
    let call : Invocation := [o.binary, o.bindings]
    let ready := w'.record ⟨.info, logOrigin, "running probe, writing " ++ o.bindings⟩
    have tried : ((Action.mapError RunError.build (Command.probe o.binary o.bindings)).outcome
        ready).2.attempts = w'.attempts ++ [call] := by
      rw [Action.outcome_mapError]
      unfold Command.probe
      rw [Action.outcome_bind_pure, Command.outcome_run]
      exact World.attempts_start ready call
    rw [Action.outcome_bind]
    generalize Action.outcome (Action.mapError RunError.build _) _ = probed at tried
    obtain ⟨result, w₁⟩ := probed
    cases result with
    | error e => exact tried
    | ok missing =>
      refine Eq.trans ?_ tried
      show Idle w₁ (Action.outcome _ w₁).2
      exact Action.Preserves.bind Idle.trans (idle_logMissing _ _) (fun _ => .pure Idle.refl _) w₁
  | wrapper =>
    dsimp only [Mode.product, announcement] at compiled
    unfold worldAfter wrapper
    dsimp only
    rw [Action.outcome_bind_of_ok hprepare]
    dsimp only
    rw [Action.outcome_bind_of_ok (outcome_log ..), Action.outcome_bind_of_ok compiled]
    rw [callsAfterCompiler, List.append_nil]
    show Idle w' (Action.outcome _ w').2
    -- the bindings are written by the run itself
    refine Action.Preserves.bind Idle.trans (.mapError (.ofLook Idle.refl _) _) ?_ w'
    intro searchPath
    refine .bind Idle.trans (.mapError (idle_saveText _ _) _) fun _ => ?_
    refine .bind Idle.trans (.log (fun _ _ => rfl) _ _ _) fun _ => ?_
    exact .pure Idle.refl _

end Ends

/-! ## What a failure leaves -/

section Failures

variable {mode : Mode} {input : String} {output : Option String} {w w' saved : World}
  {g : Generated} {o : Outputs}

/-- What is kept at a place until the compiler is started. -/
theorem keeps_readyToCompile {place : Location}
    (hprepare : (prepare mode input output).outcome w = (.ok (g, o), saved))
    (hsource : w.destination o.source ≠ place)
    (hlibrary : mode = .wrapper → w.destination o.binary ≠ place) :
    World.Keeps place w saved ∧ World.Keeps place w (readyToCompile mode o saved) := by
  have outputs_eq := outputs_of_prepare hprepare
  have prepared : Action.Preserves (World.KeepsLike w place) (prepare mode input output) := by
    refine keeps_prepare ?_
    intro o' ho'
    cases outputs_eq.symm.trans ho'
    exact hsource
  have saved_kept : World.Keeps place w saved := by
    have kept := prepared w rfl
    rw [hprepare] at kept
    exact kept
  let logged := saved.record (announcement o mode)
  have logged_kept : World.Keeps place w logged :=
    saved_kept.trans (World.Keeps.of_node? rfl rfl rfl rfl rfl)
  refine ⟨saved_kept, ?_⟩
  cases mode with
  | probe => exact logged_kept
  | wrapper =>
    -- only an old library is removed, which is not at the place
    show World.Keeps place w ((logged.remove o.binary).toOption.getD logged)
    cases hremove : logged.remove o.binary with
    | error e => exact logged_kept
    | ok w' =>
      refine logged_kept.trans (World.Keeps.remove hremove ?_)
      rw [World.destination_congr logged_kept.workingDirectory_eq]
      exact hlibrary rfl

/-- Neither the source nor an old library is where the bindings are. -/
theorem keeps_bindings (hprepare : (prepare mode input output).outcome w = (.ok (g, o), saved)) :
    World.Keeps (w.destination o.bindings) w saved ∧
      World.Keeps (w.destination o.bindings) w (readyToCompile mode o saved) := by
  obtain ⟨name, derived⟩ := Outputs.derived_of_ofInput (outputs_of_prepare hprepare)
  apply keeps_readyToCompile hprepare (Outputs.source_ne_bindings derived w)
  rintro rfl
  exact (Outputs.library_ne_others derived w).2

theorem idle_readyToCompile (mode : Mode) (o : Outputs) (saved : World) :
    Idle saved (readyToCompile mode o saved) := by
  cases mode with
  | probe => rfl
  | wrapper => exact World.idle_remove _ o.binary

/-- When the compiler is started for a library, there is none, unless the host has kept it. -/
theorem library_readyToCompile (o : Outputs) (saved : World) :
    (readyToCompile .wrapper o saved).node? (saved.destination o.binary) = none ∨
      (∃ e, saved.remove o.binary = .error e) ∧
        ∀ place, (readyToCompile .wrapper o saved).node? place = saved.node? place := by
  let logged := saved.record (announcement o .wrapper)
  have removal : logged.remove o.binary = _ := World.remove_record _ o.binary
  show ((logged.remove o.binary).toOption.getD logged).node? _ = none ∨ _ ∧
    ∀ place, ((logged.remove o.binary).toOption.getD logged).node? place = _
  cases hremove : saved.remove o.binary with
  | error e =>
    rw [removal, hremove]
    exact .inr ⟨⟨e, rfl⟩, fun place => World.node?_record _ place⟩
  | ok w' =>
    left
    rw [removal, hremove]
    show (w'.record _).node? _ = none
    rw [World.node?_record, World.node?_of_remove hremove]

/-- What has been saved is still there when the compiler is started. -/
theorem node?_readyToCompile {place : Location} {node : Node}
    (hlibrary : mode = .wrapper → saved.destination o.binary ≠ place)
    (hnode : saved.node? place = some node) :
    (readyToCompile mode o saved).node? place = some node := by
  cases mode with
  | probe => exact hnode
  | wrapper =>
    let logged := saved.record (announcement o .wrapper)
    show ((logged.remove o.binary).toOption.getD logged).node? place = some node
    cases hremove : logged.remove o.binary with
    | error e => exact hnode
    | ok w' =>
      have elsewhere : logged.destination o.binary ≠ place := hlibrary rfl
      show w'.node? place = some node
      rw [(World.remove_eq_ok hremove).2, World.node?_delete_of_ne elsewhere]
      exact hnode

/-- A compiler that fails was tried, and leaves the bindings as they were, and no library of an
earlier run but one that the host has refused to remove. -/
theorem left_by_failed_compiler {compiler : Compiler}
    (hprepare : (prepare mode input output).outcome w = (.ok (g, o), saved))
    (hfails : ¬ (readyToCompile mode o saved).Succeeds
      (compiler.command o.source o.binary g.flags mode.product)) :
    let ready := readyToCompile mode o saved
    let call := compiler.command o.source o.binary g.flags mode.product
    let last := worldAfter mode input output compiler w
    (∃ cause, failureAfter mode input output compiler w = some (.build cause)) ∧
      last.attempts = ready.attempts ++ [call] ∧
      (last.file? (w.destination o.bindings) = w.file? (w.destination o.bindings) ∨
        World.WritesBetween (w.destination o.bindings) w last) ∧
      (mode = .wrapper → ∀ content executable,
        last.node? (w.destination o.binary) = some (.file content executable) →
        (saved.node? (w.destination o.binary) = some (.file content executable) ∧
          ∃ e, saved.remove o.binary = .error e) ∨
        World.WritesBetween (w.destination o.binary) ready last) := by
  intro ready call last
  have bindings_kept := (keeps_bindings hprepare).2
  obtain ⟨cause, hrun⟩ := Command.outcome_run_of_not_succeeds hfails
  obtain ⟨failed, left_as⟩ := run_of_compiler_error hprepare hrun
  have left_by_call : last = (ready.start call).2 := left_as
  rw [left_by_call]
  refine ⟨⟨cause, failed⟩, World.attempts_start ready call, ?_, ?_⟩
  · have kept := bindings_kept.trans (World.keeps_start _ ready call)
    exact kept.file?_eq
  · rintro rfl content executable found
    have same_place : saved.destination o.binary = w.destination o.binary :=
      World.destination_congr (keeps_bindings hprepare).1.workingDirectory_eq o.binary
    have removal := library_readyToCompile o saved
    rw [same_place] at removal
    have kept := World.keeps_start (w.destination o.binary) ready call
    rcases kept.node?_eq with same | ⟨-, created⟩ | written
    · rw [same] at found
      rcases removal with gone | ⟨refused, unchanged⟩
      · cases gone.symm.trans found
      · exact .inl ⟨(unchanged _).symm.trans found, refused⟩
    · cases created.symm.trans found
    · exact .inr written

end Failures

/-! ## All stages -/

section Stages

variable {mode : Mode} {input : String} {output : Option String} {w asked : World}
  {ds : List Directive}

theorem prepare_of_refused {e : GenerationError}
    (hread : (directivesIn input).outcome w = (.ok ds, w))
    (h : (Generated.ofDirectives mode ds).outcome w = (.error e, asked)) :
    (prepare mode input output).outcome w = (.error (.generate e), asked) := by
  have refused : (Action.mapError RunError.generate (Generated.ofDirectives mode ds)).outcome w =
      (.error (.generate e), asked) := by
    rw [Action.outcome_mapError, h]
    rfl
  unfold prepare
  rw [Action.outcome_bind_of_ok hread, Action.outcome_bind_of_error refused]

/-- A generated program is saved, or the run ends there. -/
theorem prepare_of_generated {g : Generated} (hread : (directivesIn input).outcome w = (.ok ds, w))
    (h : (Generated.ofDirectives mode ds).outcome w = (.ok g, asked)) :
    (∃ e w', (prepare mode input output).outcome w = (.error e, w') ∧ Idle asked w' ∧
      ∀ o, Outputs.ofInput input output mode = .ok o →
        (saveProgram o g.source).outcome asked = (.error e, w')) ∨
    ∃ o saved, Outputs.ofInput input output mode = .ok o ∧
      (saveProgram o g.source).outcome asked = (.ok (), saved) ∧
      (prepare mode input output).outcome w = (.ok (g, o), saved) := by
  have generated : (Action.mapError RunError.generate (Generated.ofDirectives mode ds)).outcome w =
      (.ok g, asked) :=
    Action.outcome_mapError_eq_ok.2 h
  unfold prepare
  rw [Action.outcome_bind_of_ok hread, Action.outcome_bind_of_ok generated]
  cases Outputs.ofInput input output mode with
  | error cause => exact .inl ⟨_, asked, rfl, rfl, nofun⟩
  | ok o =>
    dsimp only
    rw [Action.outcome_bind_of_ok (Action.outcome_pure asked o), Action.outcome_bind]
    cases hsave : (saveProgram o g.source).outcome asked with
    | mk result saved =>
      cases result with
      | error e =>
        refine .inl ⟨e, saved, rfl, ?_, ?_⟩
        · have idle := idle_saveProgram o g.source asked
          rw [hsave] at idle
          exact idle
        · intro o' ho'
          cases ho'
          exact hsave
      | ok _ => exact .inr ⟨o, saved, rfl, hsave, rfl⟩

end Stages

/-- A specification that can do without its package, and has a flag. -/
def flaggedText : String :=
  "(pkg-config-cflags \"zlib\" :optional true)(flag \"-g\")(constant (ok \"OK\"))"

/-- A host without packages, whose compiler makes a program. -/
def flaggedHost : World :=
  { World.holding "s.spec" flaggedText with
    programs := fun name =>
      if name = "cc" then some ⟨fun _ _ => ⟨.code 0, "", "", [⟨"./s", .empty, true⟩]⟩⟩ else none }

/-- A host that keeps an old library, and whose compiler fails. -/
def keepingHost : World :=
  { World.holding "s.spec" "(c \"x\")" with
    nodes := [(["s.spec"], .file "(c \"x\")".toUTF8 false), (["libs.so"], .file "old".toUTF8 true)]
    programs := fun name => if name = "cc" then some ⟨fun _ _ => ⟨.code 1, "", "", []⟩⟩ else none
    retained := fun _ place => if place = ["libs.so"] then some .permissionDenied else none }

end Pipeline

end ForeignBindings
