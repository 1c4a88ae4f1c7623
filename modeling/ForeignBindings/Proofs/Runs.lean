import ForeignBindings.Build.Pipeline
import ForeignBindings.Proofs.Drafts
import ForeignBindings.Proofs.Outputs
import ForeignBindings.Proofs.Tree

/-!
# What a run keeps

A run changes the tree in a few places only: it creates directories, writes the C source, and for a
library removes the old one and writes the bindings. All else is done by the programs that it
starts.

* `World.KeepsLike` is what actions keep at a place, as long as paths lead where they lead in some
  world. It is proved for each action of a run along its steps.
* `Pipeline.input_kept` says when a run leaves its input as it was.
-/

namespace ForeignBindings

open Spec

/-- A world in which paths lead where they lead in `w₀` keeps what is at a place. -/
def World.KeepsLike (w₀ : World) (place : Location) (w w' : World) : Prop :=
  w.workingDirectory = w₀.workingDirectory → World.Keeps place w w'

namespace World.KeepsLike

variable {w₀ : World} {place : Location}

theorem refl (w : World) : KeepsLike w₀ place w w :=
  fun _ => Keeps.refl w

theorem trans (w₁ w₂ w₃ : World) (h : KeepsLike w₀ place w₁ w₂) (h' : KeepsLike w₀ place w₂ w₃) :
    KeepsLike w₀ place w₁ w₃ := by
  intro hdirectory
  have first := h hdirectory
  exact first.trans (h' (first.workingDirectory_eq.trans hdirectory))

theorem record (w : World) (entry : LogEntry) : KeepsLike w₀ place w (w.record entry) :=
  fun _ => Keeps.of_node? rfl rfl rfl rfl rfl

end World.KeepsLike

open World (KeepsLike)

variable {w₀ : World} {place : Location}

/-! ## Commands -/

theorem Command.keeps_run (call : Invocation) :
    Action.Preserves (KeepsLike w₀ place) (Command.run call) := by
  have started : Action.Preserves (KeepsLike w₀ place) (Action.start call) :=
    Action.Preserves.ofSteps fun w _ => World.keeps_start place w call
  refine .bind KeepsLike.trans (started.mapError _) ?_
  intro response
  -- the answer only decides how the command ends; what it wrote stays written
  split
  · exact .pure KeepsLike.refl _
  · exact .throw KeepsLike.refl _

theorem Command.keeps_packageFlags (names : List String) :
    Action.Preserves (KeepsLike w₀ place) (Command.packageFlags names) := by
  refine .bind KeepsLike.trans (fun w => KeepsLike.refl w) ?_
  intro w
  refine .bind KeepsLike.trans (Command.keeps_run _) ?_
  intro response
  exact .pure KeepsLike.refl _

theorem Command.keeps_probe (executable bindings : String) :
    Action.Preserves (KeepsLike w₀ place) (Command.probe executable bindings) := by
  refine .bind KeepsLike.trans (Command.keeps_run _) ?_
  intro response
  exact .pure KeepsLike.refl _

/-- A compiler is started. Only an old library is removed before. -/
theorem Compiler.keeps_compile (c : Compiler) {source output : String} (flags : List String)
    {product : Product}
    (h : product = .sharedLibrary → w₀.destination output ≠ place) :
    Action.Preserves (KeepsLike w₀ place) (c.compile source output flags product) := by
  -- with or without the removal, the command comes last
  have command_keeps : Action.Preserves (KeepsLike w₀ place)
      (do let _ ← Command.run (c.command source output flags product)) := by
    refine .bind KeepsLike.trans (Command.keeps_run _) ?_
    intro response
    exact .pure KeepsLike.refl _
  unfold Compiler.compile
  split
  · rename_i is_library
    refine .bind KeepsLike.trans ?_ fun _ => command_keeps
    intro w hdirectory
    show World.Keeps place w ((w.remove output).toOption.getD w)
    cases hremove : w.remove output with
    | error e => exact World.Keeps.refl w
    | ok w' =>
      refine World.Keeps.remove hremove ?_
      rw [World.destination_congr hdirectory]
      exact h is_library
  · exact command_keeps

/-! ## Generation -/

theorem Draft.keeps_accept (s : Draft) (p : Placed) (w : World) :
    KeepsLike w₀ place w (StateT.run (s.accept p) w).2 := by
  unfold accept
  split
  · rename_i names optional _
    rw [run_addPackages]
    have flags_kept : KeepsLike w₀ place w ((Command.packageFlags names).outcome w).2 :=
      Command.keeps_packageFlags names w
    -- packages that are skipped are logged, and those that are not end the draft
    split
    · rename_i flags w' hflags
      rw [hflags] at flags_kept
      exact flags_kept
    · rename_i cause w' hflags
      rw [hflags] at flags_kept
      split
      · exact KeepsLike.trans _ _ _ flags_kept (KeepsLike.record _ _)
      · exact flags_kept
  · exact KeepsLike.refl w

theorem Draft.keeps_acceptAll (s : Draft) (ps : List Placed) (w : World) :
    KeepsLike w₀ place w (StateT.run (s.acceptAll ps) w).2 := by
  induction ps generalizing s w with
  | nil => exact KeepsLike.refl w
  | cons p ps ih =>
    have first : KeepsLike w₀ place w (StateT.run (s.accept p) w).2 := s.keeps_accept p w
    rw [run_acceptAll_cons]
    split
    · rename_i s' w' hfirst
      rw [hfirst] at first
      exact KeepsLike.trans _ _ _ first (ih s' w')
    · rename_i e s' w' hfirst
      rw [hfirst] at first
      exact first

theorem Generated.keeps_collect (s : Draft) (ps : List Placed) :
    Action.Preserves (KeepsLike w₀ place) (Generated.collect s ps) := by
  intro w
  have all : KeepsLike w₀ place w (StateT.run (s.acceptAll ps) w).2 := s.keeps_acceptAll ps w
  rw [outcome_collect]
  split
  · rename_i s' w' hrun
    rw [hrun] at all
    exact all
  · rename_i e s' w' hrun
    rw [hrun] at all
    exact all

theorem Generated.keeps_ofDirectives (mode : Mode) (ds : List Directive) :
    Action.Preserves (KeepsLike w₀ place) (Generated.ofDirectives mode ds) := by
  cases mode with
  | probe =>
    refine .bind KeepsLike.trans (.ofExcept KeepsLike.refl _) ?_
    intro ps
    refine .bind KeepsLike.trans (keeps_collect _ _) ?_
    intro s
    refine .bind KeepsLike.trans (keeps_collect _ _) ?_
    intro s'
    exact .pure KeepsLike.refl _
  | wrapper =>
    refine .bind KeepsLike.trans (.ofExcept KeepsLike.refl _) ?_
    intro ps
    refine .bind KeepsLike.trans (keeps_collect _ _) ?_
    intro s
    exact .pure KeepsLike.refl _

/-! ## Pipelines -/

namespace Pipeline

theorem keeps_directivesIn (input : String) :
    Action.Preserves (KeepsLike w₀ place) (directivesIn input) := by
  refine .bind KeepsLike.trans (.mapError (.ofLook KeepsLike.refl _) _) ?_
  intro text
  split
  · exact .pure KeepsLike.refl _
  · exact .throw KeepsLike.refl _

theorem keeps_saveText {path : String} (h : w₀.destination path ≠ place) (text : String) :
    Action.Preserves (KeepsLike w₀ place) (saveText path text) := by
  refine .ofChange KeepsLike.refl ?_
  intro w w' hwrite hdirectory
  refine World.Keeps.write hwrite ?_
  rw [World.destination_congr hdirectory]
  exact h

theorem keeps_saveProgram {outputs : Outputs} (h : w₀.destination outputs.source ≠ place)
    (source : String) :
    Action.Preserves (KeepsLike w₀ place) (saveProgram outputs source) := by
  refine .bind KeepsLike.trans ?_ ?_
  · refine .mapError (.ofSteps ?_) _
    intro w _
    exact World.Keeps.createChain w _
  · intro _
    exact .mapError (keeps_saveText h _) _

theorem keeps_prepare {mode : Mode} {input : String} {output : Option String}
    (h : ∀ o, Outputs.ofInput input output mode = .ok o → w₀.destination o.source ≠ place) :
    Action.Preserves (KeepsLike w₀ place) (prepare mode input output) := by
  refine .bind KeepsLike.trans (keeps_directivesIn input) ?_
  intro ds
  refine .bind KeepsLike.trans (.mapError (Generated.keeps_ofDirectives mode ds) _) ?_
  intro g
  -- without outputs nothing is written, and with them only the source is
  cases houtputs : Outputs.ofInput input output mode with
  | error cause =>
    refine .bind_of_ok KeepsLike.trans (.throw KeepsLike.refl _) ?_
    intro w x w' hthrow
    cases hthrow
  | ok o =>
    refine .bind_of_ok KeepsLike.trans (.pure KeepsLike.refl _) ?_
    intro w x w' hpure
    cases hpure
    refine .bind KeepsLike.trans (keeps_saveProgram (h o houtputs) _) ?_
    intro _
    exact .pure KeepsLike.refl _

/-- The outputs of a run are those that are derived from its input. -/
theorem outputs_of_prepare {mode : Mode} {input : String} {output : Option String} {g : Generated}
    {o : Outputs} {w w' : World} (h : (prepare mode input output).outcome w = (.ok (g, o), w')) :
    Outputs.ofInput input output mode = .ok o := by
  obtain ⟨ds, w₁, -, h⟩ := Action.outcome_bind_eq_ok.1 h
  obtain ⟨g', w₂, -, h⟩ := Action.outcome_bind_eq_ok.1 h
  cases houtputs : Outputs.ofInput input output mode with
  | error cause =>
    rw [houtputs] at h
    obtain ⟨o', w₃, hthrow, -⟩ := Action.outcome_bind_eq_ok.1 h
    cases hthrow
  | ok o' =>
    rw [houtputs] at h
    obtain ⟨o'', w₃, hpure, h⟩ := Action.outcome_bind_eq_ok.1 h
    cases hpure
    obtain ⟨_, w₄, -, h⟩ := Action.outcome_bind_eq_ok.1 h
    cases h
    rfl

theorem keeps_log (level : Level) (message : String) :
    Action.Preserves (KeepsLike w₀ place) (log level message) :=
  .log KeepsLike.record _ _ _

theorem keeps_logMissing (input : String) (names : List String) :
    Action.Preserves (KeepsLike w₀ place) (logMissing input names) := by
  induction names with
  | nil => exact .pure KeepsLike.refl _
  | cons name rest ih => exact .bind KeepsLike.trans (keeps_log _ _) fun _ => ih

theorem keeps_probe {input : String} {output : Option String} (compiler : Compiler)
    (h : ∀ o, Outputs.ofInput input output .probe = .ok o → w₀.destination o.source ≠ place) :
    Action.Preserves (KeepsLike w₀ place) (probe input output compiler) := by
  refine .bind KeepsLike.trans (keeps_prepare h) ?_
  rintro ⟨g, o⟩
  refine .bind KeepsLike.trans (keeps_log _ _) fun _ => ?_
  have compiled : Action.Preserves (KeepsLike w₀ place)
      (compiler.compile o.source o.binary g.flags .executable) := by
    -- a program is not removed before it is linked, so its path may be any
    refine compiler.keeps_compile _ ?_
    intro is_library
    cases is_library
  refine .bind KeepsLike.trans (compiled.mapError _) fun _ => ?_
  refine .bind KeepsLike.trans (keeps_log _ _) fun _ => ?_
  refine .bind KeepsLike.trans ((Command.keeps_probe _ _).mapError _) fun missing => ?_
  refine .bind KeepsLike.trans (keeps_logMissing _ _) fun _ => ?_
  exact .pure KeepsLike.refl _

theorem keeps_wrapper {input : String} {output : Option String} (compiler : Compiler)
    (h : ∀ o, Outputs.ofInput input output .wrapper = .ok o → w₀.destination o.source ≠ place ∧
      w₀.destination o.binary ≠ place ∧ w₀.destination o.bindings ≠ place) :
    Action.Preserves (KeepsLike w₀ place) (wrapper input output compiler) := by
  refine .bind_of_ok KeepsLike.trans (keeps_prepare fun o ho => (h o ho).1) ?_
  rintro w ⟨g, o⟩ w' hprepare
  -- the paths that are written below are those that the hypothesis speaks of
  obtain ⟨-, binary_ne, bindings_ne⟩ := h o (outputs_of_prepare hprepare)
  refine .bind KeepsLike.trans (keeps_log _ _) fun _ => ?_
  have compiled : Action.Preserves (KeepsLike w₀ place)
      (compiler.compile o.source o.binary g.flags .sharedLibrary) :=
    compiler.keeps_compile _ fun _ => binary_ne
  refine .bind KeepsLike.trans (compiled.mapError _) fun _ => ?_
  refine .bind KeepsLike.trans (.mapError (.ofLook KeepsLike.refl _) _) fun searchPath => ?_
  refine .bind KeepsLike.trans (.mapError (keeps_saveText bindings_ne _) _) fun _ => ?_
  refine .bind KeepsLike.trans (keeps_log _ _) fun _ => ?_
  exact .pure KeepsLike.refl _

/-- The world that the run of a mode leaves. -/
def worldAfter (mode : Mode) (input : String) (output : Option String) (compiler : Compiler)
    (w : World) : World :=
  match mode with
  | .probe => ((probe input output compiler).outcome w).2
  | .wrapper => ((wrapper input output compiler).outcome w).2

/-- A host with a library that is already there, and a compiler that makes a new one. -/
def linkingHost : World :=
  { World.holding "s.spec" "(c \"x\")" with
    nodes := [(["s.spec"], .file "(c \"x\")".toUTF8 false), (["libs.so"], .file "old".toUTF8 true)]
    programs := fun name =>
      if name = "cc" then some ⟨fun _ _ => ⟨.code 0, "", "", [⟨"./libs.so", .empty, true⟩]⟩⟩
      else none }

end Pipeline

end ForeignBindings
