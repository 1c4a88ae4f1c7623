import ForeignBindings.Proofs.Checks
import ForeignBindings.Proofs.Paths

/-!
# Changes of the tree

What the file operations do to the tree, by the place that a path leads to.

* `World.resolve_eq_ok` and `World.resolveNew_eq_ok` say that a path can only name its destination.
* `World.write_eq_ok`, `World.remove_eq_ok` and `World.createDirectory_eq_ok` are the changes that
  are made there.
* `World.Keeps` is what a world keeps at a place while programs are started.
-/

namespace ForeignBindings

open Checks

namespace Path

theorem ne_empty_of_mem_steps {path step : String} (h : step ∈ steps path) : step ≠ "" := by
  obtain ⟨segment, hsegment, rfl⟩ := List.mem_map.1 h
  have not_empty := (List.mem_filter.1 hsegment).2
  intro hempty
  have letters := congrArg String.toList hempty
  rw [String.toList_ofList] at letters
  rw [letters] at not_empty
  cases not_empty

/-- The steps of a path lead where its segments lead. -/
theorem lead_steps (place : Location) (path : String) :
    lead place ((steps path).map String.toList) = lead place (segmentsOf path.toList) := by
  have letters : (steps path).map String.toList =
      (segmentsOf path.toList).filter fun s => !s.isEmpty := by
    simp [steps, Function.comp_def]
  rw [letters]
  apply lead_filter
  intro s _ hs
  have empty : s.isEmpty = true := by simpa using hs
  simp [isIdle, empty]

theorem advance_step {step : String} (hne : step ≠ "") (hdot : step ≠ ".") (hup : step ≠ "..")
    (place : Location) : advance place step.toList = place ++ [step] := by
  have not_empty : step.toList ≠ [] := by simpa using hne
  have not_dot : step.toList ≠ ['.'] := fun h => hdot (String.toList_injective h)
  have not_up : step.toList ≠ ['.', '.'] := fun h => hup (String.toList_injective h)
  have not_idle : isIdle step.toList = false := by simp [isIdle, not_empty, not_dot]
  rw [advance_name not_idle not_up, String.ofList_toList]

end Path

namespace World

variable {w w' : World}

/-! ## Resolution -/

/-- Steps that can be taken lead where they lead in any tree. -/
theorem walk_eq_ok {place place' : Location} {steps : List String} (hne : ∀ s ∈ steps, s ≠ "")
    (h : w.walk place steps = .ok place') :
    place' = Path.lead place (steps.map String.toList) := by
  induction steps generalizing place with
  | nil =>
    cases h
    rfl
  | cons step rest ih =>
    have step_ne := hne step (List.mem_cons_self ..)
    have rest_ne : ∀ s ∈ rest, s ≠ "" := fun s hs => hne s (List.mem_cons_of_mem _ hs)
    rw [List.map_cons, Path.lead_cons]
    rw [walk] at h
    -- a step can be a dot, a double dot or a name, and only fails for the state of the tree
    split at h
    · cases h
    · split at h
      · rename_i is_dot
        rw [ih rest_ne h, show step = "." by simpa using is_dot]
        rfl
      · split at h
        · rename_i is_up
          rw [ih rest_ne h, show step = ".." by simpa using is_up]
          rfl
        · rename_i not_dot not_up
          have further : Path.advance place step.toList = place ++ [step] :=
            Path.advance_step step_ne (by simpa using not_dot) (by simpa using not_up) place
          rw [further]
          split at h
          · cases h
          · split at h
            · cases h
            · exact ih rest_ne h

/-- A path names nothing but its destination. -/
theorem resolve_eq_ok {path : String} {place : Location} (h : w.resolve path = .ok place) :
    place = w.destination path := by
  obtain ⟨-, -, h⟩ := bind_eq_ok.1 h
  have steps_ne : ∀ s ∈ Path.steps path ++ (if Path.endsWithSlash path then ["."] else []),
      s ≠ "" := by
    intro s hs
    rcases List.mem_append.1 hs with hs | hs
    · exact Path.ne_empty_of_mem_steps hs
    · split at hs
      · rw [List.mem_singleton.1 hs]
        decide
      · cases hs
  rw [walk_eq_ok steps_ne h, List.map_append, Path.lead_append, Path.lead_steps, destination]
  -- the dot for a slash at the end leads nowhere
  split <;> rfl

/-- Where something new can be put, all steps of the path but the last lead to a directory, and the
last one is a name in it. -/
theorem steps_of_resolveNew {path name : String} {place : Location}
    (h : w.resolveNew path = .ok (some (place, name))) :
    checkPath path = .ok () ∧ ∃ front, Path.steps path = front ++ [name] ∧
      w.walk (w.startOf path) front = .ok place ∧ w.isDirectoryAt place = true ∧
      name ≠ "." ∧ name ≠ ".." := by
  obtain ⟨_, possible, h⟩ := bind_eq_ok.1 h
  refine ⟨possible, ?_⟩
  split at h
  · cases h
  · rename_i last hlast
    obtain ⟨front, hfront⟩ := List.getLast?_eq_some_iff.1 hlast
    obtain ⟨place', hwalk, h⟩ := bind_eq_ok.1 h
    rw [hfront, List.dropLast_concat] at hwalk
    split at h
    · cases h
    · rename_i is_directory
      split at h
      · cases h
      · rename_i not_special
        simp only [Bool.or_eq_true, beq_iff_eq, not_or] at not_special
        cases h
        exact ⟨front, hfront, hwalk, by simpa using is_directory, not_special⟩

/-- Something new at a path is put at its destination. -/
theorem resolveNew_eq_ok {path name : String} {place : Location}
    (h : w.resolveNew path = .ok (some (place, name))) :
    place ++ [name] = w.destination path := by
  obtain ⟨-, front, hfront, hwalk, -, not_dot, not_up⟩ := steps_of_resolveNew h
  have steps_ne : ∀ s ∈ front ++ [name], s ≠ "" := by
    rw [← hfront]
    exact fun s hs => Path.ne_empty_of_mem_steps hs
  have place_eq := walk_eq_ok (fun s hs => steps_ne s (List.mem_append_left _ hs)) hwalk
  rw [destination, ← Path.lead_steps, hfront, List.map_append, Path.lead_append, ← place_eq]
  exact (Path.advance_step (steps_ne name (by simp)) not_dot not_up place).symm

/-! ## Operations -/

/-- A file is written under a name that is not too long, at a path that does not end in a slash, and
never over a directory. -/
theorem write_spec {file : Written} (h : w.write file = .ok w') :
    ∃ place name, w.resolveNew file.path = .ok (some (place, name)) ∧
      Path.endsWithSlash file.path = false ∧ isLongName name = false ∧
      w.isDirectoryAt (w.destination file.path) = false ∧
      w' = w.put (w.destination file.path) (.file file.content file.executable) := by
  obtain ⟨found, hnew, h⟩ := bind_eq_ok.1 h
  split at h
  · cases h
  · rename_i place name
    rw [resolveNew_eq_ok hnew] at h
    split at h
    · cases h
    · rename_i no_slash
      split at h
      · cases h
      · rename_i short
        split at h
        · cases h
        · rename_i no_directory
          cases h
          exact ⟨place, name, hnew, by simpa using no_slash, by simpa using short,
            by simpa using no_directory, rfl⟩

theorem write_eq_ok {file : Written} (h : w.write file = .ok w') :
    w' = w.put (w.destination file.path) (.file file.content file.executable) := by
  obtain ⟨_, _, -, -, -, -, put⟩ := write_spec h
  exact put

theorem createDirectory_eq_ok {path : String} (h : w.createDirectory path = .ok w') :
    w.node? (w.destination path) = none ∧ w' = w.put (w.destination path) .directory := by
  obtain ⟨found, hnew, h⟩ := bind_eq_ok.1 h
  split at h
  · cases h
  · split at h
    · cases h
    · split at h
      · cases h
      · rename_i free
        cases h
        rw [resolveNew_eq_ok hnew] at free ⊢
        exact ⟨by simpa using free, rfl⟩

/-- A file that can be removed is taken away, and is not the root. -/
theorem remove_eq_ok {path : String} (h : w.remove path = .ok w') :
    w.destination path ≠ [] ∧ w' = w.delete (w.destination path) := by
  obtain ⟨place, hplace, h⟩ := bind_eq_ok.1 h
  rw [← resolve_eq_ok hplace]
  split at h
  · rename_i hnode
    split at h
    · cases h
    · cases h
      refine ⟨?_, rfl⟩
      rintro rfl
      cases hnode
  · cases h
  · cases h

@[simp]
theorem node?_record (entry : LogEntry) (place : Location) :
    (w.record entry).node? place = w.node? place := by
  cases place <;> rfl

theorem isDirectoryAt_record (entry : LogEntry) (place : Location) :
    (w.record entry).isDirectoryAt place = w.isDirectoryAt place := by
  rw [isDirectoryAt, node?_record, isDirectoryAt]

/-- What has been logged does not matter to where steps lead. -/
theorem walk_record (entry : LogEntry) (place : Location) (steps : List String) :
    (w.record entry).walk place steps = w.walk place steps := by
  induction steps generalizing place with
  | nil => rfl
  | cons step rest ih => simp only [walk, isDirectoryAt_record, node?_record, ih]

/-- What has been logged does not matter to what can be removed. -/
theorem remove_record (entry : LogEntry) (path : String) :
    (w.record entry).remove path = (w.remove path).map fun w' => w'.record entry := by
  have resolved : (w.record entry).resolve path = w.resolve path := by
    unfold resolve
    simp only [walk_record]
    rfl
  unfold remove
  rw [resolved]
  cases w.resolve path with
  | error e => rfl
  | ok place =>
    dsimp only [bind, Except.bind]
    rw [node?_record]
    cases w.node? place with
    | none => rfl
    | some node =>
      cases node with
      | directory => rfl
      | file content executable =>
        have same : (w.record entry).retained (w.record entry).calls place =
            w.retained w.calls place := rfl
        dsimp only
        rw [same]
        cases w.retained w.calls place <;> rfl

/-- Taking away other places does not matter to what is found at one. -/
theorem lookup_filter_ne {place other : Location} (h : other ≠ place)
    (nodes : List (Location × Node)) :
    (nodes.filter fun entry => entry.1 != other).lookup place = nodes.lookup place := by
  induction nodes with
  | nil => rfl
  | cons entry rest ih =>
    obtain ⟨at_place, node⟩ := entry
    by_cases hother : at_place = other
    · -- an entry that is taken away was not the one looked for
      have skipped : (place == at_place) = false := by simpa [hother] using Ne.symm h
      rw [List.filter_cons_of_neg (by simp [hother]), ih, List.lookup_cons, skipped]
    · rw [List.filter_cons_of_pos (by simpa using hother), List.lookup_cons, List.lookup_cons, ih]

theorem node?_of_ne_nil {place : Location} (h : place ≠ []) :
    w.node? place = w.nodes.lookup place := by
  cases place with
  | nil => exact absurd rfl h
  | cons first rest => rfl

theorem node?_put_of_ne {place other : Location} (h : other ≠ place) (node : Node) :
    (w.put other node).node? place = w.node? place := by
  by_cases hroot : place = []
  · rw [hroot]
    rfl
  · have not_first : (place == other) = false := by simpa using Ne.symm h
    rw [node?_of_ne_nil hroot, node?_of_ne_nil hroot, put, List.lookup_cons, not_first]
    exact lookup_filter_ne h w.nodes

/-- Something that is put elsewhere than at the root is found there. -/
theorem node?_put {place : Location} (h : place ≠ []) (node : Node) :
    (w.put place node).node? place = some node := by
  rw [node?_of_ne_nil h, put, List.lookup_cons_self]

theorem node?_delete {place : Location} (h : place ≠ []) : (w.delete place).node? place = none := by
  rw [node?_of_ne_nil h, delete, List.lookup_eq_none_iff]
  intro entry hentry
  have elsewhere : entry.1 ≠ place := by simpa using (List.mem_filter.1 hentry).2
  simpa using Ne.symm elsewhere

theorem node?_delete_of_ne {place other : Location} (h : other ≠ place) :
    (w.delete other).node? place = w.node? place := by
  by_cases hroot : place = []
  · rw [hroot]
    rfl
  · rw [node?_of_ne_nil hroot, node?_of_ne_nil hroot, delete]
    exact lookup_filter_ne h w.nodes

/-- What each creation of a directory does to the world, a chain of them does. -/
theorem createChain_induction {r : World → World → Prop} (refl : ∀ w, r w w)
    (trans : ∀ w₁ w₂ w₃, r w₁ w₂ → r w₂ w₃ → r w₁ w₃)
    (create : ∀ w path w', w.createDirectory path = .ok w' → r w w') (w : World)
    (paths : List String) : r w (w.createChain paths).2 := by
  induction paths generalizing w with
  | nil => exact refl w
  | cons path above ih =>
    unfold World.createChain
    split
    · exact refl w
    · split
      · rename_i w' hcreate
        exact create _ _ _ hcreate
      · -- the directories above are created first, and stay even if this one fails
        have chain := ih w
        split
        · rename_i e w' habove
          rw [habove] at chain
          exact chain
        · rename_i w' habove
          rw [habove] at chain
          split
          · rename_i w'' hcreate
            exact trans _ _ _ chain (create _ _ _ hcreate)
          · exact chain
      · exact refl w

/-! ## What is kept at a place -/

/-- The file that is at a place, if one is. -/
def file? (w : World) (place : Location) : Option (ByteArray × Bool) :=
  match w.node? place with
  | some (.file content executable) => some (content, executable)
  | _ => none

/-- The program that a call may start: one that has been built, by its path, or one of the host, by
its plain name. -/
def Offers (w : World) (call : Invocation) (p : Program) : Prop :=
  if (call.headD "").toList.contains '/' then p = w.built
  else w.programs (call.headD "") = some p

/-- A program that was started between two worlds tried to write at a place. -/
def WritesBetween (place : Location) (w w' : World) : Prop :=
  ∃ before call after, w'.calls = before ++ call :: after ∧ w.calls <+: before ∧
    ∃ p, w.Offers call p ∧
      ∃ file ∈ (p.respond before call.tail).writes, w.destination file.path = place

/-- What is at a place stays there, and nothing but a directory is put where nothing is, unless a
program that is started tries to write there. Paths lead where they led before, and the same
programs can be started. -/
structure Keeps (place : Location) (w w' : World) : Prop where
  workingDirectory_eq : w'.workingDirectory = w.workingDirectory
  programs_eq : w'.programs = w.programs
  built_eq : w'.built = w.built
  calls_grow : w.calls <+: w'.calls
  node?_eq : w'.node? place = w.node? place ∨
    w.node? place = none ∧ w'.node? place = some .directory ∨ WritesBetween place w w'

theorem destination_congr (h : w'.workingDirectory = w.workingDirectory) (path : String) :
    w'.destination path = w.destination path := by
  unfold destination startOf
  rw [h]

namespace Keeps

variable {place : Location} {w₁ w₂ w₃ : World}

theorem stays (h : Keeps place w w') (node : Node) (hnode : w.node? place = some node) :
    w'.node? place = some node ∨ WritesBetween place w w' := by
  rcases h.node?_eq with same | ⟨free, -⟩ | written
  · exact .inl (same.trans hnode)
  · rw [hnode] at free
    cases free
  · exact .inr written

/-- A change that starts no program. -/
theorem of_node? (hdirectory : w'.workingDirectory = w.workingDirectory)
    (hprograms : w'.programs = w.programs) (hbuilt : w'.built = w.built)
    (hcalls : w'.calls = w.calls) (h : w'.node? place = w.node? place) : Keeps place w w' :=
  ⟨hdirectory, hprograms, hbuilt, hcalls ▸ List.prefix_rfl, .inl h⟩

theorem refl (w : World) : Keeps place w w :=
  of_node? rfl rfl rfl rfl rfl

theorem trans (h : Keeps place w₁ w₂) (h' : Keeps place w₂ w₃) : Keeps place w₁ w₃ := by
  refine ⟨h'.workingDirectory_eq.trans h.workingDirectory_eq, h'.programs_eq.trans h.programs_eq,
    h'.built_eq.trans h.built_eq, h.calls_grow.trans h'.calls_grow, ?_⟩
  -- what was started in the first part stays among the calls
  have of_first : WritesBetween place w₁ w₂ → WritesBetween place w₁ w₃ := by
    rintro ⟨before, call, after, hcalls, hsince, p, hp, hwrites⟩
    obtain ⟨more, hmore⟩ := h'.calls_grow
    refine ⟨before, call, after ++ more, ?_, hsince, p, hp, hwrites⟩
    rw [← hmore, hcalls, List.append_assoc, List.cons_append]
  -- what was started in the second part was on offer in the first world too
  have of_second : WritesBetween place w₂ w₃ → WritesBetween place w₁ w₃ := by
    rintro ⟨before, call, after, hcalls, hsince, p, hp, file, hfile, hplace⟩
    refine ⟨before, call, after, hcalls, h.calls_grow.trans hsince, p, ?_, file, hfile, ?_⟩
    · rw [Offers, h.built_eq, h.programs_eq] at hp
      exact hp
    · rw [← hplace, destination_congr h.workingDirectory_eq]
  rcases h.node?_eq with same | ⟨free, created⟩ | written
  · rw [← same]
    exact h'.node?_eq.imp_right (.imp_right of_second)
  · -- a directory that the first part has created is something that the second part keeps
    rcases h'.stays .directory created with still | written
    · exact .inr (.inl ⟨free, still⟩)
    · exact .inr (.inr (of_second written))
  · exact .inr (.inr (of_first written))

theorem write {file : Written} (h : w.write file = .ok w')
    (hne : w.destination file.path ≠ place) : Keeps place w w' := by
  rw [write_eq_ok h]
  exact of_node? rfl rfl rfl rfl (node?_put_of_ne hne _)

theorem remove {path : String} (h : w.remove path = .ok w') (hne : w.destination path ≠ place) :
    Keeps place w w' := by
  rw [(remove_eq_ok h).2]
  exact of_node? rfl rfl rfl rfl (node?_delete_of_ne hne)

/-- A directory is only created where nothing is. -/
theorem createDirectory {path : String} (h : w.createDirectory path = .ok w') :
    Keeps place w w' := by
  obtain ⟨free, rfl⟩ := createDirectory_eq_ok h
  by_cases here : w.destination path = place
  · subst here
    -- the root always exists, so it is never new
    have not_root : w.destination path ≠ [] := by
      intro root
      rw [root] at free
      cases free
    exact ⟨rfl, rfl, rfl, List.prefix_rfl, .inr (.inl ⟨free, node?_put not_root _⟩)⟩
  · exact of_node? rfl rfl rfl rfl (node?_put_of_ne here _)

theorem createChain (w : World) (paths : List String) : Keeps place w (w.createChain paths).2 :=
  createChain_induction refl (fun _ _ _ => trans) (fun _ _ _ => createDirectory) w paths

end Keeps

/-! ## Starting programs -/

theorem offers_of_program? {call : Invocation} {p : Program}
    (h : w.program? (call.headD "") = .ok p) : w.Offers call p := by
  unfold program? at h
  unfold Offers
  split at h
  · rename_i is_path
    rw [if_pos is_path]
    obtain ⟨place, -, h⟩ := bind_eq_ok.1 h
    split at h
    · cases h
      rfl
    · cases h
  · rename_i is_plain
    rw [if_neg is_plain]
    -- a plain name can be refused for what it is before it is looked up
    split at h
    · cases h
    · split at h
      · cases h
      · split at h
        · rename_i hprogram
          cases h
          exact hprogram
        · cases h

/-- A write that is not possible changes nothing. -/
theorem write_or_same (w : World) (file : Written) :
    (w.write file).toOption.getD w = w ∨
      (w.write file).toOption.getD w =
        w.put (w.destination file.path) (.file file.content file.executable) := by
  cases hwrite : w.write file with
  | error e => exact .inl rfl
  | ok w' =>
    right
    rw [← write_eq_ok hwrite]
    rfl

theorem keeps_applyWrites {place : Location} {writes : List Written}
    (h : ∀ file ∈ writes, w.destination file.path ≠ place) :
    Keeps place w (w.applyWrites writes) := by
  induction writes generalizing w with
  | nil => exact Keeps.refl w
  | cons file rest ih =>
    have elsewhere := h file (List.mem_cons_self ..)
    have rest_elsewhere : ∀ f ∈ rest, w.destination f.path ≠ place :=
      fun f hf => h f (List.mem_cons_of_mem _ hf)
    show Keeps place w (((w.write file).toOption.getD w).applyWrites rest)
    -- a write either fails or changes the place that its path leads to
    rcases write_or_same w file with same | put
    · rw [same]
      exact ih rest_elsewhere
    · rw [put]
      have first : Keeps place w
          (w.put (w.destination file.path) (.file file.content file.executable)) := by
        exact Keeps.of_node? rfl rfl rfl rfl (node?_put_of_ne elsewhere _)
      exact first.trans (ih rest_elsewhere)

/-- Writing leaves everything but the tree as it is. -/
theorem applyWrites_eq (w : World) (writes : List Written) :
    ∃ nodes, w.applyWrites writes = { w with nodes } := by
  induction writes generalizing w with
  | nil => exact ⟨w.nodes, rfl⟩
  | cons file rest ih =>
    show ∃ nodes, ((w.write file).toOption.getD w).applyWrites rest = _
    rcases write_or_same w file with same | put
    · rw [same]
      exact ih w
    · rw [put]
      exact ih (w.put _ _)

/-- A program that is started keeps what is at a place, or tries to write there itself. -/
theorem keeps_start (place : Location) (w : World) (call : Invocation) :
    Keeps place w (w.start call).2 := by
  have attempted : Keeps place w (w.attempt call) := Keeps.of_node? rfl rfl rfl rfl rfl
  unfold start
  dsimp only
  split
  · exact attempted
  · split
    · exact attempted
    · rename_i p hp
      have offered : (w.attempt call).Offers call p := offers_of_program? hp
      apply attempted.trans
      generalize w.attempt call = w at offered
      -- either all that the program writes goes elsewhere, or it is the one to blame
      by_cases elsewhere :
          ∀ file ∈ (p.respond w.calls call.tail).writes, w.destination file.path ≠ place
      · have called : Keeps place w { w with calls := w.calls ++ [call] } :=
          ⟨rfl, rfl, rfl, List.prefix_append .., .inl rfl⟩
        exact called.trans (keeps_applyWrites elsewhere)
      · have written : ∃ file ∈ (p.respond w.calls call.tail).writes,
            w.destination file.path = place := by
          simpa using elsewhere
        obtain ⟨nodes, hnodes⟩ := applyWrites_eq { w with calls := w.calls ++ [call] }
          (p.respond w.calls call.tail).writes
        dsimp only
        rw [hnodes]
        exact ⟨rfl, rfl, rfl, List.prefix_append .., .inr (.inr
          ⟨w.calls, call, [], rfl, List.prefix_rfl, p, offered, written⟩)⟩

end World

end ForeignBindings
