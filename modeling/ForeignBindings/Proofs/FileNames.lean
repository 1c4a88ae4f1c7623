import Mathlib.Data.List.Nodup
import ForeignBindings.Proofs.Stages

/-!
# Names of outputs

The outputs of a run are named after its input, and the probe is started by such a name. A name
without a slash would be looked up among the programs of the host.

* `Path.fileName?_eq_some_iff` and `Path.fileName?_eq_none_iff` say which paths have a file name, by
  their segments.
* `Outputs.WellNamed` says how outputs are named, and `Outputs.wellNamed` that they are.
* `World.program?_eq_ok_iff` says that a name with a slash is looked up nowhere.
* `Pipeline.outputs_named` says of both modes that the program that is compiled is the one that is
  started, or the one that the bindings name.
-/

namespace ForeignBindings

namespace Path

/-! ## File names by segments -/

/-- The path ends in a segment, up to segments that name nothing. -/
def EndsIn (path : String) (last : List Char) : Prop :=
  ∃ front idle, segmentsOf path.toList = front ++ last :: idle ∧ ∀ s ∈ idle, isIdle s = true

/-- The last segment that names something. -/
def lastNaming? (segments : List (List Char)) : Option (List Char) :=
  segments.reverse.find? fun s => !isIdle s

theorem lastNaming?_cons_of_idle {s : List Char} (h : isIdle s = true)
    (rest : List (List Char)) : lastNaming? (s :: rest) = lastNaming? rest := by
  rw [lastNaming?, List.reverse_cons, List.find?_append, List.find?_cons_of_neg (by simp [h]),
    List.find?_nil, Option.or_none, lastNaming?]

theorem lastNaming?_eq_some_iff {segments : List (List Char)} {last : List Char} :
    lastNaming? segments = some last ↔ isIdle last = false ∧
      ∃ front idle, segments = front ++ last :: idle ∧ ∀ s ∈ idle, isIdle s = true := by
  rw [lastNaming?, List.find?_eq_some_iff_append, Bool.not_eq_true']
  refine and_congr_right fun _ => ?_
  constructor
  · rintro ⟨idle, front, reversed, hidle⟩
    refine ⟨front.reverse, idle.reverse, ?_, ?_⟩
    · rw [← List.reverse_reverse segments, reversed]
      simp
    · simpa using hidle
  · rintro ⟨front, idle, rfl, hidle⟩
    exact ⟨idle.reverse, front.reverse, by simp, by simpa using hidle⟩

theorem lastNaming?_eq_none_iff {segments : List (List Char)} :
    lastNaming? segments = none ↔ ∀ s ∈ segments, isIdle s = true := by
  simp [lastNaming?]

theorem getLast?_trimIdle (segments : List (List Char)) :
    (trimIdle segments).getLast? = lastNaming? segments := by
  rw [trimIdle, List.getLast?_reverse, lastNaming?]
  induction segments.reverse with
  | nil => rfl
  | cons s rest ih => cases hidle : isIdle s <;> simp [hidle, ih]

/-- The anchor of a path names nothing. -/
theorem lastNaming?_drop_anchor (cs : List Char) :
    lastNaming? (segmentsOf (cs.drop (anchorOf cs).length)) = lastNaming? (segmentsOf cs) := by
  have empty : isIdle [] = true := rfl
  have dot : isIdle ['.'] = true := rfl
  -- it is cut off as an empty segment or as a dot
  unfold anchorOf
  split
  · exact (lastNaming?_cons_of_idle empty _).symm
  · rfl
  · rename_i rest
    exact (lastNaming?_cons_of_idle empty (segmentsOf rest)).trans
      (lastNaming?_cons_of_idle dot (segmentsOf rest)).symm
  · rfl

theorem fileName?_eq (path : String) :
    fileName? path =
      ((lastNaming? (segmentsOf path.toList)).filter (· != ['.', '.'])).map String.ofList := by
  unfold fileName? namingSegments
  rw [getLast?_trimIdle, lastNaming?_drop_anchor]
  cases lastNaming? (segmentsOf path.toList) with
  | none => rfl
  | some name => by_cases up : name = ['.', '.'] <;> simp [Option.filter, up]

/-- **Paths with a file name.** The file name is the last segment that names something. -/
theorem fileName?_eq_some_iff {path name : String} :
    fileName? path = some name ↔
      EndsIn path name.toList ∧ isIdle name.toList = false ∧ name.toList ≠ ['.', '.'] := by
  rw [fileName?_eq, Option.map_eq_some_iff]
  constructor
  · rintro ⟨last, found, rfl⟩
    obtain ⟨found, not_up⟩ := Option.filter_eq_some_iff.1 found
    obtain ⟨not_idle, split⟩ := lastNaming?_eq_some_iff.1 found
    rw [String.toList_ofList]
    exact ⟨split, not_idle, bne_iff_ne.1 not_up⟩
  · rintro ⟨split, not_idle, not_up⟩
    refine ⟨name.toList, ?_, String.ofList_toList⟩
    exact Option.filter_eq_some_iff.2
      ⟨lastNaming?_eq_some_iff.2 ⟨not_idle, split⟩, bne_iff_ne.2 not_up⟩

/-- **Paths without a file name.** All their segments name nothing, or the last one that names
something is a double dot. -/
theorem fileName?_eq_none_iff {path : String} :
    fileName? path = none ↔
      (∀ s ∈ segmentsOf path.toList, isIdle s = true) ∨ EndsIn path ['.', '.'] := by
  rw [fileName?_eq, Option.map_eq_none_iff, ← lastNaming?_eq_none_iff]
  have up_naming : isIdle ['.', '.'] = false := rfl
  constructor
  · intro none_left
    cases found : lastNaming? (segmentsOf path.toList) with
    | none => exact .inl rfl
    | some last =>
      right
      rw [found, Option.filter_eq_none_iff] at none_left
      have up : last = ['.', '.'] := by simpa using none_left last rfl
      rw [up] at found
      exact (lastNaming?_eq_some_iff.1 found).2
  · rintro (none_found | up)
    · rw [none_found]
      rfl
    · rw [lastNaming?_eq_some_iff.2 ⟨up_naming, up⟩]
      rfl

/-! ## Names behind a directory -/

/-- A name behind a directory is parted from it by a slash. -/
theorem exists_toList_join {base name : String} (hbase : base ≠ "") (hname : '/' ∉ name.toList) :
    ∃ front, (join base name).toList = front ++ '/' :: name.toList := by
  have not_empty : base.isEmpty = false := by simpa using hbase
  unfold join
  rw [isAbsolute_of_slash_not_mem hname, not_empty]
  cases hslash : endsWithSlash base with
  | true =>
    -- no second slash is added
    have last_slash : base.toList.getLast? = some '/' := by simpa [endsWithSlash] using hslash
    obtain ⟨front, hfront⟩ := List.getLast?_eq_some_iff.1 last_slash
    exact ⟨front, by simp [hfront]⟩
  | false => exact ⟨base.toList, by simp⟩

theorem fileName?_join {base name : String} (hbase : base ≠ "") (hname : '/' ∉ name.toList)
    (hidle : isIdle name.toList = false) (hup : name.toList ≠ ['.', '.']) :
    fileName? (join base name) = some name := by
  obtain ⟨front, letters⟩ := exists_toList_join hbase hname
  refine fileName?_eq_some_iff.2 ⟨⟨segmentsOf front, [], ?_, by simp⟩, hidle, hup⟩
  rw [letters, segmentsOf_append_slash, segmentsOf_of_not_mem hname]

/-- One segment leads to what has another name only if that is above. -/
theorem advance_ne_concat {segment : List Char} {name : String} (h : String.ofList segment ≠ name)
    (place : Location) : advance place segment ≠ place ++ [name] := by
  unfold advance
  split
  · intro same
    have lengths := congrArg List.length same
    simp at lengths
  · split
    · intro same
      have lengths := congrArg List.length same
      simp only [List.length_dropLast, List.length_append, List.length_singleton] at lengths
      omega
    · intro same
      exact h (List.append_singleton_inj.1 same).2

end Path

namespace Outputs

/-! ## Outputs of an input -/

/-- How the outputs of an input are named: in one directory, after its stem, and no two of them
alike. -/
structure WellNamed (input : String) (output : Option String) (mode : Mode) (o : Outputs) :
    Prop where
  stem_eq : ∃ name, Path.fileName? input = some name ∧
    o.stem = String.ofList (Path.withoutExtension name.toList)
  directory_ne_empty : o.directory ≠ ""
  directory_given : ∀ directory, output = some directory → directory ≠ "" → o.directory = directory
  source_eq : o.source = Path.join o.directory (o.stem ++ ".c")
  binary_eq : o.binary = Path.join o.directory (binaryFile o.stem mode)
  bindings_eq : o.bindings = Path.join o.directory (o.stem ++ ".rs")
  no_slash : ∀ file ∈ [o.stem ++ ".c", binaryFile o.stem mode, o.stem ++ ".rs"],
    '/' ∉ file.toList
  distinct : [o.source, o.binary, o.bindings].Nodup
  /-- They lead to different places too. -/
  places_distinct : ∀ w : World,
    [w.destination o.source, w.destination o.binary, w.destination o.bindings].Nodup
  slash_mem_binary : '/' ∈ o.binary.toList

variable {input : String} {output : Option String} {mode : Mode} {name : String} {o : Outputs}

/-- A program is neither its own source nor its bindings, even where its stem leads to a
directory. -/
theorem program_ne_others (h : Derived input output .probe name o) (w : World) :
    w.destination o.binary ≠ w.destination o.source ∧
      w.destination o.binary ≠ w.destination o.bindings := by
  have stem_free := h.slash_not_mem_stem
  have along : w.destination o.binary = Path.advance (w.destination o.directory) o.stem.toList := by
    rw [h.binary_eq, binaryFile]
    exact World.destination_join w h.directory_ne_empty stem_free
  have source : w.destination o.source = w.destination o.directory ++ [o.stem ++ ".c"] := by
    rw [h.source_eq]
    exact h.destination_file w (c := 'c') (by simp [stem_free]) (by simp) (by decide)
  have bindings : w.destination o.bindings = w.destination o.directory ++ [o.stem ++ ".rs"] := by
    rw [h.bindings_eq]
    exact h.destination_file w (c := 's') (by simp [stem_free]) (by simp) (by decide)
  have longer (extension : String) (hne : extension ≠ "") :
      String.ofList o.stem.toList ≠ o.stem ++ extension := by
    intro same
    rw [String.ofList_toList] at same
    exact hne (String.append_eq_left_iff.1 same.symm)
  rw [along, source, bindings]
  exact ⟨Path.advance_ne_concat (longer ".c" (by decide)) _,
    Path.advance_ne_concat (longer ".rs" (by decide)) _⟩

theorem slash_not_mem_binaryFile (h : Derived input output mode name o) :
    '/' ∉ (binaryFile o.stem mode).toList := by
  cases mode with
  | probe => exact h.slash_not_mem_stem
  | wrapper => exact h.slash_not_mem_library

/-- Outputs are well named. -/
theorem wellNamed (h : ofInput input output mode = .ok o) : o.WellNamed input output mode := by
  obtain ⟨name, derived⟩ := derived_of_ofInput h
  have stem_free := derived.slash_not_mem_stem
  have binary_free := slash_not_mem_binaryFile derived
  have places : ∀ w : World,
      [w.destination o.source, w.destination o.binary, w.destination o.bindings].Nodup := by
    intro w
    have source_bindings := source_ne_bindings derived w
    have binary_others : w.destination o.binary ≠ w.destination o.source ∧
        w.destination o.binary ≠ w.destination o.bindings := by
      cases mode with
      | probe => exact program_ne_others derived w
      | wrapper => exact library_ne_others derived w
    simp [source_bindings, binary_others.1.symm, binary_others.2]
  exact
    { stem_eq := ⟨name, derived.fileName_eq, derived.stem_eq⟩
      directory_ne_empty := derived.directory_ne_empty
      directory_given := by
        rintro directory rfl not_empty
        rw [derived.directory_eq, directoryFor, Option.some_or]
        simp [not_empty]
      source_eq := derived.source_eq
      binary_eq := derived.binary_eq
      bindings_eq := derived.bindings_eq
      no_slash := by simp [stem_free, binary_free]
      distinct := List.Nodup.of_map (World.holding "" "").destination (places _)
      places_distinct := places
      slash_mem_binary := by
        obtain ⟨front, letters⟩ := Path.exists_toList_join derived.directory_ne_empty binary_free
        rw [derived.binary_eq, letters]
        simp }

/-- The file name of a library is behind the last slash of its path. -/
theorem fileName?_library (h : Derived input output .wrapper name o) :
    Path.fileName? o.binary = some (libraryFile o.stem) := by
  have letters := toList_libraryFile o.stem
  have not_idle : Path.isIdle (libraryFile o.stem).toList = false := by
    rw [letters]
    simp [Path.isIdle]
  have not_up : (libraryFile o.stem).toList ≠ ['.', '.'] := by
    rw [letters]
    simp
  rw [h.binary_eq]
  exact Path.fileName?_join h.directory_ne_empty h.slash_not_mem_library not_idle not_up

theorem ofInput_eq_error_iff {e : HostError} :
    ofInput input output mode = .error e ↔ e = .noFileName ∧ Path.fileName? input = none := by
  unfold ofInput Path.stem?
  cases Path.fileName? input with
  | none => simp [eq_comm]
  | some name => simp

end Outputs

/-! ## Names with a slash -/

/-- A name with a slash is no matter of which programs the host finds by their names: what is
started by it is the executable file at that path. -/
theorem World.program?_eq_ok_iff {w : World} {name : String} (h : '/' ∈ name.toList) {p : Program} :
    w.program? name = .ok p ↔ p = w.built ∧
      ∃ place content, w.resolve name = .ok place ∧ w.node? place = some (.file content true) := by
  unfold program?
  rw [if_pos (by simpa using h)]
  cases w.resolve name with
  | error e => simp [bind, Except.bind]
  | ok place =>
    dsimp only [bind, Except.bind]
    constructor
    · intro h
      split at h
      · rename_i content found
        cases h
        exact ⟨rfl, place, content, rfl, found⟩
      · cases h
    · rintro ⟨rfl, place', content, same, found⟩
      cases same
      rw [found]

namespace Pipeline

variable {mode : Mode} {input : String} {output : Option String} {compiler : Compiler}
  {w saved w' : World} {g : Generated} {o : Outputs}

/-- Once the source is saved, the compiler is tried with the outputs, and then what has been
compiled, unless the run fails. -/
theorem tried_of_prepared (h : (prepare mode input output).outcome w = (.ok (g, o), saved)) :
    let calls := compiler.command o.source o.binary g.flags mode.product ::
      callsAfterCompiler o mode
    ∃ tried, tried <+: calls ∧ (failureAfter mode input output compiler w = none → tried = calls) ∧
      (worldAfter mode input output compiler w).attempts = saved.attempts ++ tried := by
  intro calls
  let call := compiler.command o.source o.binary g.flags mode.product
  have idle : (readyToCompile mode o saved).attempts = saved.attempts :=
    idle_readyToCompile mode o saved
  have compiled : ((Command.run call).outcome (readyToCompile mode o saved)).2.attempts =
      saved.attempts ++ [call] := by
    rw [Command.outcome_run, ← idle]
    exact World.attempts_start _ call
  cases hrun : (Command.run call).outcome (readyToCompile mode o saved) with
  | mk result w' =>
    rw [hrun] at compiled
    cases result with
    | error cause =>
      -- nothing is tried behind a compiler that fails
      obtain ⟨failed, left_as⟩ := run_of_compiler_error h hrun
      refine ⟨[call], ⟨callsAfterCompiler o mode, rfl⟩, ?_, ?_⟩
      · intro success
        cases failed.symm.trans success
      · rw [left_as]
        exact compiled
    | ok response =>
      refine ⟨calls, List.prefix_rfl, fun _ => rfl, ?_⟩
      rw [attempts_of_compiled h hrun, compiled, List.append_assoc, List.singleton_append]

/-- A run that ends before the source is saved tries nothing after that. -/
theorem tried_after_prepare (ho : Outputs.ofInput input output mode = .ok o) (compiler : Compiler)
    (w : World) :
    ∃ options tried,
      tried <+: (options ++ ["-o", o.binary, o.source]) :: callsAfterCompiler o mode ∧
      (failureAfter mode input output compiler w = none →
        tried = (options ++ ["-o", o.binary, o.source]) :: callsAfterCompiler o mode) ∧
      (worldAfter mode input output compiler w).attempts =
        ((prepare mode input output).outcome w).2.attempts ++ tried := by
  cases hprepare : (prepare mode input output).outcome w with
  | mk result saved =>
    cases result with
    | error e =>
      have ended : failureAfter mode input output compiler w = some e ∧
          worldAfter mode input output compiler w = saved := run_of_prepare_error hprepare
      obtain ⟨failed, left_as⟩ := ended
      refine ⟨[], [], List.nil_prefix, ?_, ?_⟩
      · intro success
        cases failed.symm.trans success
      · rw [left_as, List.append_nil]
    | ok prepared =>
      obtain ⟨g, o'⟩ := prepared
      cases ho.symm.trans (outputs_of_prepare hprepare)
      obtain ⟨tried, among, all, attempts⟩ := tried_of_prepared hprepare
      exact ⟨_, tried, among, all, attempts⟩

/-- The bindings of a library that has been made name it by its stem and by its file. -/
theorem bindings_of_wrapper {report : LibraryReport}
    (h : (wrapper input output compiler).outcome w = (.ok report, w')) :
    Outputs.ofInput input output .wrapper = .ok report.outputs ∧
    ∃ declarations searchPath, w'.node? (w'.destination report.outputs.bindings) =
      some (.file (Bindings.render declarations
        ⟨report.outputs.stem, searchPath, libraryFile report.outputs.stem⟩).toUTF8 false) := by
  obtain ⟨⟨g, o⟩, w₁, hprepare, h⟩ := Action.outcome_bind_eq_ok.1 h
  obtain ⟨_, w₂, -, h⟩ := Action.outcome_bind_eq_ok.1 h
  obtain ⟨_, w₃, -, h⟩ := Action.outcome_bind_eq_ok.1 h
  obtain ⟨searchPath, w₄, -, h⟩ := Action.outcome_bind_eq_ok.1 h
  obtain ⟨_, w₅, hsave, h⟩ := Action.outcome_bind_eq_ok.1 h
  obtain ⟨_, w₆, hlog, h⟩ := Action.outcome_bind_eq_ok.1 h
  cases h
  cases hlog
  rw [Action.outcome_mapError_eq_ok] at hsave
  obtain ⟨not_root, rfl⟩ := put_of_saveText hsave
  -- the text is put where the path leads, and leads there still
  exact ⟨outputs_of_prepare hprepare, g.declarations, searchPath, World.node?_put not_root _⟩

/-- **Names of outputs.** For every input, every output directory and both modes: there are no
outputs exactly where the input has no file name, since all of its segments name nothing or the last
one that does is a double dot. Otherwise the outputs are in a directory that is not the empty path,
each by one name after the stem of the input, and no two of them are the same. The path of what is
compiled has a slash, so it is never looked up among the programs of the host. A run tries the
compiler with this path as its output, and then, for a probe, what is at this path. The bindings of
a library name it by the stem and by the file that the path leads to. -/
theorem outputs_named (input : String) (output : Option String) (mode : Mode) :
    ((∃ e, Outputs.ofInput input output mode = .error e) ↔
      (∀ s ∈ Path.segmentsOf input.toList, Path.isIdle s = true) ∨ Path.EndsIn input ['.', '.']) ∧
    ∀ o, Outputs.ofInput input output mode = .ok o →
      o.WellNamed input output mode ∧
      (∀ (w : World) (p : Program), w.program? o.binary = .ok p ↔ p = w.built ∧
        ∃ place content, w.resolve o.binary = .ok place ∧
          w.node? place = some (.file content true)) ∧
      (∀ (compiler : Compiler) (w : World), ∃ options tried,
        let calls := (options ++ ["-o", o.binary, o.source]) ::
          (if mode = .probe then [[o.binary, o.bindings]] else [])
        tried <+: calls ∧ (failureAfter mode input output compiler w = none → tried = calls) ∧
        (worldAfter mode input output compiler w).attempts =
          ((prepare mode input output).outcome w).2.attempts ++ tried) ∧
      (mode = .wrapper →
        Path.fileName? o.binary = some ("lib" ++ o.stem ++ ".so") ∧
        ∀ (compiler : Compiler) (w : World) (report : LibraryReport) (w' : World),
          (wrapper input output compiler).outcome w = (.ok report, w') →
          ∃ declarations searchPath, w'.node? (w'.destination o.bindings) =
            some (.file (Bindings.render declarations
              ⟨o.stem, searchPath, "lib" ++ o.stem ++ ".so"⟩).toUTF8 false)) := by
  constructor
  · rw [← Path.fileName?_eq_none_iff]
    simp [Outputs.ofInput_eq_error_iff]
  · intro o ho
    have named := Outputs.wellNamed ho
    refine ⟨named, fun w p => World.program?_eq_ok_iff named.slash_mem_binary, ?_, ?_⟩
    · intro compiler w
      have calls : (if mode = .probe then [[o.binary, o.bindings]] else []) =
          callsAfterCompiler o mode := by
        cases mode <;> rfl
      rw [calls]
      exact tried_after_prepare ho compiler w
    · rintro rfl
      obtain ⟨name, derived⟩ := Outputs.derived_of_ofInput ho
      refine ⟨Outputs.fileName?_library derived, ?_⟩
      intro compiler w report w' h
      obtain ⟨ho', written⟩ := bindings_of_wrapper h
      cases ho.symm.trans ho'
      exact written

/-- A specification of one namespace, and a host whose compiler makes its library. -/
def libraryHost : World :=
  { World.holding "net.spec" "(in-namespace net)" with
    programs := fun name =>
      if name = "cc" then some ⟨fun _ _ => ⟨.code 0, "", "", [⟨"out/libnet.so", .empty, true⟩]⟩⟩
      else none }

/-- The bindings name the library that the compiler has been told to make. -/
theorem outputs_named_library :
    let outputs : Outputs := ⟨"net", "out", "out/net.c", "out/libnet.so", "out/net.rs"⟩
    let run := (wrapper "net.spec" (some "out")
      (Compiler.ofConfiguration {} libraryHost.environment)).outcome libraryHost
    Outputs.ofInput "net.spec" (some "out") .wrapper = .ok outputs ∧ run.1.isOk = true ∧
    (∃ options, run.2.attempts = [options ++ ["-o", "out/libnet.so", "out/net.c"]]) ∧
    Path.fileName? outputs.binary = some "libnet.so" ∧
    ∃ declarations searchPath, run.2.node? (run.2.destination "out/net.rs") =
      some (.file (Bindings.render declarations ⟨"net", searchPath, "libnet.so"⟩).toUTF8
        false) := by
  intro outputs run
  let compiler := Compiler.ofConfiguration {} libraryHost.environment
  have outputs_eq : Outputs.ofInput "net.spec" (some "out") .wrapper = .ok outputs := by
    decide +kernel
  have succeeded : run.1.isOk = true := by decide +kernel
  have finished : failureAfter .wrapper "net.spec" (some "out") compiler libraryHost = none :=
    Option.isNone_iff_eq_none.1 (by decide +kernel)
  have nothing_asked : ((prepare .wrapper "net.spec" (some "out")).outcome libraryHost).2.attempts =
      [] := by
    decide +kernel
  obtain ⟨-, -, tries, library⟩ :=
    (outputs_named "net.spec" (some "out") .wrapper).2 outputs outputs_eq
  obtain ⟨options, tried, -, all, attempts⟩ := tries compiler libraryHost
  obtain ⟨file_name, named⟩ := library rfl
  rw [nothing_asked, all finished] at attempts
  refine ⟨outputs_eq, succeeded, ⟨options, attempts⟩, file_name, ?_⟩
  cases hrun : run with
  | mk result last =>
    cases result with
    | error e =>
      rw [hrun] at succeeded
      cases succeeded
    | ok report => exact named compiler libraryHost report last hrun

end Pipeline

end ForeignBindings
