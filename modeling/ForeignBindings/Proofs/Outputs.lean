import ForeignBindings.Proofs.Paths

/-!
# Outputs and their input

The names of outputs are derived from that of the input, so an output may be the input itself.

* `Outputs.source_eq_input_iff` and `Outputs.bindings_eq_input_iff` say when that is so of the C
  source and of the bindings.
* `Outputs.library_ne_input` says that a library is never the input.
* `Outputs.program_eq_input` says when a program may be.
-/

namespace ForeignBindings

namespace Path

/-- A segment that ends in another character than a dot is a name. -/
theorem advance_of_getLast? {segment : List Char} {c : Char} (h : segment.getLast? = some c)
    (hc : c ≠ '.') (place : Location) :
    advance place segment = place ++ [String.ofList segment] := by
  have not_empty : segment ≠ [] := by
    rintro rfl
    cases h
  have not_dot : segment ≠ ['.'] := by
    rintro rfl
    cases h
    exact hc rfl
  have not_up : segment ≠ ['.', '.'] := by
    rintro rfl
    cases h
    exact hc rfl
  exact advance_name (by simp [isIdle, not_empty, not_dot]) not_up place

theorem mem_of_mem_withoutExtension {c : Char} {name : List Char}
    (h : c ∈ withoutExtension name) : c ∈ name := by
  unfold withoutExtension at h
  split at h
  · exact h
  · have dropped : c ∈ (name.reverse.dropWhile (· != '.')).drop 1 := List.mem_reverse.1 h
    have in_reverse := (List.dropWhile_sublist _).mem (List.mem_of_mem_drop dropped)
    exact List.mem_reverse.1 in_reverse

/-- An extension that has no dot but its first is dropped. -/
theorem withoutExtension_append {front extension : List Char} (hfront : front ≠ [])
    (hextension : '.' ∉ extension) : withoutExtension (front ++ '.' :: extension) = front := by
  have after_dot : ((front ++ '.' :: extension).reverse.dropWhile (· != '.')).drop 1 =
      front.reverse := by
    -- read from the back, the first dot is that of the extension
    have no_dots : ∀ c ∈ extension.reverse, (c != '.') = true := by
      intro c hc
      have hne : c ≠ '.' := by
        rintro rfl
        exact hextension (List.mem_reverse.1 hc)
      simpa using hne
    rw [List.reverse_append, List.reverse_cons, List.append_assoc,
      List.dropWhile_append_of_pos no_dots]
    rfl
  unfold withoutExtension
  rw [after_dot]
  cases hreverse : front.reverse with
  | nil => exact absurd (List.reverse_eq_nil_iff.1 hreverse) hfront
  | cons c cs =>
    show (c :: cs).reverse = front
    rw [← hreverse, List.reverse_reverse]

end Path

namespace Outputs

/-- How the outputs of an input are derived from its name. -/
structure Derived (input : String) (output : Option String) (mode : Mode) (name : String)
    (o : Outputs) : Prop where
  fileName_eq : Path.fileName? input = some name
  stem_eq : o.stem = String.ofList (Path.withoutExtension name.toList)
  directory_eq : o.directory = directoryFor input output
  source_eq : o.source = Path.join o.directory (o.stem ++ ".c")
  binary_eq : o.binary = Path.join o.directory (binaryFile o.stem mode)
  bindings_eq : o.bindings = Path.join o.directory (o.stem ++ ".rs")

theorem derived_of_ofInput {input : String} {output : Option String} {mode : Mode} {o : Outputs}
    (h : ofInput input output mode = .ok o) : ∃ name, Derived input output mode name o := by
  unfold ofInput at h
  split at h
  · cases h
  · rename_i stem hstem
    obtain ⟨name, hname, hwithout⟩ := Option.map_eq_some_iff.1 hstem
    cases h
    exact ⟨name, hname, hwithout.symm, rfl, rfl, rfl, rfl⟩

theorem directoryFor_ne_empty (input : String) (output : Option String) :
    directoryFor input output ≠ "" := by
  unfold directoryFor
  split
  · split
    · decide
    · rename_i not_empty
      simpa using not_empty
  · decide

theorem toList_libraryFile (stem : String) :
    (libraryFile stem).toList = ("lib".toList ++ stem.toList) ++ '.' :: ['s', 'o'] := by
  simp [libraryFile]

theorem getLast?_libraryFile (stem : String) :
    (libraryFile stem).toList.getLast? = some 'o' := by
  rw [toList_libraryFile, List.getLast?_append]
  rfl

variable {input : String} {output : Option String} {mode : Mode} {name : String} {o : Outputs}

namespace Derived

theorem slash_not_mem_stem (h : Derived input output mode name o) : '/' ∉ o.stem.toList := by
  obtain ⟨-, -, -, -, slash_free⟩ := Path.namingSegments_of_fileName? h.fileName_eq
  rw [h.stem_eq, String.toList_ofList]
  exact fun hm => slash_free (Path.mem_of_mem_withoutExtension hm)

theorem slash_not_mem_library (h : Derived input output mode name o) :
    '/' ∉ (libraryFile o.stem).toList := by
  have stem_free := h.slash_not_mem_stem
  simp [toList_libraryFile, stem_free]

theorem directory_ne_empty (h : Derived input output mode name o) : o.directory ≠ "" := by
  rw [h.directory_eq]
  exact directoryFor_ne_empty input output

/-- A file in the directory of the outputs whose name ends in another character than a dot. -/
theorem destination_file (h : Derived input output mode name o) (w : World) {file : String}
    (hfile : '/' ∉ file.toList) {c : Char} (hlast : file.toList.getLast? = some c) (hc : c ≠ '.') :
    w.destination (Path.join o.directory file) = w.destination o.directory ++ [file] := by
  rw [World.destination_join w h.directory_ne_empty hfile, Path.advance_of_getLast? hlast hc,
    String.ofList_toList]

/-- Such a file is the input where it has its directory and its name. -/
theorem file_eq_input_iff (h : Derived input output mode name o) (w : World) {file : String}
    (hfile : '/' ∉ file.toList) {c : Char} (hlast : file.toList.getLast? = some c) (hc : c ≠ '.') :
    w.destination (Path.join o.directory file) = w.destination input ↔
      w.destination o.directory = (w.destination input).dropLast ∧ name = file := by
  rw [h.destination_file w hfile hlast hc, World.destination_of_fileName? w h.fileName_eq,
    List.dropLast_concat, List.append_singleton_inj]
  constructor
  · rintro ⟨hdirectory, hname⟩
    exact ⟨hdirectory, hname.symm⟩
  · rintro ⟨hdirectory, hname⟩
    exact ⟨hdirectory, hname.symm⟩

/-- Two such files whose names end in different characters are not the same. -/
theorem files_ne (h : Derived input output mode name o) (w : World) {file file' : String}
    (hfile : '/' ∉ file.toList) (hfile' : '/' ∉ file'.toList) {c d : Char}
    (hlast : file.toList.getLast? = some c) (hlast' : file'.toList.getLast? = some d)
    (hc : c ≠ '.') (hd : d ≠ '.') (hne : c ≠ d) :
    w.destination (Path.join o.directory file) ≠ w.destination (Path.join o.directory file') := by
  rw [h.destination_file w hfile hlast hc, h.destination_file w hfile' hlast' hd]
  intro heq
  have same_name := (List.append_singleton_inj.1 heq).2
  rw [same_name, hlast'] at hlast
  exact hne (Option.some.inj hlast).symm

end Derived

theorem source_ne_bindings (h : Derived input output mode name o) (w : World) :
    w.destination o.source ≠ w.destination o.bindings := by
  rw [h.source_eq, h.bindings_eq]
  have stem_free := h.slash_not_mem_stem
  exact h.files_ne w (c := 'c') (d := 's') (by simp [stem_free]) (by simp [stem_free]) (by simp)
    (by simp) (by decide) (by decide) (by decide)

/-- A library is neither its own source nor its bindings. -/
theorem library_ne_others (h : Derived input output .wrapper name o) (w : World) :
    w.destination o.binary ≠ w.destination o.source ∧
      w.destination o.binary ≠ w.destination o.bindings := by
  rw [h.binary_eq, h.source_eq, h.bindings_eq, binaryFile]
  have stem_free := h.slash_not_mem_stem
  have library_free := h.slash_not_mem_library
  have library_last := getLast?_libraryFile o.stem
  constructor
  · exact h.files_ne w (d := 'c') library_free (by simp [stem_free]) library_last (by simp)
      (by decide) (by decide) (by decide)
  · exact h.files_ne w (d := 's') library_free (by simp [stem_free]) library_last (by simp)
      (by decide) (by decide) (by decide)

theorem source_eq_input_iff (h : Derived input output mode name o) (w : World) :
    w.destination o.source = w.destination input ↔
      w.destination o.directory = (w.destination input).dropLast ∧ name = o.stem ++ ".c" := by
  rw [h.source_eq]
  have stem_free := h.slash_not_mem_stem
  exact h.file_eq_input_iff w (c := 'c') (by simp [stem_free]) (by simp) (by decide)

theorem bindings_eq_input_iff (h : Derived input output mode name o) (w : World) :
    w.destination o.bindings = w.destination input ↔
      w.destination o.directory = (w.destination input).dropLast ∧ name = o.stem ++ ".rs" := by
  rw [h.bindings_eq]
  have stem_free := h.slash_not_mem_stem
  exact h.file_eq_input_iff w (c := 's') (by simp [stem_free]) (by simp) (by decide)

/-- A library has a longer name than any file with its stem. -/
theorem library_ne_input (h : Derived input output .wrapper name o) (w : World) :
    w.destination o.binary ≠ w.destination input := by
  rw [h.binary_eq, binaryFile]
  intro heq
  have same := (h.file_eq_input_iff w h.slash_not_mem_library (getLast?_libraryFile o.stem)
    (by decide)).1 heq
  have stem_letters : o.stem.toList = Path.withoutExtension name.toList := by
    rw [h.stem_eq, String.toList_ofList]
  -- the stem of a library is longer than the stem that it was named after
  rw [same.2, toList_libraryFile, Path.withoutExtension_append (by simp) (by decide)]
    at stem_letters
  have lengths := congrArg List.length stem_letters
  simp only [List.length_append] at lengths
  have three : "lib".toList.length = 3 := rfl
  omega

/-- A program is the input if the input has no extension and lies in the directory of the outputs.
Otherwise the path of the program names a directory, and the input would have to lie above it. -/
theorem program_eq_input (h : Derived input output .probe name o) (w : World) :
    (w.destination o.directory = (w.destination input).dropLast ∧ name = o.stem →
      w.destination o.binary = w.destination input) ∧
    (w.destination o.binary = w.destination input →
      w.destination o.directory = (w.destination input).dropLast ∧ name = o.stem ∨
        w.destination input <+: w.destination o.directory) := by
  have along : w.destination o.binary = Path.advance (w.destination o.directory) o.stem.toList := by
    rw [h.binary_eq, binaryFile]
    exact World.destination_join w h.directory_ne_empty h.slash_not_mem_stem
  have input_eq := World.destination_of_fileName? w h.fileName_eq
  obtain ⟨-, -, name_not_idle, name_not_up, -⟩ := Path.namingSegments_of_fileName? h.fileName_eq
  rw [along]
  constructor
  · rintro ⟨hdirectory, hname⟩
    rw [hdirectory, ← hname, Path.advance_name name_not_idle name_not_up, String.ofList_toList,
      ← input_eq]
  · intro heq
    unfold Path.advance at heq
    -- a stem of dots alone leads to the directory or the one above it
    split at heq
    · exact .inr (heq ▸ List.prefix_rfl)
    · split at heq
      · exact .inr (heq ▸ List.dropLast_prefix _)
      · rw [input_eq, String.ofList_toList, List.append_singleton_inj] at heq
        exact .inl ⟨heq.1, heq.2.symm⟩

end Outputs

end ForeignBindings
