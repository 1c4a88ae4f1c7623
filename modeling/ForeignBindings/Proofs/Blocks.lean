import Mathlib.Tactic.SplitIfs
import ForeignBindings.Proofs.Counterparts
import ForeignBindings.Proofs.Items
import ForeignBindings.Proofs.Namespaces
import ForeignBindings.Proofs.Words

/-!
# Rows of the bindings

The text of the bindings is put together from lines, and cut at its newlines it is those lines
again. No line has a newline in it: a text is quoted or cut into lines before it is written, a
declared name is an identifier, and a type is spelled with names that have been read as words.

* `Text.IsRow` says of a text that it has no newline in it.
* `ForeignType.symbol_mem_of_ofForm` and `Entry.symbol_mem_of_shape` say that a type names only what
  the arguments of its directive name.
* `Generated.rowsOf_render` gives the rows of the bindings.
-/

namespace ForeignBindings

open Spec Checks

/-! ## Texts in one row -/

namespace Text

/-- The text has no newline in it. -/
def IsRow (text : String) : Prop :=
  '\n' ∉ text.toList

instance (text : String) : Decidable (IsRow text) :=
  inferInstanceAs (Decidable ('\n' ∉ text.toList))

@[simp] theorem isRow_append {s t : String} : IsRow (s ++ t) ↔ IsRow s ∧ IsRow t := by
  simp [IsRow]

theorem isRow_intercalate {separator : String} {parts : List String} (hs : IsRow separator)
    (hp : ∀ part ∈ parts, IsRow part) : IsRow (separator.intercalate parts) := by
  rw [IsRow, String.toList_intercalate]
  apply not_mem_intercalate hs
  intro part hpart
  obtain ⟨text, htext, rfl⟩ := List.mem_map.1 hpart
  exact hp text htext

/-- The rows of some lines, each ended by a newline, are the lines. -/
theorem rowsOf_join {lines : List String} (h : ∀ line ∈ lines, IsRow line) :
    rowsOf (String.join (lines.map (· ++ "\n"))).toList = lines.map String.toList := by
  -- lines of plain text are rendered in the same way
  have same_text : String.join (lines.map (· ++ "\n")) = SourceLine.render (lines.map .plain) := by
    simp [SourceLine.render, Function.comp_def]
  have all_rows : ∀ l ∈ lines.map SourceLine.plain, l.IsRow := by
    intro l hl
    obtain ⟨line, hline, rfl⟩ := List.mem_map.1 hl
    exact h line hline
  rw [same_text, SourceLine.rowsOf_render all_rows]
  simp [SourceLine.rows, Function.comp_def]

/-! ### Quotations and documentation -/

/-- Digits are no newlines. -/
theorem newline_not_mem_toDigits (n : Nat) : '\n' ∉ Nat.toDigits 16 n := by
  have digit : ∀ d < 16, Nat.digitChar d ≠ '\n' := by decide
  induction n using Nat.strongRecOn with
  | ind n ih =>
    rw [Nat.toDigits_eq_if (by decide)]
    split
    · rename_i small
      simp [(digit n small).symm]
    · -- the last digit stands behind those of a smaller number
      have others := ih (n / 16) (by omega)
      have last := digit (n % 16) (by omega)
      simp [others, last.symm]

theorem newline_not_mem_quoteChar (c : Char) : '\n' ∉ quoteChar c := by
  unfold quoteChar
  split_ifs with _ _ _ newline
  all_goals try decide
  · simpa using Ne.symm newline
  · simp [newline_not_mem_toDigits]

@[simp] theorem isRow_quoted (s : String) : IsRow (quoted s) := by
  simp [IsRow, quoted, newline_not_mem_quoteChar]

theorem newline_not_mem_extendFirst {c : Char} (hc : c ≠ '\n') {ls : List (List Char)}
    (h : ∀ l ∈ ls, '\n' ∉ l) : ∀ l ∈ extendFirst c ls, '\n' ∉ l := by
  cases ls with
  | nil => simp [extendFirst, hc.symm]
  | cons l ls =>
    rw [List.forall_mem_cons] at h
    simpa [extendFirst, hc.symm, h.1] using h.2

/-- A row that a text is cut into has no newline in it. -/
theorem newline_not_mem_rowsOf (cs : List Char) : ∀ l ∈ rowsOf cs, '\n' ∉ l := by
  fun_induction rowsOf cs with
  | case1 => simp
  | case2 cs ih => simpa using ih
  | case3 c cs not_newline ih => exact newline_not_mem_extendFirst not_newline ih

/-- A line that a text is cut into has no newline in it, be the end of the line one character or
two. -/
theorem newline_not_mem_linesOf (cs : List Char) : ∀ l ∈ linesOf cs, '\n' ∉ l := by
  fun_induction linesOf cs with
  | case1 => simp
  | case2 cs ih => simpa using ih
  | case3 cs ih => simpa using ih
  | case4 c cs not_newline not_return ih => exact newline_not_mem_extendFirst not_newline ih

end Text

open Text

/-! ## Types -/

/-- The name of a type has no characters but those of the name that is written, and underscores. -/
theorem Identifier.not_mem_typeName {c : Char} (hc : c ≠ '_') {name : String}
    (h : c ∉ name.toList) : c ∉ (typeName name).toList := by
  rw [typeName, String.toList_ofList]
  intro hmem
  obtain ⟨d, hd, hundash⟩ := List.mem_map.1 hmem
  unfold undash at hundash
  split at hundash
  · exact hc hundash.symm
  · rw [hundash] at hd
    exact h hd

/-- A path has no characters but those of the names in it and of what stands between them. -/
theorem Spec.Symbol.not_mem_pathFrom {c : Char} (hc : c ≠ '_' ∧ c ∉ "super::".toList) {s : Symbol}
    (hname : c ∉ s.name.toList) (hscope : ∀ target ∈ s.scope, c ∉ target.toList)
    (current : Option String) : c ∉ (s.pathFrom current).toList := by
  have not_in_name : c ∉ (Identifier.typeName s.name).toList :=
    Identifier.not_mem_typeName hc.1 hname
  have not_in_colons : c ∉ "::".toList := fun h => hc.2 (List.mem_append_right "super".toList h)
  unfold Symbol.pathFrom
  split
  · exact not_in_name
  · rw [String.toList_append, List.mem_append]
    exact not_or.2 ⟨hc.2, not_in_name⟩
  · rename_i target htarget
    have not_in_scope := hscope target htarget
    simp only [String.toList_append, List.mem_append, not_or]
    exact ⟨⟨not_in_scope, not_in_colons⟩, not_in_name⟩
  · rename_i target here htarget
    have not_in_scope := hscope target htarget
    split
    · exact not_in_name
    · simp only [String.toList_append, List.mem_append, not_or]
      exact ⟨⟨⟨hc.2, not_in_scope⟩, not_in_colons⟩, not_in_name⟩

theorem Spec.Symbol.IsLexed.isRow_pathFrom {s : Symbol} (h : s.IsLexed) (current : Option String) :
    IsRow (s.pathFrom current) :=
  s.not_mem_pathFrom (by decide) h.name.newline_not_mem
    (fun target htarget => (h.scope target htarget).newline_not_mem) current

/-- A type whose names are made of the characters of words is spelled in one row. -/
theorem ForeignType.isRow_path {t : ForeignType} (h : ∀ s ∈ t.symbol?, s.IsLexed)
    (current : Option String) : IsRow (t.path current) := by
  fun_induction path current t with
  | case1 p => cases p <;> decide +kernel
  | case2 s => exact (h s rfl).isRow_pathFrom current
  | case3 => decide
  | case4 target not_void ih => exact isRow_append.2 ⟨by decide, ih h⟩

/-- A type names nothing that its argument does not name. -/
theorem ForeignType.symbol_mem_of_ofForm {f : Form} {t : ForeignType} (h : ofForm f = .ok t)
    {s : Symbol} (hs : s ∈ t.symbol?) : s ∈ f.symbols := by
  fun_induction ofForm f generalizing t with
  | case1 name p =>
    cases h
    cases hs
  | case3 s' =>
    cases h
    cases hs
    exact List.mem_singleton_self _
  | case4 name target is_pointer ih =>
    cases htarget : ofForm target with
    | error e =>
      rw [htarget] at h
      cases h
    | ok t' =>
      rw [htarget] at h
      cases h
      exact Form.mem_symbolsOfAll.2 ⟨target, by simp, ih htarget hs⟩
  | _ => cases h

theorem symbol_mem_of_typeArgument {f : Form} {t : ForeignType} (h : typeArgument f = .ok t)
    {s : Symbol} (hs : s ∈ t.symbol?) : s ∈ f.symbols :=
  ForeignType.symbol_mem_of_ofForm (ok_of_mapError h) hs

theorem symbol_mem_of_parameterArguments {seen : List String} {forms : List Form}
    {parameters : List (String × ForeignType)} (h : parameterArguments seen forms = .ok parameters)
    {p : String × ForeignType} (hp : p ∈ parameters) {s : Symbol} (hs : s ∈ p.2.symbol?) :
    s ∈ Form.symbolsOfAll forms := by
  fun_induction parameterArguments seen forms generalizing parameters with
  | case1 seen =>
    cases h
    cases hp
  | case2 seen name type rest ih =>
    obtain ⟨name', -, h⟩ := bind_eq_ok.1 h
    obtain ⟨-, h⟩ := guard_eq_ok.1 h
    obtain ⟨type', htype, h⟩ := bind_eq_ok.1 h
    obtain ⟨-, h⟩ := guard_eq_ok.1 h
    obtain ⟨others, hothers, h⟩ := bind_eq_ok.1 h
    cases h
    rw [Form.symbolsOfAll, List.mem_append]
    rcases List.mem_cons.1 hp with rfl | hp
    · have in_type : s ∈ type.symbols := symbol_mem_of_typeArgument htype hs
      exact .inl (Form.mem_symbolsOfAll.2 ⟨type, by simp, in_type⟩)
    · exact .inr (ih name' hothers hp)
  | case3 => cases h

/-- The types of a wrapper name nothing that the arguments of its directive do not name. -/
theorem Entry.symbol_mem_of_shape {k : Kind} {forms : List Form} {w : Wrapper}
    (h : k.shape forms = .ok (.wrapper w)) {t : ForeignType} (ht : t ∈ (Entry.wrapper w).types)
    {s : Symbol} (hs : s ∈ t.symbol?) : s ∈ Form.symbolsOfAll forms := by
  -- either kind of wrapper has one argument for the result, and some for the parameters
  have of_parts : ∀ {result : Form} {parameters : List Form},
      typeArgument result = .ok w.result → parameterArguments [] parameters = .ok w.parameters →
        s ∈ result.symbols ∨ s ∈ Form.symbolsOfAll parameters := by
    intro result parameters hresult hparameters
    rcases List.mem_cons.1 ht with rfl | ht
    · exact .inl (symbol_mem_of_typeArgument hresult hs)
    · obtain ⟨p, hp, rfl⟩ := List.mem_map.1 ht
      exact .inr (symbol_mem_of_parameterArguments hparameters hp hs)
  have kind_mem := mem_kinds_of_shape h
  simp only [kinds, List.mem_cons, List.not_mem_nil, or_false] at kind_mem
  rcases kind_mem with rfl | rfl
  · have accepted : wrapperShape forms = .ok (.wrapper w) := h
    unfold wrapperShape at accepted
    split at accepted
    · obtain ⟨head, -, accepted⟩ := bind_eq_ok.1 accepted
      obtain ⟨result, hresult, accepted⟩ := bind_eq_ok.1 accepted
      obtain ⟨parameters, hparameters, accepted⟩ := bind_eq_ok.1 accepted
      cases accepted
      simp only [Form.symbolsOfAll, List.mem_append]
      exact .inr (of_parts hresult hparameters)
    · cases accepted
  · have accepted : wrapperWithBodyShape forms = .ok (.wrapper w) := h
    unfold wrapperWithBodyShape at accepted
    split at accepted
    · obtain ⟨-, accepted⟩ := guard_eq_ok.1 accepted
      obtain ⟨head, -, accepted⟩ := bind_eq_ok.1 accepted
      obtain ⟨result, hresult, accepted⟩ := bind_eq_ok.1 accepted
      obtain ⟨parameters, hparameters, accepted⟩ := bind_eq_ok.1 accepted
      obtain ⟨body, -, accepted⟩ := bind_eq_ok.1 accepted
      cases accepted
      simp only [Form.symbolsOfAll, Form.symbols, List.mem_append]
      rcases of_parts hresult hparameters with in_result | in_parameters
      · exact .inr (.inl in_result)
      · exact .inr (.inr (.inl in_parameters))
    · cases accepted

/-! ## Blocks -/

/-- The names and types of the function have no newline in them. -/
structure DeclaredFunction.IsRows (f : DeclaredFunction) : Prop where
  name : IsRow f.name
  parameters : ∀ p ∈ f.parameters, IsRow p.1 ∧ IsRow p.2
  result : ∀ type ∈ f.result, IsRow type

namespace Bindings

theorem isRow_of_mem_documentationLines {doc : Option String} {line : String}
    (h : line ∈ documentationLines doc) : IsRow line := by
  cases doc with
  | none => cases h
  | some text =>
    obtain ⟨l, hl, rfl⟩ := List.mem_map.1 h
    obtain ⟨cs, hcs, rfl⟩ := List.mem_map.1 hl
    have slashes : IsRow "/// " := by decide
    have row : IsRow (String.ofList cs) := by
      rw [IsRow, String.toList_ofList]
      exact newline_not_mem_linesOf text.toList cs hcs
    unfold documentationLine
    split
    · decide
    · exact isRow_append.2 ⟨slashes, row⟩

theorem isRow_signature {f : DeclaredFunction} (h : f.IsRows) : IsRow (signature f) := by
  have fixed : IsRow "pub fn " ∧ IsRow "(" ∧ IsRow ")" ∧ IsRow ";" ∧ IsRow " -> " ∧ IsRow ": " := by
    decide
  obtain ⟨start_row, open_row, close_row, end_row, arrow_row, colon_row⟩ := fixed
  unfold signature
  simp only [isRow_append, h.name, start_row, open_row, close_row, end_row, and_true, true_and]
  constructor
  · refine isRow_intercalate (by decide) fun part hpart => ?_
    obtain ⟨p, hp, rfl⟩ := List.mem_map.1 hpart
    obtain ⟨name_row, type_row⟩ := h.parameters p hp
    simp only [isRow_append, name_row, colon_row, type_row, and_self]
  · cases hresult : f.result with
    | none => decide
    | some type => exact isRow_append.2 ⟨arrow_row, h.result type hresult⟩

theorem isRow_of_mem_blockLines {f : DeclaredFunction} (h : f.IsRows) {link line : String}
    (hline : line ∈ blockLines link f) : IsRow line := by
  have indent_row : IsRow "    " := by decide
  have signature_row := isRow_signature h
  simp only [blockLines, List.mem_append, List.mem_cons, List.mem_map, List.not_mem_nil,
    or_false] at hline
  have fixed : IsRow "#[link(name = " ∧ IsRow ")]" ∧ IsRow "unsafe extern " ∧ IsRow " \x7b" ∧
      IsRow "    #[link_name = " ∧ IsRow "]" := by decide
  obtain ⟨link_row, link_end_row, extern_row, open_row, symbol_row, symbol_end_row⟩ := fixed
  rcases hline with ((rfl | rfl) | ⟨doc, hdoc, rfl⟩) | rfl | rfl | rfl
  · simp [link_row, link_end_row]
  · simp [extern_row, open_row]
  · exact isRow_append.2 ⟨indent_row, isRow_of_mem_documentationLines hdoc⟩
  · simp [symbol_row, symbol_end_row]
  · exact isRow_append.2 ⟨indent_row, signature_row⟩
  · decide

theorem isRow_of_mem_indentedBlock {f : DeclaredFunction} (h : f.IsRows) {link indent line : String}
    (hindent : IsRow indent) (hline : line ∈ indentedBlock link indent f) : IsRow line := by
  rcases List.mem_cons.1 hline with rfl | hline
  · decide
  · obtain ⟨l, hl, rfl⟩ := List.mem_map.1 hline
    exact isRow_append.2 ⟨hindent, isRow_of_mem_blockLines h hl⟩

theorem isRow_of_mem_libraryLines {library : Library} {line : String}
    (h : line ∈ libraryLines library) : IsRow line := by
  have constant_row : ∀ name value, IsRow name → IsRow (libraryConstant name value) := by
    intro name value name_row
    have fixed : IsRow "    pub const " ∧ IsRow ": &str = " ∧ IsRow ";" := by decide
    obtain ⟨start_row, type_row, end_row⟩ := fixed
    show IsRow ("    pub const " ++ name ++ ": &str = " ++ quoted value ++ ";")
    simp only [isRow_append, isRow_quoted, start_row, name_row, type_row, end_row, and_self]
  simp only [libraryLines, List.mem_cons, List.not_mem_nil, or_false] at h
  rcases h with rfl | rfl | rfl | rfl | rfl
  · decide
  · exact constant_row _ _ (by decide)
  · exact constant_row _ _ (by decide)
  · exact constant_row _ _ (by decide)
  · decide

end Bindings

/-- A valid wrapper is declared in rows where its types name what has been read as words. -/
theorem Wrapper.isRows_declaration {w : Wrapper} (h : w.Valid)
    (htypes : ∀ t ∈ (Entry.wrapper w).types, ∀ s ∈ t.symbol?, s.IsLexed)
    (current : Option String) : (w.declaration current).IsRows where
  name := Identifier.newline_not_mem h.declarable.1
  parameters := by
    intro p hp
    obtain ⟨⟨name, type⟩, hmem, rfl⟩ := List.mem_map.1 hp
    have type_mem : type ∈ (Entry.wrapper w).types :=
      List.mem_cons_of_mem _ (List.mem_map_of_mem hmem)
    exact ⟨Identifier.newline_not_mem (h.parameters_declarable _ hmem).1,
      ForeignType.isRow_path (htypes type type_mem) current⟩
  result := by
    intro type htype
    have result_row := ForeignType.isRow_path (htypes w.result (List.mem_cons_self ..)) current
    rw [declaration] at htype
    dsimp only at htype
    split at htype
    · cases htype
    · cases htype
      exact result_row

/-! ## Whole bindings -/

/-- The lines of bindings whose declarations stand at the root and in sections. -/
def Bindings.linesOf (library : Library) (root : List Placed) (sections : List Section) :
    List String :=
  banner ++ libraryLines library ++
    ((wrappersIn root).flatMap (fun w => indentedBlock library.name "" (w.declaration none)) ++
      sections.flatMap (Section.moduleLines library.name))

theorem Section.isRow_of_mem_moduleLines {s : Section} (hname : IsRow s.name)
    (h : ∀ w ∈ wrappersIn s.entries, ∀ current, (w.declaration current).IsRows) {link line : String}
    (hline : line ∈ s.moduleLines link) : IsRow line := by
  simp only [moduleLines, List.mem_append, List.mem_cons, List.not_mem_nil, or_false,
    List.mem_flatMap] at hline
  rcases hline with ((rfl | rfl) | ⟨w, hw, hblock⟩) | rfl
  · decide
  · have fixed : IsRow "pub mod " ∧ IsRow " \x7b" := by decide
    simp [hname, fixed]
  · exact Bindings.isRow_of_mem_indentedBlock (h w hw _) (by decide) hblock
  · decide

/-- The modules of a specification that is understood can be declared. -/
theorem Sectioned.declarable_name {mode : Mode} {ds : List Directive} {ps root : List Placed}
    {sections : List Section} (h : Sectioned ps root sections)
    (hps : (Dialect.ofMode mode).interpretAll ds = .ok ps) {s : Section} (hs : s ∈ sections) :
    Identifier.IsDeclarable s.name := by
  have switch_mem : s.switch ∈ ps := h.mem_of_mem_all hs (List.mem_cons_self ..)
  have valid := Dialect.valid_of_interpretAll hps switch_mem
  rw [h.switch_eq s hs] at valid
  exact valid

namespace Generated

/-- The wrappers of a text are declared in rows. -/
theorem isRows_of_mem_wrappersIn {text : String} {ds : List Directive}
    (hread : directivesOf text = .ok ds) {ps : List Placed}
    (hps : (Dialect.ofMode .wrapper).interpretAll ds = .ok ps) {w : Wrapper}
    (hw : w ∈ wrappersIn ps) (current : Option String) : (w.declaration current).IsRows := by
  obtain ⟨p, hp, hentry⟩ := List.mem_filterMap.1 hw
  obtain ⟨d, hd, hinterpret⟩ := Dialect.exists_interpret_of_mem hps hp
  have shape := (Dialect.interpret_eq_ok.1 hinterpret).2.2.2
  cases hwrapper : p.entry with
  | wrapper w' =>
    rw [hwrapper] at hentry shape
    cases hentry
    refine Wrapper.isRows_declaration (Dialect.valid_of_mem_wrappersIn hps hw) ?_ current
    intro t ht s hs
    exact isLexed_of_directivesOf hread d hd s (Entry.symbol_mem_of_shape shape ht hs)
  | _ =>
    rw [hwrapper] at hentry
    cases hentry

/-- **Rows of the bindings.** The text of the bindings of a library has the rows that it is put
together from, and no others. -/
theorem rowsOf_render {text : String} {ds : List Directive} (hread : directivesOf text = .ok ds)
    {g : Generated} {w w' : World} (h : (wrapper ds).outcome w = (.ok g, w')) (library : Library) :
    ∃ ps, (Dialect.ofMode .wrapper).interpretAll ds = .ok ps ∧
      rowsOf (Bindings.render g.declarations library).toList =
        (Bindings.linesOf library (rootOf ps) (sectionsOf ps)).map String.toList := by
  obtain ⟨ps, hps, -, hdeclarations⟩ := wrapper_parts h
  refine ⟨ps, hps, ?_⟩
  have hsections := sectioned ps
  have declared : ∀ x ∈ wrappersIn ps, ∀ current, (x.declaration current).IsRows :=
    fun x hx => isRows_of_mem_wrappersIn hread hps hx
  -- a wrapper stands at the root or in some section
  rw [hsections.wrappersIn_eq] at declared
  rw [hdeclarations, hsections.render_eq, rowsOf_join]
  · rfl
  · intro line hline
    rcases List.mem_append.1 hline with hline | hline
    · rcases List.mem_append.1 hline with hline | hline
      · have banner_rows : ∀ l ∈ Bindings.banner, IsRow l := by decide
        exact banner_rows line hline
      · exact Bindings.isRow_of_mem_libraryLines hline
    · rcases List.mem_append.1 hline with hline | hline
      · obtain ⟨x, hx, hblock⟩ := List.mem_flatMap.1 hline
        exact Bindings.isRow_of_mem_indentedBlock
          (declared x (List.mem_append_left _ hx) none) (by decide) hblock
      · obtain ⟨s, hs, hmodule⟩ := List.mem_flatMap.1 hline
        have name_row : IsRow s.name :=
          Identifier.newline_not_mem (hsections.declarable_name hps hs).1
        refine Section.isRow_of_mem_moduleLines name_row (fun x hx => ?_) hmodule
        exact declared x (List.mem_append_right _ (List.mem_flatMap.2 ⟨s, hs, hx⟩))

end Generated

end ForeignBindings
