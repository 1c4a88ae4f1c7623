import ForeignBindings.Proofs.Blocks

/-!
# The outline of bindings

Declarations are rendered one after the other, and all that is kept between two of them is whether a
module is open. What comes of it is a tree of one level: functions at the root, and behind them
modules that hold functions and nothing else.

* `Bindings.Outline` is such a tree. `Outline.declarations_eq_iff` says that some declarations are
  those of exactly one tree.
* `Outline.lines` renders a tree, and `Outline.render_declarations` says that going along its
  declarations gives the same text.
* `Bindings.Nested` says of some lines that what they start they also end, with no module inside of
  another, and `Outline.nested_lines` that the lines of a tree are of that kind.
* `Bindings.render_outline` puts these together for every list of declarations.
-/

namespace ForeignBindings.Bindings

open Text

/-! ## Trees -/

/-- A module of the bindings with its functions. -/
structure Module where
  name : String
  functions : List DeclaredFunction

/-- The functions at the root, and the modules behind them. -/
structure Outline where
  root : List DeclaredFunction
  modules : List Module

/-- The declarations of a module: its start, and its functions. -/
def Module.declarations (m : Module) : List Declaration :=
  .inNamespace m.name :: m.functions.map .function

/-- The lines of a module. Its functions are one level further in. -/
def Module.lines (link : String) (m : Module) : List String :=
  ["", "pub mod " ++ m.name ++ " \x7b"] ++ m.functions.flatMap (indentedBlock link "    ") ++
    ["\x7d"]

namespace Outline

/-- The declarations of a tree, in the order they are written. -/
def declarations (o : Outline) : List Declaration :=
  o.root.map .function ++ o.modules.flatMap Module.declarations

/-- The lines of a tree behind those about the library. -/
def lines (library : Library) (o : Outline) : List String :=
  banner ++ libraryLines library ++
    (o.root.flatMap (indentedBlock library.name "") ++
      o.modules.flatMap (Module.lines library.name))

/-- The text of a tree. -/
def text (library : Library) (o : Outline) : String :=
  String.join ((o.lines library).map (· ++ "\n"))

/-- The tree of some declarations: a function belongs to the last module before it. -/
def ofDeclarations : List Declaration → Outline
  | [] => ⟨[], []⟩
  | .function f :: ds =>
    let rest := ofDeclarations ds
    ⟨f :: rest.root, rest.modules⟩
  | .inNamespace name :: ds =>
    -- what is at the root of the rest are the functions up to the next module
    let rest := ofDeclarations ds
    ⟨[], ⟨name, rest.root⟩ :: rest.modules⟩

theorem declarations_ofDeclarations (ds : List Declaration) :
    (ofDeclarations ds).declarations = ds := by
  induction ds with
  | nil => rfl
  | cons d ds ih =>
    unfold declarations at ih
    cases d with
    | function f => simp [ofDeclarations, declarations, ih]
    | inNamespace name => simp [ofDeclarations, declarations, Module.declarations, ih]

theorem function_mem_declarations {o : Outline} {f : DeclaredFunction} :
    .function f ∈ o.declarations ↔ f ∈ o.root ∨ ∃ m ∈ o.modules, f ∈ m.functions := by
  simp [declarations, Module.declarations]

theorem inNamespace_mem_declarations {o : Outline} {name : String} :
    .inNamespace name ∈ o.declarations ↔ ∃ m ∈ o.modules, name = m.name := by
  simp [declarations, Module.declarations]

theorem ofDeclarations_functions (fs : List DeclaredFunction) (ds : List Declaration) :
    ofDeclarations (fs.map .function ++ ds) =
      ⟨fs ++ (ofDeclarations ds).root, (ofDeclarations ds).modules⟩ := by
  induction fs with
  | nil => rfl
  | cons f fs ih => simp [ofDeclarations, ih]

theorem ofDeclarations_modules (ms : List Module) :
    ofDeclarations (ms.flatMap Module.declarations) = ⟨[], ms⟩ := by
  induction ms with
  | nil => rfl
  | cons m ms ih =>
    simp [Module.declarations, ofDeclarations, ofDeclarations_functions, ih]

/-- Some declarations are those of one tree and of no other. -/
theorem declarations_eq_iff {o : Outline} {ds : List Declaration} :
    o.declarations = ds ↔ o = ofDeclarations ds := by
  constructor
  · rintro rfl
    rw [declarations, ofDeclarations_functions, ofDeclarations_modules, List.append_nil]
  · rintro rfl
    exact declarations_ofDeclarations ds

/-- Going along the declarations of a tree renders the tree. -/
theorem render_declarations (o : Outline) (library : Library) :
    render o.declarations library = o.text library := by
  have at_root := declarationLines_functions library.name false o.root id
    (o.modules.flatMap Module.declarations)
  have in_modules := declarationLines_modules library.name false o.modules Module.name
    Module.functions
  simp only [id] at at_root
  unfold render text lines declarations
  rw [at_root]
  unfold Module.declarations Module.lines
  rw [in_modules]
  rfl

end Outline

/-! ## Nesting -/

/-- What a line of bindings can start. -/
inductive Scope where
  | module
  | block
deriving DecidableEq

/-- A line without its indentation. -/
def content (line : String) : List Char :=
  line.toList.dropWhile (· == ' ')

/-- What is open behind a line, the innermost first, or nothing if the line may not stand there. A
module may only start where nothing is open, and a block where no other block is. -/
def nestingStep (isOpen : List Scope) (line : String) : Option (List Scope) :=
  if "pub mod ".toList.isPrefixOf (content line) then
    if isOpen.isEmpty then some [.module] else none
  else if "unsafe extern ".toList.isPrefixOf (content line) then
    if isOpen.contains .block then none else some (.block :: isOpen)
  else if content line = ['\x7d'] then isOpen.tail?
  else some isOpen

/-- Behind the lines the same is open as in front of them. All that they start they have ended. -/
def NestedIn (isOpen : List Scope) (lines : List String) : Prop :=
  lines.foldlM nestingStep isOpen = some isOpen

/-- Each module and each block that the lines start is ended by a line of its own, and no module is
inside of another. -/
def Nested (lines : List String) : Prop :=
  NestedIn [] lines

instance (lines : List String) : Decidable (Nested lines) :=
  inferInstanceAs (Decidable (_ = _))

namespace NestedIn

variable {isOpen : List Scope} {lines lines' : List String}

theorem append (h : NestedIn isOpen lines) (h' : NestedIn isOpen lines') :
    NestedIn isOpen (lines ++ lines') := by
  unfold NestedIn at *
  rw [List.foldlM_append, h]
  exact h'

theorem flatMap {α : Type} {xs : List α} {f : α → List String}
    (h : ∀ x ∈ xs, NestedIn isOpen (f x)) : NestedIn isOpen (xs.flatMap f) := by
  induction xs with
  | nil => rfl
  | cons x xs ih =>
    rw [List.flatMap_cons]
    exact (h x (List.mem_cons_self ..)).append (ih fun y hy => h y (List.mem_cons_of_mem _ hy))

/-- Lines that neither start nor end anything. -/
theorem of_idle (h : ∀ line ∈ lines, nestingStep isOpen line = some isOpen) :
    NestedIn isOpen lines := by
  unfold NestedIn
  induction lines with
  | nil => rfl
  | cons line lines ih =>
    rw [List.foldlM_cons, h line (List.mem_cons_self ..)]
    exact ih fun l hl => h l (List.mem_cons_of_mem _ hl)

/-- Lines inside of what another one starts and another one ends. -/
theorem enclosed {scope : Scope} {first last : String}
    (hfirst : nestingStep isOpen first = some (scope :: isOpen))
    (hlast : nestingStep (scope :: isOpen) last = some isOpen)
    (h : NestedIn (scope :: isOpen) lines) : NestedIn isOpen (first :: (lines ++ [last])) := by
  unfold NestedIn at *
  rw [List.foldlM_cons, hfirst]
  show (lines ++ [last]).foldlM nestingStep (scope :: isOpen) = some isOpen
  rw [List.foldlM_append, h]
  show [last].foldlM nestingStep (scope :: isOpen) = some isOpen
  rw [List.foldlM_cons, hlast]
  rfl

end NestedIn

/-- What a line says is the same with more blanks in front. -/
theorem content_indented (line : String) : content ("    " ++ line) = content line := by
  simp [content]

theorem nestingStep_indented (isOpen : List Scope) (line : String) :
    nestingStep isOpen ("    " ++ line) = nestingStep isOpen line := by
  unfold nestingStep
  rw [content_indented]

theorem nestingStep_documentation (isOpen : List Scope) (line : String) :
    nestingStep isOpen (documentationLine line) = some isOpen := by
  unfold documentationLine
  split
  · simp [nestingStep, content]
  · simp [nestingStep, content]

/-- A block ends itself, at the root and inside of a module. -/
theorem nestedIn_blockLines {isOpen : List Scope} (h : .block ∉ isOpen) (link : String)
    (f : DeclaredFunction) : NestedIn isOpen (blockLines link f) := by
  have linked : nestingStep isOpen ("#[link(name = " ++ quoted link ++ ")]") = some isOpen := by
    simp [nestingStep, content]
  have started : nestingStep isOpen ("unsafe extern " ++ quoted f.abi ++ " \x7b") =
      some (.block :: isOpen) := by
    simp [nestingStep, content, h]
  have ended : nestingStep (.block :: isOpen) "\x7d" = some isOpen := by
    simp [nestingStep, content]
  -- between the start and the end there is one function, and no line of it is a start or an end
  have inside : NestedIn (.block :: isOpen)
      ((documentationLines f.documentation).map ("    " ++ ·) ++
        ["    #[link_name = " ++ quoted f.symbol ++ "]", "    " ++ signature f]) := by
    apply NestedIn.of_idle
    intro line hline
    rcases List.mem_append.1 hline with hline | hline
    · obtain ⟨doc, hdoc, rfl⟩ := List.mem_map.1 hline
      rw [nestingStep_indented]
      cases hdocumentation : f.documentation with
      | none =>
        rw [hdocumentation] at hdoc
        cases hdoc
      | some text =>
        rw [hdocumentation] at hdoc
        obtain ⟨row, -, rfl⟩ := List.mem_map.1 hdoc
        exact nestingStep_documentation _ row
    · simp only [List.mem_cons, List.not_mem_nil, or_false] at hline
      rcases hline with rfl | rfl
      · simp [nestingStep, content]
      · simp [nestingStep, content, signature]
  have whole : NestedIn isOpen ([_] ++ _) :=
    (NestedIn.of_idle (by simpa using linked)).append (NestedIn.enclosed started ended inside)
  simpa [blockLines] using whole

theorem nestedIn_indentedBlock {isOpen : List Scope} (h : .block ∉ isOpen) {indent : String}
    (hindent : indent = "" ∨ indent = "    ") (link : String) (f : DeclaredFunction) :
    NestedIn isOpen (indentedBlock link indent f) := by
  have block := nestedIn_blockLines h link f
  have same_steps : ∀ isOpen line,
      nestingStep isOpen (indent ++ line) = nestingStep isOpen line := by
    rcases hindent with rfl | rfl
    · intro isOpen line
      rw [String.empty_append]
    · exact nestingStep_indented
  have empty_line : nestingStep isOpen "" = some isOpen := by simp [nestingStep, content]
  unfold NestedIn indentedBlock at *
  rw [List.foldlM_cons, empty_line]
  show ((blockLines link f).map (indent ++ ·)).foldlM nestingStep isOpen = some isOpen
  rw [List.foldlM_map]
  simpa only [same_steps] using block

theorem nestedIn_moduleLines (link : String) (m : Module) : NestedIn [] (m.lines link) := by
  have started : nestingStep [] ("pub mod " ++ m.name ++ " \x7b") = some [.module] := by
    simp [nestingStep, content]
  have inside : NestedIn [.module] (m.functions.flatMap (indentedBlock link "    ")) :=
    NestedIn.flatMap fun f _ => nestedIn_indentedBlock (by decide) (.inr rfl) link f
  have ended : nestingStep [.module] "\x7d" = some [] := by decide
  have empty_line : NestedIn [] [""] := by
    unfold NestedIn
    decide
  have whole := empty_line.append (NestedIn.enclosed started ended inside)
  simpa [Module.lines] using whole

theorem nestedIn_libraryLines (library : Library) : NestedIn [] (libraryLines library) := by
  have constant : ∀ name value,
      nestingStep [.module] (libraryConstant name value) = some [.module] := by
    intro name value
    show nestingStep _ ("    pub const " ++ name ++ ": &str = " ++ quoted value ++ ";") = _
    simp [nestingStep, content]
  have started : nestingStep [] "pub mod library \x7b" = some [.module] := by decide
  have ended : nestingStep [.module] "\x7d" = some [] := by decide
  have inside : NestedIn [.module] [libraryConstant "NAME" library.name,
      libraryConstant "SEARCH_PATH" library.searchPath, libraryConstant "FILE" library.file] := by
    apply NestedIn.of_idle
    intro line hline
    simp only [List.mem_cons, List.not_mem_nil, or_false] at hline
    rcases hline with rfl | rfl | rfl
    · exact constant _ _
    · exact constant _ _
    · exact constant _ _
  have whole := NestedIn.enclosed started ended inside
  exact whole

/-- A tree starts nothing that it does not end, and its modules are all at the root. -/
theorem Outline.nested_lines (o : Outline) (library : Library) : Nested (o.lines library) := by
  have at_root : NestedIn [] (o.root.flatMap (indentedBlock library.name "")) :=
    NestedIn.flatMap fun f _ => nestedIn_indentedBlock (by decide) (.inl rfl) library.name f
  have in_modules : NestedIn [] (o.modules.flatMap (Module.lines library.name)) :=
    NestedIn.flatMap fun m _ => nestedIn_moduleLines library.name m
  have banner_idle : NestedIn [] banner := by
    unfold NestedIn
    decide
  exact (banner_idle.append (nestedIn_libraryLines library)).append (at_root.append in_modules)

/-! ## Every list of declarations -/

/-- Where no name and no type has a newline in it, no line of the tree has. -/
theorem Outline.isRow_of_mem_lines {o : Outline} (hnames : ∀ m ∈ o.modules, IsRow m.name)
    (hroot : ∀ f ∈ o.root, f.IsRows) (hmodules : ∀ m ∈ o.modules, ∀ f ∈ m.functions, f.IsRows)
    {library : Library} {line : String} (hline : line ∈ o.lines library) : IsRow line := by
  simp only [lines, List.mem_append, List.mem_flatMap] at hline
  rcases hline with (hbanner | hlibrary) | ⟨f, hf, hblock⟩ | ⟨m, hm, hmodule⟩
  · have banner_rows : ∀ l ∈ banner, IsRow l := by decide
    exact banner_rows line hbanner
  · exact isRow_of_mem_libraryLines hlibrary
  · exact isRow_of_mem_indentedBlock (hroot f hf) (by decide) hblock
  · simp only [Module.lines, List.mem_append, List.mem_cons, List.not_mem_nil, or_false,
      List.mem_flatMap] at hmodule
    have fixed : IsRow "pub mod " ∧ IsRow " \x7b" := by decide
    rcases hmodule with ((rfl | rfl) | ⟨f, hf, hblock⟩) | rfl
    · decide
    · simp [fixed, hnames m hm]
    · exact isRow_of_mem_indentedBlock (hmodules m hm f hf) (by decide) hblock
    · decide

/-- **The text is that of a tree.** Every list of declarations is that of exactly one tree, and the
bindings are the rendering of this tree: the functions in front of the first module as blocks at the
root, and one module for each that is started, with the functions up to the next one. The lines
start nothing that they do not end, no module is inside of another, and the text ends with a
newline. Where no name and no type has a newline in it, these lines are the rows of the text. -/
theorem render_outline (ds : List Declaration) (library : Library) :
    ∃ o : Outline, (∀ o' : Outline, o'.declarations = ds ↔ o' = o) ∧
      render ds library = o.text library ∧
      Nested (o.lines library) ∧
      (∃ body, render ds library = body ++ "\n") ∧
      ((∀ f, .function f ∈ ds → f.IsRows) → (∀ name, .inNamespace name ∈ ds → IsRow name) →
        rowsOf (render ds library).toList = (o.lines library).map String.toList) := by
  refine ⟨.ofDeclarations ds, fun o' => Outline.declarations_eq_iff, ?_⟩
  have declared := Outline.declarations_ofDeclarations ds
  generalize Outline.ofDeclarations ds = o at declared ⊢
  subst declared
  have text_eq := o.render_declarations library
  refine ⟨text_eq, o.nested_lines library, ?_, ?_⟩
  · -- there is at least the banner, and each line ends with a newline
    have some_line : o.lines library ≠ [] := by simp [Outline.lines, banner]
    have lines_eq := List.dropLast_concat_getLast some_line
    refine ⟨String.join ((o.lines library).dropLast.map (· ++ "\n")) ++
      (o.lines library).getLast some_line, ?_⟩
    rw [text_eq, Outline.text]
    conv => lhs; rw [← lines_eq]
    simp [String.append_assoc]
  · intro functions_rows names_rows
    have root_rows : ∀ f ∈ o.root, f.IsRows := fun f hf =>
      functions_rows f (Outline.function_mem_declarations.2 (.inl hf))
    have module_rows : ∀ m ∈ o.modules, ∀ f ∈ m.functions, f.IsRows := fun m hm f hf =>
      functions_rows f (Outline.function_mem_declarations.2 (.inr ⟨m, hm, hf⟩))
    have module_names : ∀ m ∈ o.modules, IsRow m.name := fun m hm =>
      names_rows m.name (Outline.inNamespace_mem_declarations.2 ⟨m, hm, rfl⟩)
    rw [text_eq]
    exact rowsOf_join fun line hline =>
      Outline.isRow_of_mem_lines module_names root_rows module_rows hline

/-- A module that nothing follows is empty, and so is one that another one follows at once. -/
example (f : DeclaredFunction) :
    Outline.ofDeclarations [.function f, .inNamespace "a", .inNamespace "b", .function f,
        .inNamespace "c"] =
      ⟨[f], [⟨"a", []⟩, ⟨"b", [f]⟩, ⟨"c", []⟩]⟩ := rfl

end ForeignBindings.Bindings
