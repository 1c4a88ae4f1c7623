import ForeignBindings.Proofs.Counterparts
import ForeignBindings.Proofs.Starts

/-!
# Libraries in parts

The library for some directives and then others is that for the first, followed by that for the
others. Only the declarations of the others depend on what comes before them, and only through the
module that is open between the two. The C source knows of no modules at all.

* `Packages.Steady` says that a host answers by the packages that it is asked for. A tool without a
  memory makes a host steady (`Packages.steady_of_tool`).
* `Generated.wrapperFrom` is a library whose first entries are in a module, and
  `Generated.outcome_wrapperFrom` says what comes of it in any host.
* `Generated.wrapper_append` says how the parts of two libraries make up that of both, and what is
  left when all switches of modules are taken out.
-/

namespace ForeignBindings

open Spec Checks

/-! ## Steady hosts -/

namespace Packages

/-- Whatever has been asked before, the host answers by the packages alone. -/
def Steady (answer : List String → Answer) (w : World) : Prop :=
  ∀ asked names, ((Command.packageFlags names).outcome (askAll asked w).2).1 = answer names

/-- The answer settles the request. -/
def Request.MetBy (answer : List String → Answer) (r : Request) : Prop :=
  r.optional = false → ∃ flags, answer r.names = .ok flags

variable {answer : List String → Answer} {w : World} {rs : List Request}

/-- The first request is answered, and leaves a steady host to the others. -/
theorem Steady.askAll_cons (h : Steady answer w) {r : Request} (hr : r.MetBy answer) :
    ∃ w', Steady answer w' ∧
      ∀ rs, askAll (r :: rs) w = (answer r.names :: (askAll rs w').1, (askAll rs w').2) := by
  have steady_after : ∀ w', (∀ rs, askAll (r :: rs) w =
      (answer r.names :: (askAll rs w').1, (askAll rs w').2)) → Steady answer w' := by
    intro w' hask asked names
    have later := h (r :: asked) names
    rwa [hask] at later
  have first := h [] r.names
  cases houtcome : (Command.packageFlags r.names).outcome w with
  | mk a w₁ =>
    have answered : a = answer r.names := by
      rw [← first, askAll, houtcome]
    cases a with
    | ok flags =>
      have hask : ∀ rs, askAll (r :: rs) w =
          (answer r.names :: (askAll rs w₁).1, (askAll rs w₁).2) := by
        intro rs
        rw [← answered, askAll, houtcome]
      exact ⟨w₁, steady_after w₁ hask, hask⟩
    | error cause =>
      -- only a request that may be missing goes without an answer
      have optional : r.optional = true := by
        cases hoptional : r.optional with
        | true => rfl
        | false =>
          obtain ⟨flags, hflags⟩ := hr hoptional
          cases answered.trans hflags
      have hask : ∀ rs, askAll (r :: rs) w =
          (answer r.names :: (askAll rs (w₁.record (r.skipped cause))).1,
            (askAll rs (w₁.record (r.skipped cause))).2) := by
        intro rs
        rw [← answered, askAll, houtcome]
        dsimp only
        rw [if_pos optional]
      exact ⟨_, steady_after _ hask, hask⟩

/-- A steady host that settles all requests answers each of them. -/
theorem Steady.askAll_eq (h : Steady answer w) (hmet : ∀ r ∈ rs, r.MetBy answer) :
    (askAll rs w).1 = rs.map fun r => answer r.names := by
  induction rs generalizing w with
  | nil => rfl
  | cons r rs ih =>
    obtain ⟨w', steady, hask⟩ := h.askAll_cons (hmet r (List.mem_cons_self ..))
    rw [hask, List.map_cons, ih steady fun r' hr => hmet r' (List.mem_cons_of_mem _ hr)]

theorem refusal?_of_met (hmet : ∀ r ∈ rs, r.MetBy answer) :
    refusal? rs (rs.map fun r => answer r.names) = none := by
  induction rs with
  | nil => rfl
  | cons r rs ih =>
    have settled : r.SettledBy (answer r.names) := by
      cases hoptional : r.optional with
      | true => exact .inr hoptional
      | false => exact .inl (hmet r (List.mem_cons_self ..) hoptional)
    rw [List.map_cons, refusal?_cons settled]
    exact ih fun r' hr => hmet r' (List.mem_cons_of_mem _ hr)

/-! ## Tools without a memory -/

/-- The host finds the same programs by the same names, and has the same environment. -/
def SameTools (w w' : World) : Prop :=
  w'.environment = w.environment ∧ w'.programs = w.programs

theorem sameTools_packageFlags (names : List String) (w : World) :
    SameTools w ((Command.packageFlags names).outcome w).2 := by
  let r : Request := ⟨0, names, false⟩
  obtain ⟨nodes, calls, started⟩ := w.start_eq (r.call w)
  have last := world_packageFlags r w
  rw [started] at last
  rw [last]
  exact ⟨rfl, rfl⟩

theorem sameTools_askAll (rs : List Request) (w : World) : SameTools w (askAll rs w).2 := by
  induction rs generalizing w with
  | nil => exact ⟨rfl, rfl⟩
  | cons r rs ih =>
    have first := sameTools_packageFlags r.names w
    rw [askAll]
    cases houtcome : (Command.packageFlags r.names).outcome w with
    | mk a w₁ =>
      rw [houtcome] at first
      cases a with
      | ok flags =>
        have rest := ih w₁
        exact ⟨rest.1.trans first.1, rest.2.trans first.2⟩
      | error cause =>
        cases r.optional with
        | false => exact first
        | true =>
          have rest := ih (w₁.record (r.skipped cause))
          exact ⟨rest.1.trans first.1, rest.2.trans first.2⟩

/-- A program that is found by its name. -/
theorem program?_attempt {tool : String} (hname : '/' ∉ tool.toList) (call : Invocation)
    (w : World) :
    (w.attempt call).program? tool =
      if tool == "." || tool == ".." then .error .permissionDenied
      else if World.isLongName tool then .error .nameTooLong
      else match w.programs tool with
        | some p => .ok p
        | none => .error .notFound := by
  rw [World.program?, if_neg (by simpa using hname)]
  rfl

/-- A program that is found by its name and has no memory does the same in every such host. -/
theorem start_of_sameTools {w w' : World} (h : SameTools w w') {tool : String}
    (hname : '/' ∉ tool.toList)
    (hmemory : ∀ p, w.programs tool = some p →
      ∀ calls calls' arguments, p.respond calls arguments = p.respond calls' arguments)
    (arguments : List String) :
    (w'.start (tool :: arguments)).1 = (w.start (tool :: arguments)).1 := by
  let call := tool :: arguments
  have same : (w'.attempt call).program? tool = (w.attempt call).program? tool := by
    rw [program?_attempt hname, program?_attempt hname, h.2]
  show (World.start w' call).1 = (World.start w call).1
  unfold World.start
  dsimp only
  rw [show call.headD "" = tool from rfl, same]
  split
  · rfl
  · cases hprogram : (w.attempt call).program? tool with
    | error e => rfl
    | ok p =>
      have found : w.programs tool = some p := by
        rw [program?_attempt hname] at hprogram
        split at hprogram
        · cases hprogram
        · split at hprogram
          · cases hprogram
          · cases hp : w.programs tool with
            | none =>
              rw [hp] at hprogram
              cases hprogram
            | some p' =>
              rw [hp] at hprogram
              cases hprogram
              rfl
      exact congrArg Except.ok (hmemory p found _ _ _)

/-- **Steady hosts.** Where the tool that knows the packages is found by its name, and what it does
does not depend on what has been started before, the host is steady. -/
theorem steady_of_tool {tool : String}
    (htool : w.environment.packageTool.getD "pkg-config" = tool) (hname : '/' ∉ tool.toList)
    (hmemory : ∀ p, w.programs tool = some p →
      ∀ calls calls' arguments, p.respond calls arguments = p.respond calls' arguments) :
    Steady (fun names => ((Command.packageFlags names).outcome w).1) w := by
  intro asked names
  have later := sameTools_askAll asked w
  generalize (askAll asked w).2 = w' at later
  have same := start_of_sameTools later hname hmemory ("--cflags" :: names)
  -- an answer is what the tool prints
  have answered : ∀ v : World, v.environment.packageTool.getD "pkg-config" = tool →
      ((Command.packageFlags names).outcome v).1 =
        ((Command.run (tool :: "--cflags" :: names)).outcome v).1.map fun response =>
          Text.words response.stdout := by
    intro v hv
    unfold Command.packageFlags
    rw [Action.outcome_bind_of_ok (Action.outcome_get v), hv, Action.outcome_bind_pure]
  show ((Command.packageFlags names).outcome w').1 = ((Command.packageFlags names).outcome w).1
  rw [answered w htool, answered w' (by rw [later.1, htool]), Command.outcome_run,
    Command.outcome_run, same]

end Packages

open Packages

/-! ## What is asked for -/

/-- The flags that an entry asks for in a steady host. -/
def Entry.flagsBy (answer : List String → Answer) : Entry → List String
  | .flags words => words
  | .packages names _ => (answer names).toOption.getD []
  | _ => []

namespace Packages

theorem flagsOf_map (answer : List String → Answer) (ps : List Placed) :
    flagsOf ps ((requests ps).map fun r => answer r.names) =
      ps.flatMap fun p => p.entry.flagsBy answer := by
  induction ps with
  | nil => rfl
  | cons p ps ih =>
    rw [requests_cons, List.flatMap_cons, ← ih]
    cases hentry : p.entry with
    | packages names optional =>
      have request : p.request? = some ⟨p.line, names, optional⟩ := by
        rw [Placed.request?, hentry]
      rw [request, Option.toList_some, List.singleton_append, List.map_cons]
      cases hanswer : answer names <;> simp [flagsOf, hentry, Entry.flagsBy, hanswer,
        Except.toOption]
    | _ => simp [Placed.request?, hentry, flagsOf, Entry.flagsBy]

theorem requests_append (ps qs : List Placed) :
    requests (ps ++ qs) = requests ps ++ requests qs :=
  List.filterMap_append

end Packages

/-! ## Libraries behind others -/

namespace Generated

/-- The library of some entries, the first of which are in the module `current` or at the root. -/
def library (current : Option String) (ps : List Placed) (answers : List Answer) : Generated :=
  { lines := banner ++ ps.flatMap fun p => p.entry.libraryLines
    flags := flagsOf ps answers
    declarations := declarationsFrom .wrapper current ps }

/-- The library for some directives, the first of which are in the module `current` or at the
root. -/
def wrapperFrom (current : Option String) (directives : List Directive) :
    Action GenerationError Generated := do
  let all ← entries .wrapper directives
  let s ← collect ({ Draft.start .wrapper with current }.write banner) all
  return ofDraft s

theorem wrapperFrom_none : wrapperFrom none = wrapper := rfl

variable {ds : List Directive} {ps : List Placed}

/-- What comes of some directives depends on the host through the answers to their requests. -/
theorem outcome_wrapperFrom (h : (Dialect.ofMode .wrapper).interpretAll ds = .ok ps)
    (current : Option String) (w : World) :
    (wrapperFrom current ds).outcome w =
      (match refusal? (requests ps) (askAll (requests ps) w).1 with
        | none => .ok (library current ps (askAll (requests ps) w).1)
        | some e => .error e,
      (askAll (requests ps) w).2) := by
  have understood : (monadLift (entries .wrapper ds) : Action GenerationError _).outcome w =
      (.ok ps, w) := by
    rw [Action.outcome_monadLift_except, entries, h]
    rfl
  have lines := Dialect.linesFrom_wrapper h current
  unfold wrapperFrom
  rw [Action.outcome_bind_of_ok understood, Action.outcome_bind_pure, outcome_collect_eq]
  cases refusal? (requests ps) (askAll (requests ps) w).1 with
  | some e => rfl
  | none =>
    rw [library, ← lines]
    rfl

/-- Behind a switch of modules, a library is one that starts in the module. -/
theorem outcome_wrapper_switch {d : Directive} {p : Placed} {name : String}
    (hd : (Dialect.ofMode .wrapper).interpret d = .ok p) (hp : p.entry = .inNamespace name)
    (h : (Dialect.ofMode .wrapper).interpretAll ds = .ok ps) (w : World) :
    (wrapper (d :: ds)).outcome w =
      (((wrapperFrom (some name) ds).outcome w).1.map fun g =>
        { g with declarations := .inNamespace name :: g.declarations },
      ((wrapperFrom (some name) ds).outcome w).2) := by
  have both : (Dialect.ofMode .wrapper).interpretAll (d :: ds) = .ok (p :: ps) := by
    rw [Dialect.interpretAll_eq_ok] at h ⊢
    rw [List.map_cons, List.map_cons, hd, h]
  have no_request : requests (p :: ps) = requests ps := by
    simp [requests_cons, Placed.request?, hp]
  have declared : ∀ answers, library none (p :: ps) answers =
      { library (some name) ps answers with
        declarations := .inNamespace name :: (library (some name) ps answers).declarations } := by
    intro answers
    simp only [library, List.flatMap_cons, flagsOf, hp, declarationsFrom]
    rfl
  rw [← wrapperFrom_none, outcome_wrapperFrom both, outcome_wrapperFrom h, no_request]
  cases refusal? (requests ps) (askAll (requests ps) w).1 with
  | some e => rfl
  | none =>
    rw [declared]
    rfl

/-- A steady host that settles all requests gives each package the flags that it knows. -/
theorem outcome_wrapperFrom_of_steady {answer : List String → Answer} {w : World}
    (h : (Dialect.ofMode .wrapper).interpretAll ds = .ok ps)
    (hmet : ∀ r ∈ requests ps, r.MetBy answer) (hsteady : Steady answer w)
    (current : Option String) :
    ((wrapperFrom current ds).outcome w).1 =
      .ok (library current ps ((requests ps).map fun r => answer r.names)) := by
  rw [outcome_wrapperFrom h, hsteady.askAll_eq hmet, refusal?_of_met hmet]

/-! ## Without switches of modules -/

end Generated

/-- The directives that switch to no module. -/
def Spec.withoutSwitches (ds : List Directive) : List Directive :=
  ds.filter fun d => d.tag != Kind.inNamespace.tag

/-- The entries that switch to no module. -/
def entriesWithoutSwitches (ps : List Placed) : List Placed :=
  ps.filter fun p => p.kind != .inNamespace

theorem Dialect.interpretAll_withoutSwitches {mode : Mode} {ds : List Directive} {ps : List Placed}
    (h : (ofMode mode).interpretAll ds = .ok ps) :
    (ofMode mode).interpretAll (withoutSwitches ds) = .ok (entriesWithoutSwitches ps) := by
  refine interpretAll_filter ?_ h
  intro d p hd
  have tag_eq : p.kind.tag = d.tag := (interpret_eq_ok.1 hd).1
  -- the tag says which kind it is
  have same_kind : p.kind.tag = Kind.inNamespace.tag → p.kind = .inNamespace := by
    intro same
    have found := Kind.ofTag?_tag p.kind
    rw [same, Kind.ofTag?_tag] at found
    exact (Option.some.inj found).symm
  rw [← tag_eq, Bool.eq_iff_iff, bne_iff_ne, bne_iff_ne]
  exact ⟨mt same_kind, mt (congrArg Kind.tag)⟩

/-- What a switch asks for is no line, no flag and no package. -/
theorem entriesWithoutSwitches_same {ps : List Placed} (h : ∀ p ∈ ps, p.kind ∈ p.entry.kinds) :
    requests (entriesWithoutSwitches ps) = requests ps ∧
      flagsOf (entriesWithoutSwitches ps) = flagsOf ps ∧
      ((entriesWithoutSwitches ps).flatMap fun p => p.entry.libraryLines) =
        ps.flatMap fun p => p.entry.libraryLines := by
  induction ps with
  | nil => exact ⟨rfl, rfl, rfl⟩
  | cons p ps ih =>
    obtain ⟨same_requests, same_flags, same_lines⟩ := ih fun q hq => h q (List.mem_cons_of_mem _ hq)
    rw [entriesWithoutSwitches, List.filter_cons, ← entriesWithoutSwitches]
    by_cases switch : p.kind = .inNamespace
    · have kind_mem := h p (List.mem_cons_self ..)
      rw [if_neg (by simp [switch]), requests_cons, List.flatMap_cons, same_requests, same_flags,
        same_lines]
      cases hentry : p.entry with
      | inNamespace name =>
        refine ⟨?_, ?_, ?_⟩
        · simp [Placed.request?, hentry]
        · funext answers
          simp [flagsOf, hentry]
        · rfl
      | _ =>
        rw [hentry, switch] at kind_mem
        simp [Entry.kinds] at kind_mem
    · rw [if_pos (by simpa using switch), requests_cons, requests_cons, List.flatMap_cons,
        List.flatMap_cons, same_requests, same_lines]
      refine ⟨rfl, ?_, rfl⟩
      funext answers
      unfold flagsOf
      rw [same_flags]

namespace Generated

/-- **Libraries in parts.** Let two specifications be understood, and each package that has to be
there be found by a host that answers by the packages alone. Then the source for both is that for
the first, followed by that for the second but for its first lines. The flags are those for the
first and then those for the second. The declarations are those for the first, and then those for
the second in the module that the first leaves open. Without its switches of modules, a
specification comes to the same source and flags in every host, or to the same failure. -/
theorem wrapper_append {as bs : List Directive} {ps qs : List Placed}
    {answer : List String → Answer} (has : (Dialect.ofMode .wrapper).interpretAll as = .ok ps)
    (hbs : (Dialect.ofMode .wrapper).interpretAll bs = .ok qs)
    (hmet : ∀ r ∈ requests (ps ++ qs), r.MetBy answer) :
    ∃ first second secondInside both,
      (∀ w, Steady answer w →
        ((wrapper as).outcome w).1 = .ok first ∧ ((wrapper bs).outcome w).1 = .ok second ∧
        ((wrapperFrom (moduleAfter none ps) bs).outcome w).1 = .ok secondInside ∧
        ((wrapper (as ++ bs)).outcome w).1 = .ok both) ∧
      (∃ text, second.source = SourceLine.render banner ++ text ∧
        both.source = first.source ++ text) ∧
      both.flags = first.flags ++ second.flags ∧
      both.declarations = first.declarations ++ secondInside.declarations ∧
      ∀ ds rs w, (Dialect.ofMode .wrapper).interpretAll ds = .ok rs →
        ((wrapper (withoutSwitches ds)).outcome w).1.map (fun g => (g.source, g.flags)) =
            ((wrapper ds).outcome w).1.map (fun g => (g.source, g.flags)) ∧
          ((wrapper (withoutSwitches ds)).outcome w).2 = ((wrapper ds).outcome w).2 := by
  have habs : (Dialect.ofMode .wrapper).interpretAll (as ++ bs) = .ok (ps ++ qs) := by
    rw [Dialect.interpretAll_eq_ok] at has hbs ⊢
    rw [List.map_append, List.map_append, has, hbs]
  rw [requests_append] at hmet
  have hmet_first : ∀ r ∈ requests ps, r.MetBy answer :=
    fun r hr => hmet r (List.mem_append_left _ hr)
  have hmet_second : ∀ r ∈ requests qs, r.MetBy answer :=
    fun r hr => hmet r (List.mem_append_right _ hr)
  refine ⟨_, _, _, _, fun w hw => ⟨outcome_wrapperFrom_of_steady has hmet_first hw none,
    outcome_wrapperFrom_of_steady hbs hmet_second hw none,
    outcome_wrapperFrom_of_steady hbs hmet_second hw (moduleAfter none ps),
    outcome_wrapperFrom_of_steady habs (requests_append ps qs ▸ hmet) hw none⟩,
    ⟨SourceLine.render (qs.flatMap fun p => p.entry.libraryLines), ?_, ?_⟩, ?_, ?_, ?_⟩
  · simp only [source, library, SourceLine.render_append]
  · simp only [source, library, SourceLine.render_append, List.flatMap_append, String.append_assoc]
  · simp only [library, flagsOf_map, List.flatMap_append]
  · simp only [library, declarationsFrom_eq]
    exact alongFrom_append _ none ps qs
  · intro ds rs w hds
    obtain ⟨same_requests, same_flags, same_lines⟩ :=
      entriesWithoutSwitches_same fun p hp => Dialect.kind_mem_of_interpretAll hds hp
    have without := outcome_wrapperFrom (Dialect.interpretAll_withoutSwitches hds) none w
    have all := outcome_wrapperFrom hds none w
    rw [wrapperFrom_none] at without all
    rw [without, all, same_requests]
    refine ⟨?_, rfl⟩
    cases refusal? (requests rs) (askAll (requests rs) w).1 with
    | some e => rfl
    | none => simp only [Except.map, source, library, same_flags, same_lines]

/-- A wrapper whose result has a type of a module. -/
def Wrapper.peer : Wrapper :=
  { name := "peer", native := "peer", convention := .c, documentation := none,
    result := .named ⟨some "net", "sock"⟩, parameters := [], body := .forward }

/-- A function in that module, which can do without its package. -/
def netDirectives : List Directive :=
  ⟨"pkg-config-cflags", [.string "zlib", .keyword "optional", .symbol ⟨none, "true"⟩], 1⟩ ::
    shutdownDirectives

def netEntries : List Placed :=
  [⟨.packageFlags, 1, .packages ["zlib"] true⟩, ⟨.inNamespace, 1, .inNamespace "net"⟩,
    ⟨.wrapper, 2, .wrapper Wrapper.shutdown⟩]

/-- A function with a type of that module, which needs its package. -/
def peerDirectives : List Directive :=
  [⟨"pkg-config-cflags", [.string "gtk"], 1⟩,
    ⟨"defwrapper", [.string "peer", .symbol ⟨some "net", "sock"⟩], 2⟩]

def peerEntries : List Placed :=
  [⟨.packageFlags, 1, .packages ["gtk"] false⟩, ⟨.wrapper, 2, .wrapper Wrapper.peer⟩]

/-- A host that knows one package. -/
def packageHost : World :=
  { World.bare with
    programs := fun _ => some ⟨fun _ arguments =>
      if arguments = ["--cflags", "gtk"] then ⟨.code 0, "-I/gtk\n", "", []⟩
      else ⟨.code 1, "", "", []⟩⟩ }

/-- In the module, the type is spelled without its name. -/
theorem wrapper_append_peer :
    ∃ both, ((wrapper (netDirectives ++ peerDirectives)).outcome packageHost).1 = .ok both ∧
      both.flags = ["-I/gtk"] ∧
      both.declarations = [.inNamespace "net",
        .function (Wrapper.shutdown.declaration (some "net")),
        .function ⟨"peer", "peer_wrap", "C", [], some "sock", none⟩] := by
  have no_memory : ∀ p, packageHost.programs "pkg-config" = some p →
      ∀ calls calls' arguments, p.respond calls arguments = p.respond calls' arguments := by
    intro p hp calls calls' arguments
    cases hp
    rfl
  have by_name : packageHost.environment.packageTool.getD "pkg-config" = "pkg-config" := rfl
  have steady := steady_of_tool by_name (by decide) no_memory
  have met : ∀ r ∈ requests (netEntries ++ peerEntries),
      r.MetBy fun names => ((Command.packageFlags names).outcome packageHost).1 := by
    intro r hr required
    have either : r = ⟨1, ["zlib"], true⟩ ∨ ⟨1, ["gtk"], false⟩ = r := by
      simpa [requests, netEntries, peerEntries, Placed.request?] using hr
    rcases either with rfl | rfl
    · cases required
    · exact ⟨["-I/gtk"], rfl⟩
  have understood : (Dialect.ofMode .wrapper).interpretAll netDirectives = .ok netEntries := rfl
  have understood_peer : (Dialect.ofMode .wrapper).interpretAll peerDirectives =
      .ok peerEntries := rfl
  obtain ⟨first, second, inside, both, runs, -, flags, declarations, -⟩ :=
    wrapper_append understood understood_peer met
  obtain ⟨hfirst, hsecond, hinside, hboth⟩ := runs packageHost steady
  cases (show .ok _ = Except.ok first from hfirst)
  cases (show .ok _ = Except.ok second from hsecond)
  cases (show .ok _ = Except.ok inside from hinside)
  exact ⟨both, hboth, flags, declarations⟩

end Generated

end ForeignBindings
