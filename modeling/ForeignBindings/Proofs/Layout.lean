import ForeignBindings.Proofs.Packages
import ForeignBindings.Proofs.Rows

/-!
# The layout of a probe

A probe has the text of its headers first, then the start of its `main`, then what all other
directives stand for, and at last the end of `main`. A header reads and changes nothing that the
other directives depend on, so it does not matter how the two are interleaved.

* `Dialect.interpretAll_filter` says that a part of a specification that is understood stands for
  the same part of the entries.
* `Generated.outcome_probe` is the outcome of a probe, as a function of its two parts.
* `Generated.probe_layout` spells the source and the flags out, and says that any other order in
  which the two parts are kept comes to the same in every world.
-/

namespace ForeignBindings

open Spec Checks Packages

/-! ## Headers -/

namespace Spec

/-- The tags of the directives whose text stands in front of `main`. -/
def headerTags : List String := ["c", "include", "define", "typedef"]

/-- The directive is one of those whose text stands in front of `main`. -/
def Directive.isHeader (d : Directive) : Bool :=
  headerTags.contains d.tag

theorem Kind.isHeader_eq (k : Kind) : k.isHeader = headerTags.contains k.tag := by
  cases k <;> decide

end Spec

/-- The headers among some entries. -/
def headersIn (ps : List Placed) : List Placed :=
  ps.filter fun p => p.kind.isHeader

/-- The entries that are no headers. -/
def othersIn (ps : List Placed) : List Placed :=
  ps.filter fun p => !p.kind.isHeader

/-- The entry comes from a header. -/
def Placed.IsHeader (p : Placed) : Prop :=
  p.kind ∈ p.entry.kinds ∧ p.kind.isHeader = true

theorem Placed.IsHeader.request?_eq {p : Placed} (h : p.IsHeader) : p.request? = none := by
  rcases Entry.plain_of_header h.1 h.2 with
    ⟨_, hentry⟩ | ⟨_, hentry⟩ | ⟨_, _, hentry⟩ | ⟨_, _, hentry⟩ <;>
  · rw [request?, hentry]

/-- A header adds lines that are the same in every module, and nothing else. -/
theorem Draft.after_of_headers {ps : List Placed} (h : ∀ p ∈ ps, p.IsHeader) (s : Draft)
    (answers : List Answer) :
    s.after ps answers = s.write (ps.flatMap fun p => (p.entry.added s.mode none).lines) := by
  induction ps generalizing s with
  | nil => simp [write]
  | cons p ps ih =>
    obtain ⟨kind_mem, is_header⟩ := h p (List.mem_cons_self ..)
    have rest := ih fun q hq => h q (List.mem_cons_of_mem _ hq)
    have absorbed : s.absorb p.entry = s.write (p.entry.added s.mode none).lines := by
      rcases Entry.plain_of_header kind_mem is_header with
        ⟨_, hentry⟩ | ⟨_, hentry⟩ | ⟨_, _, hentry⟩ | ⟨_, _, hentry⟩ <;>
      · rw [hentry]
        rfl
    have no_request : p.request? = none := Placed.IsHeader.request?_eq ⟨kind_mem, is_header⟩
    have first := (s.takes_absorb p).after_eq (s.flags_absorb no_request ps answers)
    rw [← first, absorbed, rest, List.flatMap_cons]
    simp [write]

theorem Packages.requests_of_headers {ps : List Placed} (h : ∀ p ∈ ps, p.IsHeader) :
    requests ps = [] := by
  apply List.filterMap_eq_nil_iff.2
  intro p hp
  exact (h p hp).request?_eq

/-- All requests and all flags come from the other entries. -/
theorem Packages.of_othersIn {ps : List Placed} (h : ∀ p ∈ ps, p.kind ∈ p.entry.kinds) :
    requests (othersIn ps) = requests ps ∧ flagsOf (othersIn ps) = flagsOf ps := by
  induction ps with
  | nil => exact ⟨rfl, rfl⟩
  | cons p ps ih =>
    obtain ⟨same_requests, same_flags⟩ := ih fun q hq => h q (List.mem_cons_of_mem _ hq)
    rw [othersIn, List.filter_cons, ← othersIn]
    cases hside : p.kind.isHeader with
    | true =>
      have header : p.IsHeader := ⟨h p (List.mem_cons_self ..), hside⟩
      have no_flags : flagsOf (p :: ps) = flagsOf ps := by
        funext answers
        rcases Entry.plain_of_header header.1 header.2 with
          ⟨_, hentry⟩ | ⟨_, hentry⟩ | ⟨_, _, hentry⟩ | ⟨_, _, hentry⟩ <;>
        · simp [flagsOf, hentry]
      rw [requests_cons, header.request?_eq, no_flags]
      exact ⟨same_requests, same_flags⟩
    | false =>
      have flags_eq : flagsOf (p :: othersIn ps) = flagsOf (p :: ps) := by
        funext answers
        unfold flagsOf
        rw [same_flags]
      rw [Bool.not_false, if_pos rfl, requests_cons, requests_cons, same_requests]
      exact ⟨rfl, flags_eq⟩

/-! ## Parts of a specification -/

namespace Dialect

variable {mode : Mode} {ds ds' : List Directive} {ps : List Placed}

/-- The kind of an entry says whether its directive is a header. -/
theorem isHeader_of_interpret {d : Directive} {p : Placed}
    (h : (ofMode mode).interpret d = .ok p) : p.kind.isHeader = d.isHeader := by
  rw [Kind.isHeader_eq, (interpret_eq_ok.1 h).1]
  rfl

/-- A part of a specification stands for the same part of the entries. -/
theorem interpretAll_filter {d : Dialect} {keep : Directive → Bool} {keep' : Placed → Bool}
    (hkeep : ∀ x p, d.interpret x = .ok p → keep' p = keep x) (h : d.interpretAll ds = .ok ps) :
    d.interpretAll (ds.filter keep) = .ok (ps.filter keep') := by
  rw [interpretAll_eq_ok] at h ⊢
  induction ds generalizing ps with
  | nil =>
    rw [List.map_nil, eq_comm, List.map_eq_nil_iff] at h
    rw [h]
    rfl
  | cons x ds ih =>
    -- the first directive is kept where its entry is, and the others go the same way
    cases ps with
    | nil => cases h
    | cons p ps =>
      obtain ⟨hfirst, hrest⟩ := List.cons.inj h
      rw [List.filter_cons, List.filter_cons, hkeep x p hfirst]
      cases keep x with
      | true => simp [hfirst, ih hrest]
      | false => simpa using ih hrest

/-- The headers, and all else. -/
theorem interpretAll_parts (h : (ofMode mode).interpretAll ds = .ok ps) :
    (ofMode mode).interpretAll (ds.filter Directive.isHeader) = .ok (headersIn ps) ∧
      (ofMode mode).interpretAll (ds.filter fun d => !d.isHeader) = .ok (othersIn ps) := by
  constructor
  · exact interpretAll_filter (fun x p hx => isHeader_of_interpret hx) h
  · apply interpretAll_filter _ h
    intro x p hx
    rw [isHeader_of_interpret hx]

/-- A specification is understood where both of its parts are. -/
theorem understood_of_parts {header body : List Placed}
    (hheader : (ofMode mode).interpretAll (ds.filter Directive.isHeader) = .ok header)
    (hbody : (ofMode mode).interpretAll (ds.filter fun d => !d.isHeader) = .ok body) :
    ∃ ps, (ofMode mode).interpretAll ds = .ok ps := by
  cases hall : (ofMode mode).interpretAll ds with
  | ok ps => exact ⟨ps, rfl⟩
  | error e =>
    -- the directive that is not understood would stand in one of the parts
    obtain ⟨before, x, after, heq, -, hx⟩ := interpretAll_eq_error.1 hall
    have mem : x ∈ ds := by simp [heq]
    exfalso
    cases hside : x.isHeader with
    | true =>
      have in_header : x ∈ ds.filter Directive.isHeader := List.mem_filter.2 ⟨mem, hside⟩
      obtain ⟨e', hfault⟩ := exists_firstFault in_header hx
      rw [interpretAll_eq_error.2 hfault] at hheader
      cases hheader
    | false =>
      have in_body : x ∈ ds.filter fun d => !d.isHeader := List.mem_filter.2 ⟨mem, by simp [hside]⟩
      obtain ⟨e', hfault⟩ := exists_firstFault in_body hx
      rw [interpretAll_eq_error.2 hfault] at hbody
      cases hbody

end Dialect

/-! ## The outcome of a probe -/

theorem SourceLine.render_append (ls ls' : List SourceLine) :
    render (ls ++ ls') = render ls ++ render ls' := by
  simp [render, String.join_append]

namespace Generated

/-- The lines of some headers. -/
def headerLines (header : List Placed) : List SourceLine :=
  header.flatMap fun p => (p.entry.added .probe none).lines

/-- The lines of all other entries, each in the module that is open when it comes. -/
def bodyLines (body : List Placed) : List SourceLine :=
  linesFrom .probe none body

/-- The end of the module that the last of some entries are in. -/
def lastLines (body : List Placed) : List SourceLine :=
  if (moduleAfter none body).isSome then [.call .namespaceEnd] else []

/-- The probe for some headers and some other entries, with the answers to their requests. -/
def layout (header body : List Placed) (answers : List Answer) : Generated :=
  { lines := banner ++ headerLines header ++ .plain "" :: opening ++ bodyLines body ++
      lastLines body ++ closing
    flags := flagsOf body answers
    declarations := declarationsFrom .probe none body }

/-- What a probe comes to depends on the headers, on the other entries, and on the answers that
those get. -/
theorem outcome_probe {ds : List Directive} {ps : List Placed}
    (h : (Dialect.ofMode .probe).interpretAll ds = .ok ps) (w : World) :
    (probe ds).outcome w =
      (match refusal? (requests (othersIn ps)) (askAll (requests (othersIn ps)) w).1 with
        | none => .ok (layout (headersIn ps) (othersIn ps) (askAll (requests (othersIn ps)) w).1)
        | some e => .error e,
      (askAll (requests (othersIn ps)) w).2) := by
  have headers : ∀ p ∈ headersIn ps, p.IsHeader := by
    intro p hp
    obtain ⟨hp, is_header⟩ := List.mem_filter.1 hp
    exact ⟨Dialect.kind_mem_of_interpretAll h hp, is_header⟩
  have understood : (monadLift (entries .probe ds) : Action GenerationError _).outcome w =
      (.ok ps, w) := by
    rw [Action.outcome_monadLift_except, entries, h]
    rfl
  -- the headers ask for nothing, so nothing happens before the body
  let s := ((Draft.start .probe).write banner).write (headerLines (headersIn ps))
  have first :
      (collect ((Draft.start .probe).write banner) (headersIn ps)).outcome w = (.ok s, w) := by
    rw [outcome_collect_eq, requests_of_headers headers, Draft.after_of_headers headers]
    rfl
  have second : (collect (s.write (.plain "" :: opening)) (ps.filter (not ∘ _))).outcome w = _ :=
    outcome_collect_eq (s.write (.plain "" :: opening)) (othersIn ps) w
  unfold probe
  rw [Action.outcome_bind_of_ok understood, List.partition_eq_filter_filter]
  show Action.outcome (collect _ (headersIn ps) >>= _) w = _
  rw [Action.outcome_bind_of_ok first, Action.outcome_bind, second]
  cases refusal? (requests (othersIn ps)) (askAll (requests (othersIn ps)) w).1 with
  | some e => rfl
  | none =>
    -- the module that is closed at the end is the one that the body has left open
    have closed : ((s.write (.plain "" :: opening)).after (othersIn ps)
        (askAll (requests (othersIn ps)) w).1).closingLines = lastLines (othersIn ps) := rfl
    show (Except.ok (ofDraft (Draft.write (Draft.write _ (Draft.closingLines _)) closing)), _) = _
    rw [closed]
    simp [s, Draft.start, Draft.write, Draft.after, layout, ofDraft, bodyLines, List.append_assoc]

/-- **The layout of a probe.** For every specification that is understood, the source is the banner,
the text of the headers in their order, an empty line, the start of `main`, the text of all other
directives in their order, the end of the module that is open, and the end of `main`. The headers
stand for the same as they do alone, and so do the other directives, to whose answers the host is
asked. Any specification with the same headers and the same other directives comes to the same in
every world, a failure included, and also in another world that gives the same answers. -/
theorem probe_layout {ds : List Directive} {ps : List Placed}
    (h : (Dialect.ofMode .probe).interpretAll ds = .ok ps) :
    ∃ header body,
      (Dialect.ofMode .probe).interpretAll (ds.filter Directive.isHeader) = .ok header ∧
      (Dialect.ofMode .probe).interpretAll (ds.filter fun d => !d.isHeader) = .ok body ∧
      (∀ w, (probe ds).outcome w =
        (match refusal? (requests body) (askAll (requests body) w).1 with
          | none => .ok (layout header body (askAll (requests body) w).1)
          | some e => .error e,
        (askAll (requests body) w).2)) ∧
      (∀ answers, (layout header body answers).flags = flagsOf body answers ∧
        (layout header body answers).source =
          SourceLine.render banner ++ SourceLine.render (headerLines header) ++ "\n" ++
            SourceLine.render opening ++ SourceLine.render (bodyLines body) ++
            SourceLine.render (lastLines body) ++ SourceLine.render closing) ∧
      ∀ ds', ds'.filter Directive.isHeader = ds.filter Directive.isHeader →
        (ds'.filter fun d => !d.isHeader) = (ds.filter fun d => !d.isHeader) →
          (∀ w, (probe ds').outcome w = (probe ds).outcome w) ∧
          ∀ w w', (askAll (requests body) w').1 = (askAll (requests body) w).1 →
            ((probe ds').outcome w').1 = ((probe ds).outcome w).1 := by
  obtain ⟨hheader, hbody⟩ := Dialect.interpretAll_parts h
  refine ⟨_, _, hheader, hbody, outcome_probe h, ?_, ?_⟩
  · intro answers
    refine ⟨rfl, ?_⟩
    simp only [source, layout, SourceLine.render_append, SourceLine.render_cons]
    simp [String.append_assoc]
  · intro ds' same_header same_body
    -- the other specification is understood too, and its parts are the same entries
    rw [← same_header] at hheader
    rw [← same_body] at hbody
    obtain ⟨ps', h'⟩ := Dialect.understood_of_parts hheader hbody
    obtain ⟨hheader', hbody'⟩ := Dialect.interpretAll_parts h'
    have header_eq := Except.ok.inj (hheader'.symm.trans hheader)
    have body_eq := Except.ok.inj (hbody'.symm.trans hbody)
    have outcome_eq : ∀ w, (probe ds').outcome w = (probe ds).outcome w := by
      intro w
      rw [outcome_probe h, outcome_probe h', header_eq, body_eq]
    refine ⟨outcome_eq, ?_⟩
    intro w w' same_answers
    rw [outcome_eq, outcome_probe h, outcome_probe h]
    dsimp only
    rw [same_answers]

/-- A header that comes last makes the same probe as one that comes first, on every host. -/
theorem probe_late_header :
    let constant : Directive :=
      ⟨"constant", [.list [.symbol ⟨none, "eagain"⟩, .string "EAGAIN"]], 1⟩
    let package : Directive := ⟨"pkg-config-cflags", [.string "zlib"], 2⟩
    let header : Directive := ⟨"include", [.string "errno.h"], 3⟩
    let understoodAs : List Placed := [⟨.constant, 1, .constant ⟨"EAGAIN", ["EAGAIN"], none, false,
      .integer⟩⟩, ⟨.packageFlags, 2, .packages ["zlib"] false⟩, ⟨.header, 3, .headers ["errno.h"]⟩]
    (Dialect.ofMode .probe).interpretAll [constant, package, header] = .ok understoodAs ∧
      ∀ w, (probe [header, constant, package]).outcome w =
        (probe [constant, package, header]).outcome w := by
  intro constant package header understoodAs
  have understood : (Dialect.ofMode .probe).interpretAll [constant, package, header] =
      .ok understoodAs := rfl
  obtain ⟨_, _, -, -, -, -, any_order⟩ := probe_layout understood
  exact ⟨understood, (any_order [header, constant, package] rfl rfl).1⟩

end Generated

end ForeignBindings
