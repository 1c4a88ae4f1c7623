import ForeignBindings.Proofs.Shapes

/-!
# The two dialects

Which directives the dialect of a mode understands, and which one is at fault if it does not
understand all of a specification.

* `shape?_ofMode` says that a dialect understands its own kinds, each by its own shape.
* `interpret_eq_ok` and `interpretAll_eq_ok` open the interpretation of directives.
* `FirstFault` is the first directive that is not understood, and `interpretAll_eq_error` says that
  its error is the one that is reported.
-/

namespace ForeignBindings

open Spec Checks

/-- The kinds of directives that a mode understands. -/
def Mode.kinds (mode : Mode) : List Kind :=
  sharedKinds ++ mode.ownKinds

/-- A tag belongs to the one kind that has it. -/
theorem Spec.Kind.ofTag?_eq_some_iff {tag : String} {k : Kind} :
    ofTag? tag = some k ↔ k.tag = tag := by
  constructor
  · exact tag_of_ofTag?
  · rintro rfl
    exact ofTag?_tag k

namespace Dialect

theorem assign_tag (d : Dialect) (k : Kind) (shape : Shape) :
    (d.assign k.tag shape).2 = d.insert k shape := by
  simp [assign, Kind.ofTag?_tag]

theorem shape?_foldl_assign (kinds : List Kind) (d : Dialect) (k : Kind) :
    (kinds.foldl (fun d k => (d.assign k.tag k.shape).2) d).shape? k =
      if k ∈ kinds then some k.shape else d.shape? k := by
  induction kinds generalizing d with
  | nil => simp
  | cons first rest ih =>
    -- a kind that comes twice is assigned the same shape again
    rw [List.foldl_cons, ih, assign_tag]
    by_cases hrest : k ∈ rest
    · simp [hrest]
    · by_cases hfirst : k = first
      · simp [hfirst, insert]
      · simp [hrest, hfirst, insert]

/-- A dialect understands the kinds of its mode, each by its own shape. -/
theorem shape?_ofMode (mode : Mode) (k : Kind) :
    (ofMode mode).shape? k = if k ∈ mode.kinds then some k.shape else none :=
  shape?_foldl_assign mode.kinds empty k

/-- A directive is understood as an entry by the shape of its kind. -/
theorem interpret_eq_ok {mode : Mode} {d : Directive} {p : Placed} :
    (ofMode mode).interpret d = .ok p ↔
      p.kind.tag = d.tag ∧ p.kind ∈ mode.kinds ∧ p.line = d.line ∧
        p.kind.shape d.arguments = .ok p.entry := by
  unfold interpret
  cases htag : Kind.ofTag? d.tag with
  | none =>
    constructor
    · intro h
      cases h
    · rintro ⟨hkind, -⟩
      rw [← hkind, Kind.ofTag?_tag] at htag
      cases htag
  | some k =>
    -- a tag has one kind, so the kind of the entry can be no other
    have tag_eq := Kind.tag_of_ofTag? htag
    have same_kind : p.kind.tag = d.tag ↔ p.kind = k := by
      rw [← Kind.ofTag?_eq_some_iff, htag, Option.some.injEq, eq_comm]
    rw [Option.bind_some, shape?_ofMode, same_kind]
    by_cases hmem : k ∈ mode.kinds
    · rw [if_pos hmem]
      cases hshape : k.shape d.arguments with
      | ok entry =>
        simp only [Option.map_some, hshape]
        constructor
        · intro h
          cases h
          exact ⟨rfl, hmem, rfl, hshape⟩
        · rintro ⟨rfl, -, hline, h⟩
          rw [hshape] at h
          cases p
          simp_all
      | error fault =>
        simp only [Option.map_some, hshape]
        constructor
        · intro h
          cases h
        · rintro ⟨rfl, -, -, h⟩
          rw [hshape] at h
          cases h
    · rw [if_neg hmem]
      constructor
      · intro h
        cases h
      · rintro ⟨rfl, hmem', -⟩
        exact absurd hmem' hmem

/-- The kind of an understood directive is one of the kinds that its entry comes from. -/
theorem kind_mem_kinds {mode : Mode} {d : Directive} {p : Placed}
    (h : (ofMode mode).interpret d = .ok p) : p.kind ∈ p.entry.kinds :=
  mem_kinds_of_shape (interpret_eq_ok.1 h).2.2.2

/-- The entries of a specification are those of its directives, in their order. -/
theorem interpretAll_eq_ok {d : Dialect} {directives : List Directive} {ps : List Placed} :
    d.interpretAll directives = .ok ps ↔ directives.map d.interpret = ps.map .ok :=
  mapM_eq_ok

/-- Each entry comes from some directive. -/
theorem exists_interpret_of_mem {d : Dialect} {directives : List Directive} {ps : List Placed}
    (h : d.interpretAll directives = .ok ps) {p : Placed} (hp : p ∈ ps) :
    ∃ x ∈ directives, d.interpret x = .ok p :=
  exists_of_mem_results (interpretAll_eq_ok.1 h) hp

/-! ## The first fault -/

/-- All directives before one are understood, and that one is not. -/
def FirstFault (d : Dialect) (directives : List Directive) (e : InterpretError) : Prop :=
  ∃ before faulty after, directives = before ++ faulty :: after ∧
    (∀ x ∈ before, ∃ p, d.interpret x = .ok p) ∧ d.interpret faulty = .error e

theorem interpretAll_eq_error {d : Dialect} {directives : List Directive} {e : InterpretError} :
    d.interpretAll directives = .error e ↔ d.FirstFault directives e :=
  mapM_eq_error

/-- Where some directive is not understood, there is a first one. -/
theorem exists_firstFault {d : Dialect} {directives : List Directive} {x : Directive}
    (hx : x ∈ directives) {e : InterpretError} (h : d.interpret x = .error e) :
    ∃ e', d.FirstFault directives e' := by
  cases hall : d.interpretAll directives with
  | error e' => exact ⟨e', interpretAll_eq_error.1 hall⟩
  | ok ps =>
    -- if all of them were understood, so would be the one that is not
    have understood : d.interpret x ∈ ps.map Except.ok := by
      rw [← interpretAll_eq_ok.1 hall]
      exact List.mem_map_of_mem hx
    rw [h] at understood
    simp at understood

end Dialect

end ForeignBindings
