import Mathlib.Data.List.Induction
import ForeignBindings.Proofs.Dialects

/-!
# Assignments of shapes

A dialect is put together by assignments of shapes to tags. Of the assignments of one tag only the
first is accepted, if there is a kind with that tag, and all later ones are refused. The shape in
force is that of the last one all the same: an assignment that comes too late replaces the shape
before it is refused.

* `Dialect.after` is the dialect after some assignments, refused ones included. The dialects of both
  modes are of this form (`ofMode_eq_after`).
* `shape?_assign` says what one assignment does, and `shape?_after` which shapes are in force after
  all of them. `assign_after_eq_error` says which ones are refused.
* `interpret_after_eq_iff` says when two dialects answer to a directive alike.
* `assignments_in_force` says which directives are answered as before when an assignment has been
  refused, and which are answered by the shape of the accepted one.
-/

namespace ForeignBindings

open Spec

/-- A tag and the shape that it is to have. -/
structure Assignment where
  tag : String
  shape : Shape

/-- The last assignment of a tag. -/
def Assignment.lastOf (tag : String) (history : List Assignment) : Option Assignment :=
  (history.filter fun a => a.tag == tag).getLast?

theorem Assignment.lastOf_append (tag : String) (history : List Assignment) (a : Assignment) :
    lastOf tag (history ++ [a]) = if a.tag = tag then some a else lastOf tag history := by
  by_cases h : a.tag = tag <;> simp [lastOf, List.filter_append, h]

theorem Assignment.exists_lastOf_iff {tag : String} {history : List Assignment} :
    (∃ last, lastOf tag history = some last) ↔ ∃ a ∈ history, a.tag = tag := by
  rw [← Option.isSome_iff_exists, lastOf, List.getLast?_isSome]
  simp

theorem Assignment.tag_of_lastOf {tag : String} {history : List Assignment} {last : Assignment}
    (h : lastOf tag history = some last) : last.tag = tag := by
  have kept := List.mem_of_getLast? h
  simpa using (List.mem_filter.1 kept).2

theorem Assignment.lastOf_singleton (a : Assignment) : lastOf a.tag [a] = some a := by
  simp [lastOf]

namespace Dialect

open Assignment (lastOf)

/-- The dialect after some assignments to the one that understands nothing. -/
def after (history : List Assignment) : Dialect :=
  history.foldl (fun d a => (d.assign a.tag a.shape).2) empty

theorem after_append (history : List Assignment) (a : Assignment) :
    after (history ++ [a]) = ((after history).assign a.tag a.shape).2 := by
  simp [after]

/-- The dialects of both modes are put together by assignments. -/
theorem ofMode_eq_after (mode : Mode) :
    ofMode mode = after ((sharedKinds ++ mode.ownKinds).map fun k => ⟨k.tag, k.shape⟩) := by
  rw [ofMode, after, List.foldl_map]

/-! ## One assignment after the other -/

/-- An assignment, be it refused or not, gives its shape to the kind that has the tag. -/
theorem shape?_assign (d : Dialect) (tag : String) (shape : Shape) (k : Kind) :
    (d.assign tag shape).2.shape? k = if k.tag = tag then some shape else d.shape? k := by
  unfold assign
  cases htag : Kind.ofTag? tag with
  | none =>
    -- no kind has the tag, or it would be found
    have other : k.tag ≠ tag := by
      rw [ne_eq, ← Kind.ofTag?_eq_some_iff, htag]
      nofun
    rw [if_neg other]
  | some kind =>
    have same : k = kind ↔ k.tag = tag := by
      rw [← Kind.ofTag?_eq_some_iff, htag, Option.some.injEq, eq_comm]
    simp only [insert, same]

/-- The shape in force for a kind is the one that was assigned last. -/
theorem shape?_after (history : List Assignment) (k : Kind) :
    (after history).shape? k = (lastOf k.tag history).map Assignment.shape := by
  -- from the last assignment backwards
  induction history using List.reverseRecOn with
  | nil => rfl
  | append_singleton history a ih =>
    rw [after_append, shape?_assign, Assignment.lastOf_append, ih]
    by_cases htag : a.tag = k.tag
    · rw [if_pos htag, if_pos htag.symm, Option.map_some]
    · rw [if_neg htag, if_neg (Ne.symm htag)]

/-- What is refused is a tag of no kind, or one whose kind has a shape. -/
theorem assign_eq_error {d : Dialect} {tag : String} {shape : Shape} {e : RegistrationError} :
    (d.assign tag shape).1 = .error e ↔
      (e = .unknownTag tag ∧ ∀ k : Kind, k.tag ≠ tag) ∨
        (e = .duplicate tag ∧ ∃ k : Kind, k.tag = tag ∧ (d.shape? k).isSome) := by
  have same : ∀ k : Kind, k.tag = tag ↔ Kind.ofTag? tag = some k := fun k =>
    Kind.ofTag?_eq_some_iff.symm
  simp only [ne_eq, same]
  unfold assign
  cases htag : Kind.ofTag? tag with
  | none =>
    simp [eq_comm (a := e)]
  | some kind =>
    by_cases hshape : (d.shape? kind).isSome <;> simp [hshape, eq_comm (a := e)]

/-- After some assignments, a tag of no kind is refused, and one that has been assigned before. -/
theorem assign_after_eq_error {history : List Assignment} {tag : String} {shape : Shape}
    {e : RegistrationError} :
    ((after history).assign tag shape).1 = .error e ↔
      (e = .unknownTag tag ∧ ∀ k : Kind, k.tag ≠ tag) ∨
        (e = .duplicate tag ∧ (∃ k : Kind, k.tag = tag) ∧ ∃ a ∈ history, a.tag = tag) := by
  rw [assign_eq_error, ← Assignment.exists_lastOf_iff, ← Option.isSome_iff_exists]
  simp only [shape?_after, Option.isSome_map]
  constructor
  · rintro (unknown | ⟨rfl, k, rfl, hsome⟩)
    · exact .inl unknown
    · exact .inr ⟨rfl, ⟨k, rfl⟩, hsome⟩
  · rintro (unknown | ⟨rfl, ⟨k, rfl⟩, hsome⟩)
    · exact .inl unknown
    · exact .inr ⟨rfl, k, rfl, hsome⟩

/-! ## Answers to directives -/

/-- The answer to a directive of the given kind, from what the shape in force makes of its
arguments, if there is one. -/
def answerTo (x : Directive) (k : Kind) : Option (Except ShapeFault Entry) →
    Except InterpretError Placed
  | none => .error (.unknownDirective x.tag x.line)
  | some (.ok entry) => .ok ⟨k, x.line, entry⟩
  | some (.error fault) => .error (.shape ⟨x.line, x.tag, fault⟩)

/-- The answer tells what was made of the arguments. -/
theorem answerTo_inj {x : Directive} {k : Kind} {made made' : Option (Except ShapeFault Entry)} :
    answerTo x k made = answerTo x k made' ↔ made = made' := by
  constructor
  · intro h
    rcases made with _ | fault | entry <;> rcases made' with _ | fault' | entry' <;> cases h <;> rfl
  · rintro rfl
    rfl

theorem interpret_eq_answerTo (d : Dialect) {x : Directive} {k : Kind} (hk : k.tag = x.tag) :
    d.interpret x = answerTo x k ((d.shape? k).map fun shape => shape x.arguments) := by
  have found : Kind.ofTag? x.tag = some k := Kind.ofTag?_eq_some_iff.2 hk
  rw [interpret, found, Option.bind_some]
  cases d.shape? k with
  | none => rfl
  | some shape => cases hshape : shape x.arguments <;> simp [hshape, answerTo]

/-- Two dialects answer to a directive alike where the last assignments of its tag do. -/
theorem interpret_after_eq_iff {history history' : List Assignment} {x : Directive} {k : Kind}
    (hk : k.tag = x.tag) :
    (after history).interpret x = (after history').interpret x ↔
      (lastOf x.tag history).map (fun a => a.shape x.arguments) =
        (lastOf x.tag history').map fun a => a.shape x.arguments := by
  rw [interpret_eq_answerTo _ hk, interpret_eq_answerTo _ hk, answerTo_inj, shape?_after,
    shape?_after, Option.map_map, Option.map_map, hk]
  rfl

/-- No dialect understands a directive whose tag has no kind. -/
theorem interpret_eq_of_unknown (d d' : Dialect) {x : Directive} (h : ∀ k : Kind, k.tag ≠ x.tag) :
    d.interpret x = d'.interpret x := by
  have unknown : Kind.ofTag? x.tag = none := by
    cases htag : Kind.ofTag? x.tag with
    | none => rfl
    | some k => exact absurd (Kind.ofTag?_eq_some_iff.1 htag) (h k)
  simp [interpret, unknown]

/-- Some last assignment answers, whatever came before it. -/
theorem interpret_after_of_lastOf {history : List Assignment} {x : Directive} {last : Assignment}
    (h : lastOf x.tag history = some last) :
    (after history).interpret x = (after [last]).interpret x := by
  by_cases known : ∃ k : Kind, k.tag = x.tag
  · obtain ⟨k, hk⟩ := known
    rw [interpret_after_eq_iff hk, h, ← Assignment.tag_of_lastOf h, Assignment.lastOf_singleton]
  · exact interpret_eq_of_unknown _ _ (not_exists.1 known)

/-- An assignment of another tag makes no difference. -/
theorem interpret_after_append_of_ne (history : List Assignment) {a : Assignment} {x : Directive}
    (h : a.tag ≠ x.tag) : (after (history ++ [a])).interpret x = (after history).interpret x := by
  by_cases known : ∃ k : Kind, k.tag = x.tag
  · obtain ⟨k, hk⟩ := known
    rw [interpret_after_eq_iff hk, Assignment.lastOf_append, if_neg h]
  · exact interpret_eq_of_unknown _ _ (not_exists.1 known)

/-- An assignment that has been accepted is the first one of its tag, and there is a kind with that
tag. -/
theorem first_of_accepted {history : List Assignment} {tag : String} {shape : Shape}
    (h : ((after history).assign tag shape).1 = .ok ()) :
    (∃ k : Kind, k.tag = tag) ∧ ∀ a ∈ history, a.tag ≠ tag := by
  have not_refused : ∀ e, ¬ ((after history).assign tag shape).1 = .error e := by
    intro e he
    rw [h] at he
    cases he
  have known : ∃ k : Kind, k.tag = tag := by
    by_contra unknown
    exact not_refused _ (assign_after_eq_error.2 (.inl ⟨rfl, not_exists.1 unknown⟩))
  refine ⟨known, fun a ha htag => ?_⟩
  exact not_refused _ (assign_after_eq_error.2 (.inr ⟨rfl, known, a, ha, htag⟩))

/-- **Assignments in force.** An assignment is refused if its tag has no kind, or has been assigned
before. A refused one leaves the answers to all directives as they were, except to those of a tag
that had been assigned: these are answered as before exactly if the new shape makes the same of
their arguments as the last one did. So after any assignments a directive is answered by the last
one of its tag. It is answered by the accepted one, which was the first, exactly if both make the
same of its arguments. -/
theorem assignments_in_force (history : List Assignment) :
    (∀ tag shape e, ((after history).assign tag shape).1 = .error e ↔
      (e = .unknownTag tag ∧ ∀ k : Kind, k.tag ≠ tag) ∨
        (e = .duplicate tag ∧ (∃ k : Kind, k.tag = tag) ∧ ∃ a ∈ history, a.tag = tag)) ∧
    (∀ tag shape e, ((after history).assign tag shape).1 = .error e → ∀ x : Directive,
      (((after history).assign tag shape).2.interpret x = (after history).interpret x ↔
        (e = .duplicate x.tag →
          ∃ a, lastOf x.tag history = some a ∧ shape x.arguments = a.shape x.arguments))) ∧
    ∀ before a later, history = before ++ a :: later →
      ((after before).assign a.tag a.shape).1 = .ok () → ∀ x : Directive, x.tag = a.tag →
        (∀ b ∈ before, b.tag ≠ a.tag) ∧
        ∃ last, lastOf x.tag history = some last ∧
          (after history).interpret x = (after [last]).interpret x ∧
          ((after history).interpret x = (after [a]).interpret x ↔
            last.shape x.arguments = a.shape x.arguments) := by
  refine ⟨fun tag shape e => assign_after_eq_error, ?_, ?_⟩
  · intro tag shape e refused x
    -- although it is refused, the assignment counts as one more in the history
    rw [show ((after history).assign tag shape).2 = after (history ++ [⟨tag, shape⟩]) from
      (after_append history ⟨tag, shape⟩).symm]
    by_cases htag : tag = x.tag
    · subst htag
      rcases assign_after_eq_error.1 refused with ⟨rfl, unknown⟩ | ⟨rfl, ⟨k, hk⟩, assigned⟩
      · exact iff_of_true (interpret_eq_of_unknown _ _ unknown) nofun
      · -- the new shape stands against the last one
        obtain ⟨last, hlast⟩ := Assignment.exists_lastOf_iff.2 assigned
        rw [interpret_after_eq_iff hk, Assignment.lastOf_append, if_pos rfl, hlast]
        simp
    · refine iff_of_true (interpret_after_append_of_ne history htag) ?_
      rintro rfl
      rcases assign_after_eq_error.1 refused with ⟨⟨⟩, -⟩ | ⟨⟨⟩, -⟩
      exact absurd rfl htag
  · rintro before a later rfl accepted x hx
    obtain ⟨⟨k, hk⟩, first⟩ := first_of_accepted accepted
    have assigned : ∃ b ∈ before ++ a :: later, b.tag = x.tag := ⟨a, by simp, hx.symm⟩
    obtain ⟨last, hlast⟩ := Assignment.exists_lastOf_iff.2 assigned
    refine ⟨first, last, hlast, interpret_after_of_lastOf hlast, ?_⟩
    rw [interpret_after_eq_iff (hk.trans hx.symm), hlast, hx, Assignment.lastOf_singleton]
    simp

/-- Lines of C text and headers, each assigned once. -/
def textAndHeaders : List Assignment :=
  [⟨"c", verbatimShape⟩, ⟨"include", headerShape⟩]

/-- Once the tag of C text is assigned again, its directives name headers, although that is
refused. Those of headers stay what they are. -/
theorem assignments_in_force_text :
    ((after textAndHeaders).assign "c" headerShape).1 = .error (.duplicate "c") ∧
    ((after textAndHeaders).assign "c" headerShape).2.interpret ⟨"include", [.string "x"], 2⟩ =
      (after textAndHeaders).interpret ⟨"include", [.string "x"], 2⟩ ∧
    ((after textAndHeaders).assign "c" headerShape).2.interpret ⟨"c", [.string "x"], 1⟩ ≠
      (after textAndHeaders).interpret ⟨"c", [.string "x"], 1⟩ ∧
    (after (textAndHeaders ++ [⟨"c", headerShape⟩])).interpret ⟨"c", [.string "x"], 1⟩ ≠
      (after [⟨"c", verbatimShape⟩]).interpret ⟨"c", [.string "x"], 1⟩ := by
  have refused : ((after textAndHeaders).assign "c" headerShape).1 = .error (.duplicate "c") := rfl
  have accepted : ((after []).assign "c" verbatimShape).1 = .ok () := rfl
  have other_shape : headerShape [.string "x"] ≠ verbatimShape [.string "x"] := nofun
  obtain ⟨-, unchanged, -⟩ := assignments_in_force textAndHeaders
  obtain ⟨-, -, answered⟩ := assignments_in_force (textAndHeaders ++ [⟨"c", headerShape⟩])
  refine ⟨refused, ?_, ?_, ?_⟩
  · exact (unchanged _ _ _ refused ⟨"include", [.string "x"], 2⟩).2 nofun
  · rw [ne_eq, unchanged _ _ _ refused]
    intro same
    obtain ⟨last, hlast, hshape⟩ := same rfl
    cases hlast
    exact other_shape hshape
  · obtain ⟨-, last, hlast, -, same⟩ := answered [] _ _ rfl accepted ⟨"c", [.string "x"], 1⟩ rfl
    rw [ne_eq, same]
    cases hlast
    exact other_shape

/-- A refused assignment is not without effect. -/
theorem refused_assignment_replaces :
    ¬ ∀ (history : List Assignment) (tag : String) (shape : Shape) (e : RegistrationError),
      ((after history).assign tag shape).1 = .error e →
        ∀ x, ((after history).assign tag shape).2.interpret x = (after history).interpret x := by
  intro unchanged
  have same := unchanged [⟨"c", verbatimShape⟩] "c" headerShape (.duplicate "c") rfl
    ⟨"c", [.string "x"], 1⟩
  have lines : (after [⟨"c", verbatimShape⟩]).interpret ⟨"c", [.string "x"], 1⟩ =
      .ok ⟨.verbatim, 1, .verbatim ["x"]⟩ := rfl
  have headers : ((after [⟨"c", verbatimShape⟩]).assign "c" headerShape).2.interpret
      ⟨"c", [.string "x"], 1⟩ = .ok ⟨.verbatim, 1, .headers ["x"]⟩ := rfl
  rw [lines, headers] at same
  cases same

end Dialect

end ForeignBindings
