import ForeignBindings.Proofs.Checks
import ForeignBindings.Spec.Sexp

/-!
# Lists and their lexemes

The lists that a text reads as are written by its lexemes, in their order and with none left out.

* `Sexp.Spelled` says that some lexemes write an element. The line of a list is that of the opening
  parenthesis that it starts with.
* `Sexp.Reading.Holds` is the invariant of the reader: what has been read so far is written by the
  lexemes taken in, those of the lists still open included.
* `Sexp.spelledAll_of_ofLexemes` is a whole run of it.
-/

namespace ForeignBindings.Spec

open Checks

/-! ## Spellings -/

mutual

/-- The lexemes write the element. -/
def Sexp.Spelled : Sexp → List Lexeme → Prop
  | .word text, ls => ∃ l, ls = [l] ∧ l.token = .ok (.word text)
  | .string text, ls => ∃ l, ls = [l] ∧ l.token = .ok (.string text)
  | .integer n, ls => ∃ l, ls = [l] ∧ l.token = .ok (.integer n)
  | .list items line, ls =>
    ∃ o inner c, ls = o :: inner ++ [c] ∧ o.token = .ok .open ∧ o.line = line ∧
      c.token = .ok .close ∧ Sexp.SpelledAll items inner

/-- The lexemes write the elements, one after the other. -/
def Sexp.SpelledAll : List Sexp → List Lexeme → Prop
  | [], ls => ls = []
  | s :: rest, ls =>
    ∃ first others, ls = first ++ others ∧ Sexp.Spelled s first ∧ Sexp.SpelledAll rest others

end

/-- The element is a list. -/
def Sexp.IsList (s : Sexp) : Prop :=
  ∃ items line, s = .list items line

namespace Sexp

theorem SpelledAll.append {xs ys : List Sexp} {ls ls' : List Lexeme} (h : SpelledAll xs ls)
    (h' : SpelledAll ys ls') : SpelledAll (xs ++ ys) (ls ++ ls') := by
  induction xs generalizing ls with
  | nil =>
    rw [SpelledAll] at h
    rw [h]
    exact h'
  | cons x xs ih =>
    rw [SpelledAll] at h
    obtain ⟨first, others, rfl, hfirst, hothers⟩ := h
    rw [List.cons_append, SpelledAll]
    exact ⟨first, others ++ ls', List.append_assoc .., hfirst, ih hothers⟩

theorem SpelledAll.singleton {s : Sexp} {ls : List Lexeme} (h : s.Spelled ls) :
    SpelledAll [s] ls := by
  rw [SpelledAll]
  exact ⟨ls, [], (List.append_nil ls).symm, h, by rw [SpelledAll]⟩

/-! ## The reader -/

namespace Reading

/-- The lexemes write lists that are still open, the innermost one first. -/
def PendingSpelled : List OpenList → List Lexeme → Prop
  | [], ls => ls = []
  | inner :: outer, ls =>
    ∃ before o items, ls = before ++ o :: items ∧ PendingSpelled outer before ∧
      o.token = .ok .open ∧ o.line = inner.line ∧ SpelledAll inner.items.reverse items

/-- What has been read is written by the lexemes: the finished lists first, and then those that are
still open. -/
def Holds (r : Reading) (ls : List Lexeme) : Prop :=
  ∃ done rest, ls = done ++ rest ∧ SpelledAll r.finished.reverse done ∧
    PendingSpelled r.pending rest ∧ ∀ s ∈ r.finished, s.IsList

theorem holds_start : Holds ⟨[], []⟩ [] :=
  ⟨[], [], rfl, by rw [List.reverse_nil, SpelledAll], rfl, by simp⟩

/-- An element goes to the end of the innermost open list, or of the finished ones. -/
theorem Holds.add {r r' : Reading} {line : Nat} {s : Sexp} {ls ls' : List Lexeme} (h : r.Holds ls)
    (hs : s.Spelled ls') (hadd : r.add line s = .ok r') : r'.Holds (ls ++ ls') := by
  obtain ⟨done, rest, rfl, hdone, hrest, hlists⟩ := h
  obtain ⟨pending, finished⟩ := r
  cases pending with
  | cons inner outer =>
    cases hadd
    obtain ⟨before, o, items, rfl, houter, hopen, hline, hitems⟩ := hrest
    have more : SpelledAll (s :: inner.items).reverse (items ++ ls') := by
      rw [List.reverse_cons]
      exact hitems.append (.singleton hs)
    refine ⟨done, before ++ o :: (items ++ ls'), ?_, hdone, ?_, hlists⟩
    · simp only [List.append_assoc, List.cons_append]
    · exact ⟨before, o, items ++ ls', rfl, houter, hopen, hline, more⟩
  | nil =>
    have no_rest : rest = [] := hrest
    cases s with
    | list items listLine =>
      -- no list is open, and the element is one itself
      cases hadd
      have more : SpelledAll (list items listLine :: finished).reverse (done ++ ls') := by
        rw [List.reverse_cons]
        exact hdone.append (.singleton hs)
      refine ⟨done ++ ls', [], by simp [no_rest], more, rfl, ?_⟩
      intro x hx
      rcases List.mem_cons.1 hx with rfl | hx
      · exact ⟨items, listLine, rfl⟩
      · exact hlists x hx
    | _ => cases hadd

/-- Each lexeme that is taken in is the next one of what has been read. -/
theorem Holds.lexeme {r r' : Reading} {l : Lexeme} {ls : List Lexeme} (h : r.Holds ls)
    (hlexeme : r.lexeme l = .ok r') : r'.Holds (ls ++ [l]) := by
  unfold Reading.lexeme at hlexeme
  split at hlexeme
  · rename_i t htoken
    cases t with
    | «open» =>
      cases hlexeme
      obtain ⟨done, rest, rfl, hdone, hrest, hlists⟩ := h
      refine ⟨done, rest ++ [l], List.append_assoc .., hdone, ?_, hlists⟩
      exact ⟨rest, l, [], rfl, hrest, htoken, rfl, by rw [List.reverse_nil, SpelledAll]⟩
    | close =>
      obtain ⟨done, rest, rfl, hdone, hrest, hlists⟩ := h
      rw [token] at hlexeme
      split at hlexeme
      · cases hlexeme
      · -- the innermost list ends, and is an element of the one around it
        rename_i inner outer hpending
        rw [hpending] at hrest
        obtain ⟨before, o, items, rfl, houter, hopen, hline, hitems⟩ := hrest
        have closed : (list inner.items.reverse inner.line).Spelled (o :: items ++ [l]) := by
          rw [Spelled]
          exact ⟨o, items, l, rfl, hopen, hline, htoken, hitems⟩
        have around : Holds ⟨outer, r.finished⟩ (done ++ before) :=
          ⟨done, before, rfl, hdone, houter, hlists⟩
        have added := around.add closed hlexeme
        simpa only [List.append_assoc, List.cons_append] using added
    | string text => exact h.add (by rw [Spelled]; exact ⟨l, rfl, htoken⟩) hlexeme
    | integer n => exact h.add (by rw [Spelled]; exact ⟨l, rfl, htoken⟩) hlexeme
    | word text => exact h.add (by rw [Spelled]; exact ⟨l, rfl, htoken⟩) hlexeme
  · cases hlexeme

theorem Holds.foldlM {r r' : Reading} {ls ls' : List Lexeme} (h : r.Holds ls)
    (hrun : ls'.foldlM Reading.lexeme r = .ok r') : r'.Holds (ls ++ ls') := by
  induction ls' generalizing r ls with
  | nil =>
    cases hrun
    rw [List.append_nil]
    exact h
  | cons l ls' ih =>
    rw [List.foldlM_cons] at hrun
    obtain ⟨r₁, hfirst, hrest⟩ := bind_eq_ok.1 hrun
    have all := ih (h.lexeme hfirst) hrest
    rw [List.append_assoc, List.singleton_append] at all
    exact all

end Reading

/-- Lexemes that are read as lists write just these lists. -/
theorem spelledAll_of_ofLexemes {ls : List Lexeme} {lists : List Sexp}
    (h : ofLexemes ls = .ok lists) : SpelledAll lists ls ∧ ∀ s ∈ lists, s.IsList := by
  unfold ofLexemes at h
  obtain ⟨r, hrun, hclose⟩ := bind_eq_ok.1 h
  obtain ⟨done, rest, heq, hdone, hrest, hlists⟩ := Reading.holds_start.foldlM hrun
  unfold Reading.close at hclose
  split at hclose
  · rename_i hpending
    cases hclose
    rw [hpending] at hrest
    -- no list is left open, so all lexemes have gone into finished ones
    have no_rest : rest = [] := hrest
    have all : ls = done := by simpa [no_rest] using heq
    rw [all]
    exact ⟨hdone, fun s hs => hlists s (List.mem_reverse.1 hs)⟩
  · cases hclose

end Sexp

end ForeignBindings.Spec
