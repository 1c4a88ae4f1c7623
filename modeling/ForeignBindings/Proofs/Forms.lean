import ForeignBindings.Entry.Dialect
import ForeignBindings.Spec.Sexp

/-!
# Comparing what is read

Nested lists, forms, directives and the faults of directives can be compared, so that what a given
text reads as, and what it means, can be computed and checked.
-/

namespace ForeignBindings.Spec

namespace Form

mutual

/-- The forms are the same. -/
def same : Form → Form → Bool
  | symbol s, symbol s' => s == s'
  | keyword name, keyword name' => name == name'
  | string text, string text' => text == text'
  | integer n, integer n' => n == n'
  | list items, list items' => sameAll items items'
  | _, _ => false

/-- The forms are the same, one by one. -/
def sameAll : List Form → List Form → Bool
  | [], [] => true
  | f :: fs, f' :: fs' => same f f' && sameAll fs fs'
  | _, _ => false

end

mutual

theorem same_iff : ∀ f f' : Form, same f f' = true ↔ f = f'
  | symbol _, f' => by cases f' <;> simp [same]
  | keyword _, f' => by cases f' <;> simp [same]
  | string _, f' => by cases f' <;> simp [same]
  | integer _, f' => by cases f' <;> simp [same]
  | list items, f' => by
    cases f' with
    | list items' => simp [same, sameAll_iff items items']
    | _ => simp [same]

theorem sameAll_iff : ∀ fs fs' : List Form, sameAll fs fs' = true ↔ fs = fs'
  | [], fs' => by cases fs' <;> simp [sameAll]
  | f :: fs, fs' => by
    cases fs' with
    | nil => simp [sameAll]
    | cons f' fs' => simp [sameAll, same_iff f f', sameAll_iff fs fs']

end

instance : DecidableEq Form :=
  fun f f' => decidable_of_iff (same f f' = true) (same_iff f f')

end Form

-- A directive only has a tag, its forms and a line.
deriving instance DecidableEq for Directive

namespace Sexp

mutual

/-- The lists are the same, on the same lines. -/
def same : Sexp → Sexp → Bool
  | word text, word text' => text == text'
  | string text, string text' => text == text'
  | integer n, integer n' => n == n'
  | list items line, list items' line' => sameAll items items' && line == line'
  | _, _ => false

/-- The lists are the same, one by one. -/
def sameAll : List Sexp → List Sexp → Bool
  | [], [] => true
  | s :: ss, s' :: ss' => same s s' && sameAll ss ss'
  | _, _ => false

end

mutual

theorem same_iff : ∀ s s' : Sexp, same s s' = true ↔ s = s'
  | word _, s' => by cases s' <;> simp [same]
  | string _, s' => by cases s' <;> simp [same]
  | integer _, s' => by cases s' <;> simp [same]
  | list items line, s' => by
    cases s' with
    | list items' line' => simp [same, sameAll_iff items items']
    | _ => simp [same]

theorem sameAll_iff : ∀ ss ss' : List Sexp, sameAll ss ss' = true ↔ ss = ss'
  | [], ss' => by cases ss' <;> simp [sameAll]
  | s :: ss, ss' => by
    cases ss' with
    | nil => simp [sameAll]
    | cons s' ss' => simp [sameAll, same_iff s s', sameAll_iff ss ss']

end

instance : DecidableEq Sexp :=
  fun s s' => decidable_of_iff (same s s' = true) (same_iff s s')

end Sexp

end ForeignBindings.Spec

namespace ForeignBindings

deriving instance DecidableEq for TypeFault, ShapeFault, ShapeError, InterpretError

end ForeignBindings
