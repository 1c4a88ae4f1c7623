/-!
# Lines of a text

Two readings of "line". Both end a line at a newline and give no extra line for a newline at the
very end of the text.

* `rowsOf` cuts at newlines and keeps everything else.
* `linesOf` also drops one carriage return that stands right before a newline.

They agree on every text without carriage returns (`linesOf_eq_rowsOf`).
-/

namespace ForeignBindings.Text

/-- Puts a character in front of the first line of those that follow. -/
def extendFirst (c : Char) : List (List Char) → List (List Char)
  | [] => [[c]]
  | l :: ls => (c :: l) :: ls

/-- The lines of a text, without their newlines. -/
def rowsOf : List Char → List (List Char)
  | [] => []
  | '\n' :: cs => [] :: rowsOf cs
  | c :: cs => extendFirst c (rowsOf cs)

/-- The lines of a text, without their newlines and without a carriage return before a newline. -/
def linesOf : List Char → List (List Char)
  | [] => []
  | '\n' :: cs => [] :: linesOf cs
  | '\r' :: '\n' :: cs => [] :: linesOf cs
  | c :: cs => extendFirst c (linesOf cs)

/-- `linesOf` on strings. -/
def lines (s : String) : List String :=
  (linesOf s.toList).map String.ofList

/-- Without carriage returns the two readings of a line agree. -/
theorem linesOf_eq_rowsOf {cs : List Char} (h : '\r' ∉ cs) : linesOf cs = rowsOf cs := by
  fun_induction linesOf cs with
  | case1 => rfl
  | case2 cs ih => simp [rowsOf, ih (by simp_all)]
  | case3 => simp at h
  | case4 c cs h₁ _ ih =>
    rw [ih (by simp_all), rowsOf]
    exact h₁

end ForeignBindings.Text
