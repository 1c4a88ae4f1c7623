import ForeignBindings.Source.Line
import ForeignBindings.Text.Lines

/-!
# Rows of a generated program

The text of some lines, cut at its newlines, is those lines again, as long as none of them has a
newline in it. No quotation of a C literal has one, so a line of quoted texts and identifiers is
always one row.
-/

namespace ForeignBindings

namespace Text

/-- A newline ends the first row. -/
theorem rowsOf_append_newline {row : List Char} (h : '\n' ∉ row) (cs : List Char) :
    rowsOf (row ++ '\n' :: cs) = row :: rowsOf cs := by
  induction row with
  | nil => rfl
  | cons c row ih =>
    -- the first character belongs to the row, so it only makes the first row longer
    have hc : c ≠ '\n' := fun hc => h (hc ▸ List.mem_cons_self ..)
    have hrow : '\n' ∉ row := fun hm => h (List.mem_cons_of_mem _ hm)
    have first : rowsOf (c :: (row ++ '\n' :: cs)) =
        extendFirst c (rowsOf (row ++ '\n' :: cs)) := by
      rw [rowsOf]
      exact fun hc' => hc hc'
    rw [List.cons_append, first, ih hrow]
    rfl

/-- A character of a joined text stands in a separator or in one of the parts. -/
theorem not_mem_intercalate {c : Char} {separator : List Char} {parts : List (List Char)}
    (hs : c ∉ separator) (hp : ∀ part ∈ parts, c ∉ part) :
    c ∉ separator.intercalate parts := by
  induction parts with
  | nil => simp
  | cons part rest ih =>
    have hrest : ∀ p ∈ rest, c ∉ p := fun p hm => hp p (List.mem_cons_of_mem _ hm)
    have hpart : c ∉ part := hp part (List.mem_cons_self ..)
    cases rest with
    | nil => simpa using hpart
    | cons next rest =>
      rw [List.intercalate_cons_cons]
      simp [hpart, hs, ih hrest]

/-! ## Quotations -/

theorem newline_not_mem_cByte (b : UInt8) : '\n' ∉ cByte b := by
  -- there are few enough bytes to look at each of them
  have all_bytes : ∀ n < 256, '\n' ∉ cByte (UInt8.ofNat n) := by decide +kernel
  have this_byte := all_bytes b.toNat b.toNat_lt
  rwa [UInt8.ofNat_toNat] at this_byte

@[simp] theorem newline_not_mem_cLiteral (s : String) : '\n' ∉ (cLiteral s).toList := by
  simp [cLiteral, newline_not_mem_cByte]

end Text

/-! ## Lines -/

namespace SourceLine

@[simp] theorem text_plain (text : String) : (SourceLine.plain text).text = text := rfl

@[simp] theorem text_conditional (c : Conditional) : (SourceLine.conditional c).text = c.text := rfl

@[simp] theorem text_call (c : ProbeCall) : (SourceLine.call c).text = c.text := rfl

/-- The line is one row of the program. -/
def IsRow (l : SourceLine) : Prop :=
  '\n' ∉ l.text.toList

@[simp] theorem render_nil : render [] = "" := by
  simp [render]

@[simp] theorem render_cons (l : SourceLine) (ls : List SourceLine) :
    render (l :: ls) = l.text ++ "\n" ++ render ls := by
  simp [render]

/-- The texts of some lines, each as a row. -/
def rows (ls : List SourceLine) : List (List Char) :=
  ls.map fun l => l.text.toList

@[simp] theorem rows_nil : rows [] = [] := rfl

@[simp] theorem rows_cons (l : SourceLine) (ls : List SourceLine) :
    rows (l :: ls) = l.text.toList :: rows ls := rfl

@[simp] theorem rows_append (ls ls' : List SourceLine) : rows (ls ++ ls') = rows ls ++ rows ls' :=
  List.map_append

/-- The rows of the text of some lines are the texts of the lines. -/
theorem rowsOf_render {ls : List SourceLine} (h : ∀ l ∈ ls, l.IsRow) :
    Text.rowsOf (render ls).toList = rows ls := by
  induction ls with
  | nil => simp [Text.rowsOf]
  | cons l ls ih =>
    have hl : l.IsRow := h l (List.mem_cons_self ..)
    have hls : ∀ l' ∈ ls, l'.IsRow := fun l' hm => h l' (List.mem_cons_of_mem _ hm)
    rw [render_cons, String.toList_append, String.toList_append, List.append_assoc]
    rw [show "\n".toList = ['\n'] from rfl, List.singleton_append]
    rw [Text.rowsOf_append_newline hl, ih hls, rows_cons]

end SourceLine

/-! ## Conditionals and calls -/

/-- The name that the conditional tests has no newline in it. -/
def Conditional.HasRowName : Conditional → Prop
  | .ifDefined name | .elifDefined name | .ifdef name => '\n' ∉ name.toList
  | .otherwise | .endif => True

/-- A conditional is one row if its name has no newline. -/
theorem SourceLine.isRow_conditional {c : Conditional} (h : c.HasRowName) :
    (SourceLine.conditional c).IsRow := by
  cases c with
  | ifDefined name =>
    have name_row : '\n' ∉ name.toList := h
    show '\n' ∉ ("#if defined(" ++ name ++ ")").toList
    simp [name_row]
  | elifDefined name =>
    have name_row : '\n' ∉ name.toList := h
    show '\n' ∉ ("#elif defined(" ++ name ++ ")").toList
    simp [name_row]
  | ifdef name =>
    have name_row : '\n' ∉ name.toList := h
    show '\n' ∉ ("#ifdef " ++ name).toList
    simp [name_row]
  | otherwise =>
    show '\n' ∉ "#else".toList
    decide
  | endif =>
    show '\n' ∉ "#endif".toList
    decide

namespace ProbeCall

/-- No argument of the call has a newline in it. -/
def HasRowArguments (c : ProbeCall) : Prop :=
  ∀ a ∈ c.arguments, '\n' ∉ a.toList

theorem newline_not_mem_helper (c : ProbeCall) : '\n' ∉ c.helper.toList := by
  unfold helper
  split <;> decide

/-- A call is one row if its arguments have no newline. -/
theorem isRow_call {c : ProbeCall} (h : c.HasRowArguments) : (SourceLine.call c).IsRow := by
  have arguments_joined : '\n' ∉ (", ".intercalate ("output" :: c.arguments)).toList := by
    rw [String.toList_intercalate]
    apply Text.not_mem_intercalate (by decide)
    intro part hm
    obtain ⟨a, ha, rfl⟩ := List.mem_map.1 hm
    rcases List.mem_cons.1 ha with rfl | ha
    · decide
    · exact h a ha
  have helper_row := newline_not_mem_helper c
  -- what stands around the helper and its arguments is fixed
  show '\n' ∉ c.text.toList
  simp only [text, String.toList_append, List.mem_append, not_or]
  exact ⟨⟨⟨⟨by decide, helper_row⟩, by decide⟩, arguments_joined⟩, by decide⟩

end ProbeCall

end ForeignBindings
