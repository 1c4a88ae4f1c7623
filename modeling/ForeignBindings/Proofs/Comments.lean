import ForeignBindings.Proofs.Literals
import ForeignBindings.Proofs.Newtypes

/-!
# Documentation as comments

A documentation text becomes comments in the bindings, one for each of its lines. A probe writes
them for what it finds, and the bindings of a wrapper library have them for functions.

* `Text.HasLines` says which lines a text consists of, and `Text.hasLines_iff` that it is cut into
  these; `Text.HasLines.place` says on which of them a character stands.
* `ProbeOutput.documentationFrom` is the loop over the bytes of a text in which a probe looks for
  one newline after the other. It counts the bytes of a line as an `int` of C, and
  `ProbeOutput.documentationFrom_of_long` says what comes of a line that has too many.
* `commentLine` is the comment that a line becomes, and `documentation_in_comments` says that both
  ways to write a text give these comments.
-/

namespace ForeignBindings

namespace Text

/-! ## Lines -/

/-- The lines that a text consists of. A newline ends a line, and the end of the text ends the last
one if that is not empty. -/
inductive HasLines : List Char → List (List Char) → Prop
  | nil : HasLines [] []
  | last {line : List Char} (hne : line ≠ []) (hline : '\n' ∉ line) : HasLines line [line]
  | cons {line rest : List Char} {lines : List (List Char)} (hline : '\n' ∉ line)
    (hrest : HasLines rest lines) : HasLines (line ++ '\n' :: rest) (line :: lines)

theorem rowsOf_of_not_mem {cs : List Char} (hne : cs ≠ []) (h : '\n' ∉ cs) : rowsOf cs = [cs] := by
  induction cs with
  | nil => exact absurd rfl hne
  | cons c cs ih =>
    rw [List.mem_cons, not_or] at h
    rw [rowsOf_cons_of_ne (Ne.symm h.1)]
    cases cs with
    | nil => rfl
    | cons d cs =>
      rw [ih (List.cons_ne_nil _ _) h.2]
      rfl

theorem hasLines_rowsOf (cs : List Char) : HasLines cs (rowsOf cs) := by
  -- a line is passed over at once, so the induction is on the length
  induction hn : cs.length using Nat.strongRecOn generalizing cs with
  | ind n ih =>
    by_cases newline : '\n' ∈ cs
    · obtain ⟨line, rest, rfl, hline⟩ := List.eq_append_cons_of_mem newline
      have shorter : rest.length < n := by
        rw [← hn, List.length_append, List.length_cons]
        omega
      rw [rowsOf_append_newline hline]
      exact .cons hline (ih rest.length shorter rest rfl)
    · by_cases hne : cs = []
      · subst hne
        exact .nil
      · rw [rowsOf_of_not_mem hne newline]
        exact .last hne newline

/-- A text consists of the lines that it is cut into, and of no others. -/
theorem hasLines_iff {cs : List Char} {lines : List (List Char)} :
    HasLines cs lines ↔ lines = rowsOf cs := by
  constructor
  · intro h
    induction h with
    | nil => rfl
    | last hne hline => exact (rowsOf_of_not_mem hne hline).symm
    | cons hline hrest ih => rw [rowsOf_append_newline hline, ih]
  · rintro rfl
    exact hasLines_rowsOf cs

/-- **Places.** A character that is no newline stands on the line whose number is the number of
newlines before it, between what is around it. -/
theorem HasLines.place {cs : List Char} {lines : List (List Char)} (h : HasLines cs lines)
    {front back : List Char} {c : Char} (split : cs = front ++ c :: back) (hc : c ≠ '\n') :
    ∃ before after, before <:+ front ∧ after <+: back ∧
      lines[front.count '\n']? = some (before ++ c :: after) := by
  induction h generalizing front with
  | nil => simp at split
  | last hne hline =>
    subst split
    have no_newline : front.count '\n' = 0 :=
      List.count_eq_zero.2 fun newline => hline (List.mem_append_left _ newline)
    exact ⟨front, back, List.suffix_rfl, List.prefix_rfl, by rw [no_newline]; rfl⟩
  | @cons line rest lines hline hrest ih =>
    have no_newline : line.count '\n' = 0 := List.count_eq_zero.2 hline
    -- the character stands on a later line, or on this one
    rcases List.append_eq_append_iff.1 split with ⟨more, rfl, hrest'⟩ | ⟨more, rfl, hback⟩
    · rcases more with _ | ⟨d, more⟩
      · -- the line ends in front of the character, which is then a newline
        cases hrest'
        exact absurd rfl hc
      · cases hrest'
        obtain ⟨before, after, hbefore, hafter, place⟩ := ih rfl
        refine ⟨before, after, ?_, hafter, ?_⟩
        -- the newline of this line is counted once, and its place in the lines is one further
        · exact hbefore.trans ((List.suffix_cons _ _).trans (List.suffix_append _ _))
        · rw [List.count_append, no_newline, List.count_cons_self, Nat.zero_add,
            List.getElem?_cons_succ]
          exact place
    · rcases more with _ | ⟨d, after⟩
      · cases hback
        exact absurd rfl hc
      · cases hback
        rw [List.count_append] at no_newline
        have first : front.count '\n' = 0 := by omega
        exact ⟨front, after, List.suffix_rfl, List.prefix_append _ _, by rw [first]; rfl⟩

/-! ## Bytes -/

theorem bytes_eq_flatMap (s : String) : bytes s = s.toList.flatMap String.utf8EncodeChar := by
  rw [bytes, String.toUTF8_eq_toByteArray, ← String.utf8Encode_toList, List.utf8Encode]
  simp

theorem bytes_ne_nil {cs : List Char} (h : cs ≠ []) : bytes (String.ofList cs) ≠ [] := by
  obtain ⟨c, cs, rfl⟩ := List.exists_cons_of_ne_nil h
  rw [bytes_eq_flatMap, String.toList_ofList, List.flatMap_cons]
  exact List.append_ne_nil_of_left_ne_nil String.utf8EncodeChar_ne_nil _

theorem bytes_append (s t : String) : bytes (s ++ t) = bytes s ++ bytes t := by
  simp [bytes_eq_flatMap]

/-- The byte of a newline. -/
abbrev newline : UInt8 := 10

/-- All bytes of a character that takes more than one of them are larger than the newline. -/
theorem newline_mem_utf8EncodeChar_iff {c : Char} :
    newline ∈ String.utf8EncodeChar c ↔ c = '\n' := by
  constructor
  · intro h
    apply Char.toNat_inj.1
    show c.val.toNat = 10
    simp only [String.utf8EncodeChar] at h
    split_ifs at h
    all_goals
      simp only [List.mem_cons, List.not_mem_nil, or_false, ← UInt8.toNat_inj, UInt8.toNat_ofNat,
        UInt8.toNat_ofNat'] at h
      omega
  · rintro rfl
    decide

/-- A text without newlines has no byte of a newline. -/
theorem newline_not_mem_bytes {cs : List Char} (h : '\n' ∉ cs) :
    newline ∉ bytes (String.ofList cs) := by
  rw [bytes_eq_flatMap, String.toList_ofList, List.mem_flatMap]
  rintro ⟨c, hc, newline_inside⟩
  rw [newline_mem_utf8EncodeChar_iff.1 newline_inside] at hc
  exact h hc

theorem bytes_line_append (line rest : List Char) :
    bytes (String.ofList (line ++ '\n' :: rest)) =
      bytes (String.ofList line) ++ newline :: bytes (String.ofList rest) := by
  simp only [bytes_eq_flatMap, String.toList_ofList, List.flatMap_append, List.flatMap_cons]
  rfl

end Text

/-! ## The loop of a probe -/

namespace ProbeOutput

open Text (bytes newline)

/-- A length as an `int` of C, which has 32 bits. -/
def intLength (length : Nat) : Int :=
  (length : Int).bmod (2 ^ 32)

/-- What is printed of a string with a precision: as many bytes as that, or all of them if it is
negative. -/
def printed (precision : Int) (string : List UInt8) : List UInt8 :=
  if precision < 0 then string else string.take precision.toNat

/-- The comment for a line of some length, from the place on where it begins. -/
def commentFrom (indent : List UInt8) (length : Nat) (text : List UInt8) : List UInt8 :=
  indent ++ bytes "///" ++
    (if 0 < length then bytes " " ++ printed (intLength length) text else []) ++ [newline]

/-- The loop over a documentation text, from a place in it on. It is done where the text ends.
Otherwise it looks for the next newline, writes as many bytes as there are before it, and goes on
behind it; without a newline, it writes what is left. -/
def documentationFrom (indent text : List UInt8) : List UInt8 :=
  if text.isEmpty then []
  else
    match _ : text.idxOf? newline with
    | some stop => commentFrom indent stop text ++ documentationFrom indent (text.drop (stop + 1))
    | none => commentFrom indent text.length text
termination_by text.length
decreasing_by
  have inside := (List.idxOf?_eq_some_iff.1 ‹_›).1
  rw [List.length_drop]
  omega

@[simp] theorem documentationFrom_nil (indent : List UInt8) : documentationFrom indent [] = [] := by
  rw [documentationFrom]
  rfl

/-- The loop goes on behind the line that it has written. -/
theorem documentationFrom_append {line : List UInt8} (hline : newline ∉ line)
    (indent rest : List UInt8) :
    documentationFrom indent (line ++ newline :: rest) =
      commentFrom indent line.length (line ++ newline :: rest) ++
        documentationFrom indent rest := by
  have found : (line ++ newline :: rest).idxOf? newline = some line.length := by
    refine List.idxOf?_eq_some_iff.2 ⟨by simp, by simp, fun i hi => ?_⟩
    rw [List.getElem_append_left hi]
    exact fun h => hline (h ▸ List.getElem_mem hi)
  rw [documentationFrom, if_neg (by simp)]
  split
  · rename_i stop found'
    cases found.symm.trans found'
    have behind : (line ++ newline :: rest).drop (line.length + 1) = rest := by
      rw [List.append_cons, List.drop_left' (by simp)]
    rw [behind]
  · rename_i missing
    cases found.symm.trans missing

theorem documentationFrom_of_not_mem {line : List UInt8} (hne : line ≠ []) (hline : newline ∉ line)
    (indent : List UInt8) :
    documentationFrom indent line = commentFrom indent line.length line := by
  have missing : line.idxOf? newline = none := List.idxOf?_eq_none_iff.2 hline
  rw [documentationFrom, if_neg (by simpa using hne)]
  split
  · rename_i stop found
    cases missing.symm.trans found
  · rfl

theorem intLength_of_lt {length : Nat} (h : length < 2 ^ 31) : intLength length = length := by
  unfold intLength
  rw [Int.bmod_def]
  split <;> omega

theorem intLength_neg {length : Nat} (hlong : 2 ^ 31 ≤ length) (hfits : length < 2 ^ 32) :
    intLength length < 0 := by
  unfold intLength
  rw [Int.bmod_def]
  split <;> omega

/-- A line that is short enough is written up to its end. -/
theorem commentFrom_of_short {line : List Char}
    (h : (bytes (String.ofList line)).length < 2 ^ 31) (indent : String) (rest : List UInt8) :
    commentFrom (bytes indent) (bytes (String.ofList line)).length
        (bytes (String.ofList line) ++ rest) =
      bytes (documentationLine indent line) := by
  have no_sign : ¬ ((bytes (String.ofList line)).length : Int) < 0 := by omega
  have written : printed (intLength (bytes (String.ofList line)).length)
      (bytes (String.ofList line) ++ rest) = bytes (String.ofList line) := by
    rw [intLength_of_lt h, printed, if_neg no_sign, Int.toNat_natCast, List.take_left]
  have mark : bytes "\n" = [newline] := by decide
  rw [commentFrom, written, documentationLine]
  simp only [Text.bytes_append, mark]
  cases line with
  | nil => rfl
  | cons c cs =>
    have some_bytes : 0 < (bytes (String.ofList (c :: cs))).length :=
      List.length_pos_iff.2 (Text.bytes_ne_nil (List.cons_ne_nil c cs))
    rw [if_pos some_bytes, if_neg (by simp), Text.bytes_append]

/-- Of a text whose lines are short enough, the loop writes one line after the other. -/
theorem documentationFrom_of_hasLines {text : List Char} {lines : List (List Char)}
    (h : Text.HasLines text lines)
    (hshort : ∀ line ∈ lines, (bytes (String.ofList line)).length < 2 ^ 31) (indent : String) :
    documentationFrom (bytes indent) (bytes (String.ofList text)) =
      bytes (String.join (lines.map (documentationLine indent))) := by
  induction h with
  | nil => exact documentationFrom_nil _
  | @last line hne hline =>
    have short := hshort line (List.mem_cons_self ..)
    have written := commentFrom_of_short short indent []
    rw [List.append_nil] at written
    rw [documentationFrom_of_not_mem (Text.bytes_ne_nil hne) (Text.newline_not_mem_bytes hline),
      written, List.map_singleton, String.join_cons, String.join_nil, String.append_empty]
  | @cons line rest lines hline hrest ih =>
    have short := hshort line (List.mem_cons_self ..)
    have others := ih fun l hl => hshort l (List.mem_cons_of_mem _ hl)
    rw [Text.bytes_line_append, documentationFrom_append (Text.newline_not_mem_bytes hline),
      commentFrom_of_short short, others, List.map_cons, String.join_cons, Text.bytes_append]

/-- A line that is too long for an `int`, but not twice as long, has a negative length: everything
that follows is written along with it. -/
theorem documentationFrom_of_long {line : List UInt8} (hline : newline ∉ line)
    (hlong : 2 ^ 31 ≤ line.length) (hfits : line.length < 2 ^ 32) (indent rest : List UInt8) :
    documentationFrom indent (line ++ newline :: rest) =
      indent ++ bytes "/// " ++ line ++ newline :: rest ++ [newline] ++
        documentationFrom indent rest := by
  have everything : printed (intLength line.length) (line ++ newline :: rest) =
      line ++ newline :: rest :=
    if_pos (intLength_neg hlong hfits)
  have some_bytes : 0 < line.length := by omega
  have marks : bytes "/// " = bytes "///" ++ bytes " " := by decide
  rw [documentationFrom_append hline, commentFrom, if_pos some_bytes, everything, marks]
  simp only [List.append_assoc]

end ProbeOutput

/-! ## Comments -/

/-- The comment that a line of documentation becomes. -/
def commentLine (indent : String) (line : List Char) : String :=
  indent ++ if line = [] then "///" else "/// " ++ String.ofList line

theorem ProbeOutput.documentationLines_eq (indent text : String) :
    documentationLines indent (some text) =
      (Text.rowsOf (upToNul text).toList).map (commentLine indent) := by
  rw [documentationLines]
  apply List.map_congr_left
  intro line _
  rw [commentLine, String.append_assoc]
  cases line with
  | nil => rfl
  | cons c cs =>
    have mark : "/// " ++ String.ofList (c :: cs) = "///" ++ (" " ++ String.ofList (c :: cs)) := by
      rw [← String.append_assoc]
      rfl
    rw [if_neg (List.cons_ne_nil c cs), mark]
    rfl

theorem Bindings.documentationLines_eq (indent text : String) :
    (documentationLines (some text)).map (indent ++ ·) =
      (Text.linesOf text.toList).map (commentLine indent) := by
  rw [documentationLines, Text.lines, List.map_map, List.map_map]
  apply List.map_congr_left
  intro line _
  cases line with
  | nil => rfl
  | cons c cs => simp [commentLine, documentationLine]

/-- In the block of a function, its documentation stands further in, behind two lines and in front
of three. -/
theorem Bindings.documentation_in_block (link outer : String) (f : DeclaredFunction) :
    ∃ above below, above.length = 2 ∧ below.length = 3 ∧
      (blockLines link f).map (outer ++ ·) =
        above ++ (documentationLines f.documentation).map ((outer ++ "    ") ++ ·) ++ below := by
  have further_in : (outer ++ ·) ∘ ("    " ++ ·) = ((outer ++ "    ") ++ ·) :=
    funext fun line => (String.append_assoc ..).symm
  unfold blockLines
  rw [List.map_append, List.map_append, List.map_map, further_in]
  exact ⟨_, _, by simp, by simp, rfl⟩

/-- Behind a line that is too long, a probe writes what follows once more than the bindings of a
library have it. -/
theorem documentationFrom_ne_of_long {line : List Char} (hline : '\n' ∉ line)
    (hreturn : '\r' ∉ line)
    (hlong : 2 ^ 31 ≤ (Text.bytes (String.ofList line)).length)
    (hfits : (Text.bytes (String.ofList line)).length < 2 ^ 32) :
    ProbeOutput.documentationFrom (Text.bytes "")
        (Text.bytes (String.ofList (line ++ '\n' :: ['y']))) ≠
      Text.bytes (Text.ofLines ((Bindings.documentationLines
        (some (String.ofList (line ++ '\n' :: ['y'])))).map ("" ++ ·))) := by
  have rows : Text.linesOf (String.ofList (line ++ '\n' :: ['y'])).toList = [line, ['y']] := by
    rw [String.toList_ofList, Text.linesOf_eq_rowsOf (by simp [hreturn]),
      Text.rowsOf_append_newline hline]
    rfl
  have not_empty : line ≠ [] := by
    rintro rfl
    simp [Text.bytes_eq_flatMap] at hlong
  have last : ProbeOutput.documentationFrom (Text.bytes "") (Text.bytes (String.ofList ['y'])) =
      Text.bytes "/// y\n" := by
    rw [ProbeOutput.documentationFrom_of_not_mem (by decide) (by decide)]
    decide
  have comments : Text.ofLines ([line, ['y']].map (commentLine "")) =
      "/// " ++ String.ofList line ++ "\n" ++ "/// y\n" := by
    simp [commentLine, not_empty]
  rw [Bindings.documentationLines_eq, rows, comments, Text.bytes_line_append,
    ProbeOutput.documentationFrom_of_long (Text.newline_not_mem_bytes hline) hlong hfits, last]
  intro same
  have lengths := congrArg List.length same
  have marks : (Text.bytes "").length = 0 ∧ (Text.bytes "\n").length = 1 ∧
      (Text.bytes (String.ofList ['y'])).length = 1 := by
    decide
  simp only [Text.bytes_append, List.length_append, List.length_cons, List.length_nil, marks]
    at lengths
  omega

end ForeignBindings
