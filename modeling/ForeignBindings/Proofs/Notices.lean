import Mathlib.Data.List.DropRight
import ForeignBindings.Bindings.ProbeOutput
import ForeignBindings.Build.Compiler
import ForeignBindings.Proofs.Brackets
import ForeignBindings.Proofs.Calls
import ForeignBindings.Proofs.Counterparts
import ForeignBindings.Proofs.Starts

/-!
# Missing definitions read back

A probe writes a line for each definition that it misses, between whatever else goes to its standard
error. The names of the definitions are read back from the whole text, where a line may end in a
carriage return and blanks at its end do not count.

* `Text.trimEnd_linesOf` says that carriage returns in front of newlines make no difference to lines
  whose ends are cut.
* `Entry.reports` is what an entry can report, and `Generated.reportable_of_missing` says that a
  generated program reports nothing else.
* `Notice` is a piece of the text: a report, or something unrelated to reports.
  `Missing.names_transcript` says that the names in a text are those of its reports, in order.
-/

namespace ForeignBindings

open Spec Checks

/-! ## Ends of lines -/

namespace Text

variable {cs ds : List Char}

theorem trimEnd_eq_rdropWhile (cs : List Char) : trimEnd cs = cs.rdropWhile isBlank := rfl

/-- A character stays in front of what is left of the others, unless it is blank and nothing is. -/
theorem trimEnd_cons (c : Char) (cs : List Char) :
    trimEnd (c :: cs) = if trimEnd cs = [] ∧ isBlank c = true then [] else c :: trimEnd cs := by
  unfold trimEnd
  rw [List.reverse_cons, List.dropWhile_append]
  by_cases nothing_left : cs.reverse.dropWhile isBlank = []
  · cases hc : isBlank c <;> simp [nothing_left, hc]
  · simp [nothing_left]

/-- What is left of some lines stays the same if a character is put in front of the first. -/
theorem trimEnd_extendFirst (c : Char) {ls ls' : List (List Char)}
    (h : ls.map trimEnd = ls'.map trimEnd) :
    (extendFirst c ls).map trimEnd = (extendFirst c ls').map trimEnd := by
  cases ls with
  | nil =>
    rw [List.map_nil, eq_comm, List.map_eq_nil_iff] at h
    rw [h]
  | cons l ls =>
    cases ls' with
    | nil => cases h
    | cons l' ls' =>
      obtain ⟨first, rest⟩ := List.cons.inj h
      show trimEnd (c :: l) :: ls.map trimEnd = trimEnd (c :: l') :: ls'.map trimEnd
      rw [trimEnd_cons, trimEnd_cons, first, rest]

/-- The two readings of a line differ in a carriage return at its end, which is blank. -/
theorem trimEnd_linesOf (cs : List Char) :
    (linesOf cs).map trimEnd = (rowsOf cs).map trimEnd := by
  fun_induction linesOf cs with
  | case1 => rfl
  | case2 cs ih => rw [rowsOf, List.map_cons, List.map_cons, ih]
  | case3 cs ih =>
    have row : rowsOf ('\r' :: '\n' :: cs) = ['\r'] :: rowsOf cs := rfl
    have return_dropped : trimEnd ['\r'] = trimEnd [] := by decide
    rw [row, List.map_cons, List.map_cons, ih, return_dropped]
  | case4 c cs not_newline not_return ih =>
    rw [rowsOf_cons_of_ne not_newline]
    exact trimEnd_extendFirst c ih

/-- The text is made of whole lines. -/
def IsWhole (cs : List Char) : Prop :=
  cs = [] ∨ cs.getLast? = some '\n'

/-- The rows of a text behind whole lines are its own. -/
theorem rowsOf_append_whole (h : IsWhole cs) (ds : List Char) :
    rowsOf (cs ++ ds) = rowsOf cs ++ rowsOf ds := by
  rcases h with rfl | last
  · rfl
  · obtain ⟨front, rfl⟩ := List.getLast?_eq_some_iff.1 last
    rw [List.append_assoc, List.singleton_append, rowsOf_append_at_newline]

end Text

/-! ## What can be reported -/

/-- The names that an entry can report as missing: that of a constant, and those of the members of
an enumeration, each behind the name of the enumeration. -/
def Entry.reports : Entry → List String
  | .constant c => [c.name]
  | .enumeration e => e.members.map fun m => e.name ++ "::" ++ m.name
  | _ => []

/-- Some directive that is understood can report the name as missing. -/
def Reportable (name : String) : Prop :=
  ∃ mode d p, (Dialect.ofMode mode).interpret d = .ok p ∧ name ∈ p.entry.reports

/-- The characters of a reported name. -/
def isReported (c : Char) : Bool :=
  Identifier.isContinue c || c == ':'

/-- No such character means anything to a reader of lines, or ends a text. -/
theorem not_special_of_isReported {c : Char} (h : isReported c = true) :
    Text.isBlank c = false ∧ c ≠ '\n' ∧ c ≠ Char.ofNat 0 := by
  have small : c.toNat < 128 := by
    rcases Bool.or_eq_true_iff.1 h with letter | colon
    · exact Identifier.lt_of_isContinue letter
    · rw [beq_iff_eq.1 colon]
      decide
  exact Text.forall_ascii (fun d => isReported d = true →
    Text.isBlank d = false ∧ d ≠ '\n' ∧ d ≠ Char.ofNat 0) (by decide +kernel) small h

/-- A reported name is made of declared ones. -/
theorem Reportable.written {name : String} (h : Reportable name) :
    name.toList ≠ [] ∧ ∀ c ∈ name.toList, isReported c = true := by
  have identifier : ∀ n, Identifier.IsDeclarable n →
      n.toList ≠ [] ∧ ∀ c ∈ n.toList, isReported c = true := by
    intro n hn
    obtain ⟨c, cs, letters, -⟩ := (Identifier.isIdentifier_iff n).1 hn.1 |>.1
    refine ⟨by simp [letters], fun c hc => ?_⟩
    exact Bool.or_eq_true_iff.2 (.inl (Identifier.isContinue_of_mem hn.1 c hc))
  obtain ⟨mode, d, p, hp, hname⟩ := h
  have declarable := (Dialect.entry_valid hp).declarable
  cases hentry : p.entry with
  | constant c =>
    rw [hentry] at hname declarable
    rw [List.mem_singleton.1 hname]
    exact identifier c.name (declarable c.name (List.mem_singleton_self _))
  | enumeration e =>
    rw [hentry] at hname declarable
    obtain ⟨m, hm, rfl⟩ := List.mem_map.1 hname
    have enum_name := identifier e.name (declarable e.name (List.mem_cons_self ..))
    have member_name := identifier m.name
      (declarable m.name (List.mem_cons_of_mem _ (List.mem_map_of_mem hm)))
    simp only [String.toList_append, List.mem_append]
    refine ⟨by simp [enum_name.1], ?_⟩
    rintro c ((hc | hc) | hc)
    · exact enum_name.2 c hc
    · have colons : "::".toList.all isReported = true := by decide
      exact List.all_eq_true.1 colons c hc
    · exact member_name.2 c hc
  | _ =>
    rw [hentry] at hname
    cases hname

/-- A helper is given all of a text without NUL characters. -/
theorem ProbeOutput.upToNul_eq {text : String} (h : Char.ofNat 0 ∉ text.toList) :
    upToNul text = text := by
  have all_kept : text.toList.takeWhile (· != Char.ofNat 0) = text.toList :=
    List.takeWhile_eq_self_iff.2 fun c hc => bne_iff_ne.2 fun nul => h (nul ▸ hc)
  rw [upToNul, all_kept, String.ofList_toList]

/-! ## Reports of a program -/

/-- An entry reports its own names only. -/
theorem Entry.Makes.reports {e : Entry} {current : Option String} {name : String}
    (h : e.Makes current (.missing name)) : name ∈ e.reports := by
  cases h with
  | missing required => exact List.mem_singleton_self _
  | missingMember hm required => exact List.mem_map_of_mem hm

/-- **Reports of a program.** What a generated program reports is the name of a constant, or of a
member behind that of its enumeration. -/
theorem Generated.reportable_of_missing {mode : Mode} {ds : List Directive} {g : Generated}
    {w w' : World} (h : (ofDirectives mode ds).outcome w = (.ok g, w')) {name : String}
    (hname : SourceLine.call (.missing name) ∈ g.lines) : Reportable name := by
  rcases makes_of_mem_lines h hname with finish | ⟨d, -, p, current, hp, hmakes⟩
  · cases finish
  · exact ⟨mode, d, p, hp, hmakes.reports⟩

/-! ## Pieces of a text -/

/-- A piece of what a probe and the programs under it write to standard error. -/
inductive Notice where
  /-- The report of a missing definition. -/
  | missing (name : String)
  | other (text : String)
deriving Repr, DecidableEq

namespace Notice

/-- What is written. -/
def text : Notice → String
  | missing name => ProbeOutput.missingLine name
  | other text => text

/-- The name that is reported. -/
def name? : Notice → Option String
  | missing name => some name
  | other _ => none

/-- A report of a name that can be reported, or whole lines that do not start like a report. -/
def WellFormed : Notice → Prop
  | missing name => Reportable name
  | other text => Text.IsWhole text.toList ∧
      ∀ row ∈ Text.rowsOf text.toList, ¬ Missing.notice.toList <+: row

end Notice

namespace Missing

/-- What is written in turn. -/
def transcript (notices : List Notice) : String :=
  String.join (notices.map Notice.text)

theorem dropFront?_eq_some {front cs rest : List Char} :
    dropFront? front cs = some rest ↔ cs = front ++ rest := by
  fun_induction dropFront? front cs with
  | case1 cs => simp
  | case2 => simp
  | case3 p ps c cs same ih => simp [ih, beq_iff_eq.1 same]
  | case4 p ps c cs other =>
    have other : c ≠ p := fun h => other (beq_iff_eq.2 h.symm)
    simp [other]

/-- The names are those of the rows of a text. -/
theorem names_eq_rows (text : String) :
    names text = ((Text.rowsOf text.toList).filterMap nameOf?).map String.ofList := by
  have by_ends : ∀ ls : List (List Char),
      ls.filterMap nameOf? = (ls.map Text.trimEnd).filterMap (dropFront? notice.toList) :=
    fun ls => (List.filterMap_map ..).symm
  rw [names, by_ends, Text.trimEnd_linesOf, ← by_ends]

/-- A row that starts like no report reports nothing. -/
theorem nameOf?_of_not_prefix {row : List Char} (h : ¬ notice.toList <+: row) :
    nameOf? row = none := by
  cases hname : nameOf? row with
  | none => rfl
  | some name =>
    have front : notice.toList <+: Text.trimEnd row := ⟨name, (dropFront?_eq_some.1 hname).symm⟩
    have cut : Text.trimEnd row <+: row := List.rdropWhile_prefix Text.isBlank row
    exact absurd (front.trans cut) h

/-- A report is one row, from which its name is read. -/
theorem report_read_back {name : String} (h : Reportable name) :
    ∃ row, (ProbeOutput.missingLine name).toList = row ++ ['\n'] ∧ '\n' ∉ row ∧
      nameOf? row = some name.toList := by
  obtain ⟨not_empty, characters⟩ := h.written
  have not_special := fun c hc => not_special_of_isReported (characters c hc)
  have no_nul : ProbeOutput.upToNul name = name :=
    ProbeOutput.upToNul_eq fun nul => (not_special _ nul).2.2 rfl
  have same_notice : ProbeOutput.missingNotice = notice := rfl
  refine ⟨notice.toList ++ name.toList, ?_, ?_, ?_⟩
  · rw [ProbeOutput.missingLine, no_nul, same_notice, String.toList_append, String.toList_append]
    rfl
  · rw [List.mem_append, not_or]
    exact ⟨by decide, fun newline => (not_special _ newline).2.1 rfl⟩
  · have nothing_cut : Text.trimEnd (notice.toList ++ name.toList) =
        notice.toList ++ name.toList := by
      rw [Text.trimEnd_eq_rdropWhile, List.rdropWhile_eq_self_iff]
      intro hne
      -- the last character is one of the name
      rw [List.getLast_append_of_ne_nil hne not_empty]
      simp [not_special _ (List.getLast_mem not_empty)]
    rw [nameOf?, nothing_cut, dropFront?_eq_some]

/-- One piece in front of others. -/
theorem names_cons {n : Notice} (h : n.WellFormed) (ns : List Notice) :
    names (transcript (n :: ns)) = n.name?.toList ++ names (transcript ns) := by
  have in_front : (transcript (n :: ns)).toList = n.text.toList ++ (transcript ns).toList := by
    simp [transcript]
  rw [names_eq_rows, names_eq_rows, in_front]
  cases n with
  | missing name =>
    obtain ⟨row, written, one_row, read⟩ := report_read_back h
    show ((Text.rowsOf ((ProbeOutput.missingLine name).toList ++ _)).filterMap nameOf?).map _ = _
    rw [written, List.append_assoc, List.singleton_append, Text.rowsOf_append_newline one_row,
      List.filterMap_cons_some read, List.map_cons, String.ofList_toList]
    rfl
  | other text =>
    obtain ⟨whole, unrelated⟩ := h
    have nothing_read : (Text.rowsOf text.toList).filterMap nameOf? = [] :=
      List.filterMap_eq_nil_iff.2 fun row hrow => nameOf?_of_not_prefix (unrelated row hrow)
    show ((Text.rowsOf (text.toList ++ _)).filterMap nameOf?).map _ = _
    rw [Text.rowsOf_append_whole whole, List.filterMap_append, nothing_read]
    rfl

/-- **Reading reports back.** The names in a text of reports and whole lines that start like none
are those that have been reported: all of them, in the order of the reports. They are what comes of
a probe that ends well and has written such a text. -/
theorem names_transcript (notices : List Notice) (h : ∀ n ∈ notices, n.WellFormed) :
    names (transcript notices) = notices.filterMap Notice.name? ∧
      ∀ executable bindings w response, (World.start w [executable, bindings]).1 = .ok response →
        response.exit = .code 0 → response.stderr = transcript notices →
          ((Command.probe executable bindings).outcome w).1 =
            .ok (notices.filterMap Notice.name?) := by
  have read : names (transcript notices) = notices.filterMap Notice.name? := by
    induction notices with
    | nil => rfl
    | cons n ns ih =>
      have rest := ih fun m hm => h m (List.mem_cons_of_mem _ hm)
      rw [names_cons (h n (List.mem_cons_self ..)), rest]
      cases hname : n.name? <;> simp [hname]
  refine ⟨read, ?_⟩
  intro executable bindings w response started well written
  have ran := Command.outcome_run [executable, bindings] w
  rw [started] at ran
  dsimp only at ran
  rw [if_pos well] at ran
  rw [Command.probe, Action.outcome_bind_of_ok ran, written, read]
  rfl

/-- Reports of a constant and of a member, a warning, and a line that quotes a report. -/
def familyNotices : List Notice :=
  [.other "warning: no output\r\n\n", .missing "family::LOCAL", .missing "EAGAIN",
    .other " cgrovel: missing-definition: INET\n", .missing "family::LOCAL"]

/-- A host whose programs write them. -/
def familyHost : World :=
  { World.bare with
    programs := fun _ => some ⟨fun _ _ => ⟨.code 0, "", transcript familyNotices, []⟩⟩ }

/-- Neither the carriage return nor the quotation is taken for a part of a name or for a report. -/
theorem names_of_families :
    (∀ n ∈ familyNotices, n.WellFormed) ∧
      names (transcript familyNotices) = ["family::LOCAL", "EAGAIN", "family::LOCAL"] ∧
      ((Command.probe "probe" "out.rs").outcome familyHost).1 =
        .ok ["family::LOCAL", "EAGAIN", "family::LOCAL"] := by
  have member : Reportable "family::LOCAL" :=
    ⟨.probe, Directive.families, _, rfl, by decide⟩
  have constant : Reportable "EAGAIN" :=
    ⟨.probe, ⟨"constant", [.list [.symbol ⟨none, "eagain"⟩, .string "EAGAIN"]], 1⟩, _, rfl,
      by decide⟩
  have unrelated : ∀ text : String, Text.IsWhole text.toList ∧
      (∀ row ∈ Text.rowsOf text.toList, ¬ notice.toList <+: row) →
        (Notice.other text).WellFormed := fun _ h => h
  have well_formed : ∀ n ∈ familyNotices, n.WellFormed := by
    intro n hn
    simp only [familyNotices, List.mem_cons, List.not_mem_nil, or_false] at hn
    rcases hn with rfl | rfl | rfl | rfl | rfl
    · exact unrelated _ ⟨.inr (by decide), by decide⟩
    · exact member
    · exact constant
    · exact unrelated _ ⟨.inr (by decide), by decide⟩
    · exact member
  obtain ⟨read, probed⟩ := names_transcript familyNotices well_formed
  exact ⟨well_formed, read, probed "probe" "out.rs" familyHost _ rfl rfl rfl⟩

end Missing

end ForeignBindings
