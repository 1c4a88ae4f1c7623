import Mathlib.Data.List.Nodup
import ForeignBindings.Proofs.Newtypes
import ForeignBindings.Proofs.SlotCounts
import ForeignBindings.Proofs.Spellings

/-!
# Associated constants

The bindings of a record, and of an enumeration, declare constants in the block of their type. The
constants of a record are named after its slots, but with endings, and two of them have a fixed
name; only the names of the slots are compared with each other before they are taken.

* `Record.associated` and `Enumeration.associated` are the names of these constants.
* `ProbeOutput.associatedConstants` reads them off a text, from the row that opens the block to the
  one that closes it.
* `Dialect.associated_distinct` says that they are pairwise distinct, and that the printed text
  declares these constants and no others.
-/

namespace ForeignBindings

open Spec Checks ProbeOutput

/-! ## Names of constants -/

/-- The constants that a record declares for a slot. Where all slots start at the same place, it is
not said where. -/
def Slot.associated (kind : Layout) (s : Slot) : List String :=
  match kind with
  | .struct => [s.name ++ "_OFFSET", s.name ++ "_COUNT"]
  | .union => [s.name ++ "_COUNT"]

/-- The constants of a record. -/
def Record.associated (r : Record) : List String :=
  "SIZE" :: "ALIGN" :: r.slots.flatMap (Slot.associated r.kind)

/-- The constants of an enumeration: its members that are there. -/
def Enumeration.associated (defined : String → Bool) (e : Enumeration) : List String :=
  (e.members.filter fun m => (e.shown? defined m).isSome).map Member.name

/-- The last two characters of a name, which tell apart the constants of a slot. -/
def ending (name : String) : List Char :=
  name.toList.reverse.take 2

theorem ending_append {last : String} (h : 2 ≤ last.toList.length) (name : String) :
    ending (name ++ last) = ending last := by
  rw [ending, String.toList_append, List.reverse_append,
    List.take_append_of_le_length (by rwa [List.length_reverse]), ending]

namespace Slot

variable {kind : Layout} {s s' : Slot}

/-- A constant of a slot is its name with one of two endings. -/
theorem mem_associated {name : String} (h : name ∈ s.associated kind) :
    name = s.name ++ "_OFFSET" ∨ name = s.name ++ "_COUNT" := by
  cases kind with
  | struct => exact List.mem_pair.1 h
  | union => exact .inr (List.mem_singleton.1 h)

theorem ending_of_mem_associated {name : String} (h : name ∈ s.associated kind) :
    ending name = ['T', 'E'] ∨ ending name = ['T', 'N'] := by
  rcases mem_associated h with rfl | rfl
  · exact .inl (ending_append (by decide) s.name)
  · exact .inr (ending_append (by decide) s.name)

theorem offset_ne_count (s s' : Slot) : s.name ++ "_OFFSET" ≠ s'.name ++ "_COUNT" := by
  intro same
  have endings := congrArg ending same
  rw [ending_append (by decide), ending_append (by decide)] at endings
  exact absurd endings (by decide)

theorem nodup_associated (kind : Layout) (s : Slot) : (s.associated kind).Nodup := by
  cases kind with
  | struct => simp [associated, offset_ne_count s s]
  | union => exact List.nodup_singleton _

/-- Slots with different names have no constant in common, be one named as a constant of the
other. -/
theorem disjoint_associated (h : s.name ≠ s'.name) :
    List.Disjoint (s.associated kind) (s'.associated kind) := by
  rw [List.disjoint_left]
  intro name hname hname'
  -- one ending belongs to one name only, and different endings never meet
  rcases mem_associated hname with rfl | rfl
  · rcases mem_associated hname' with same | same
    · exact h ((String.append_left_inj _).1 same)
    · exact offset_ne_count s s' same
  · rcases mem_associated hname' with same | same
    · exact offset_ne_count s' s same.symm
    · exact h ((String.append_left_inj _).1 same)

end Slot

theorem Record.nodup_associated {r : Record} (h : r.Valid) : r.associated.Nodup := by
  have slots : (r.slots.flatMap (Slot.associated r.kind)).Nodup := by
    rw [List.nodup_flatMap]
    refine ⟨fun s _ => s.nodup_associated r.kind, ?_⟩
    exact (List.pairwise_map.1 h.slots_distinct).imp Slot.disjoint_associated
  -- the fixed names have other endings
  have not_slot : ∀ name, ending name ≠ ['T', 'E'] → ending name ≠ ['T', 'N'] →
      name ∉ r.slots.flatMap (Slot.associated r.kind) := by
    intro name not_offset not_count hname
    obtain ⟨s, -, hs⟩ := List.mem_flatMap.1 hname
    rcases Slot.ending_of_mem_associated hs with same | same
    · exact not_offset same
    · exact not_count same
  have size_ne_align : "SIZE" ≠ "ALIGN" := by decide
  have size_new := not_slot "SIZE" (by decide) (by decide)
  have align_new := not_slot "ALIGN" (by decide) (by decide)
  rw [associated, List.nodup_cons, List.nodup_cons, List.mem_cons, not_or]
  exact ⟨⟨size_ne_align, size_new⟩, align_new, slots⟩

theorem Enumeration.associated_eq_flatMap (defined : String → Bool) (e : Enumeration) :
    e.associated defined =
      e.members.flatMap fun m => if (e.shown? defined m).isSome then [m.name] else [] := by
  unfold associated
  induction e.members with
  | nil => rfl
  | cons m ms ih => cases shown : (e.shown? defined m).isSome <;> simp [shown, ih]

theorem Enumeration.nodup_associated {macros : Bool} {e : Enumeration} (h : e.Valid macros)
    (defined : String → Bool) : (e.associated defined).Nodup :=
  h.members_distinct.sublist (List.filter_sublist.map Member.name)

/-! ## Constants in a text -/

theorem Identifier.colon_not_mem {name : String} (h : isIdentifier name = true) :
    ':' ∉ name.toList := fun colon => absurd (isContinue_of_mem h _ colon) (by decide)

namespace ProbeOutput

/-- The row that opens the block of a type. -/
def implRow (name : String) : String :=
  "impl " ++ name ++ " \x7b"

/-- A row that declares a constant in the block of a type. -/
def associatedRow (name rest : String) : String :=
  "    pub const " ++ name ++ ": " ++ rest

/-- The rows of the block of a type, without those that open and close it. -/
def implRows (name : String) (rows : List String) : List String :=
  ((rows.dropWhile (· != implRow name)).drop 1).takeWhile (· != "\x7d")

/-- The constant that a row in the block of a type declares. -/
def constantOf? (row : String) : Option String :=
  if "    pub const ".toList.isPrefixOf row.toList then
    some (String.ofList ((row.toList.drop 14).takeWhile (· != ':')))
  else none

/-- The constants that a text declares in the block of a type. -/
def associatedConstants (name text : String) : List String :=
  (implRows name ((Text.rowsOf text.toList).map String.ofList)).filterMap constantOf?

/-- A block goes from the first row that opens it to the next row that closes one. -/
theorem implRows_eq {name : String} {before body after : List String}
    (hbefore : implRow name ∉ before) (hbody : "\x7d" ∉ body) :
    implRows name (before ++ implRow name :: (body ++ "\x7d" :: after)) = body := by
  have others : ∀ row ∈ before, (row != implRow name) = true := by
    intro row hrow
    rw [bne_iff_ne]
    rintro rfl
    exact hbefore hrow
  have inside : ∀ row ∈ body, (row != "\x7d") = true := by
    intro row hrow
    rw [bne_iff_ne]
    rintro rfl
    exact hbody hrow
  rw [implRows, List.dropWhile_append_of_pos others, List.dropWhile_cons_of_neg (by simp),
    List.drop_one, List.tail_cons, List.takeWhile_append_of_pos inside,
    List.takeWhile_cons_of_neg (by decide), List.append_nil]

theorem constantOf?_associatedRow {name : String} (h : ':' ∉ name.toList) (rest : String) :
    constantOf? (associatedRow name rest) = some name := by
  have letters : (associatedRow name rest).toList =
      "    pub const ".toList ++ (name.toList ++ ':' :: ' ' :: rest.toList) := by
    delta associatedRow
    simp only [String.toList_append, List.append_assoc]
    rfl
  have no_colon : ∀ c ∈ name.toList, (c != ':') = true := by
    intro c hc
    rw [bne_iff_ne]
    rintro rfl
    exact h hc
  have start : "    pub const ".toList.isPrefixOf (associatedRow name rest).toList = true := by
    rw [letters, List.isPrefixOf_iff_prefix]
    exact List.prefix_append ..
  have named : ((associatedRow name rest).toList.drop 14).takeWhile (· != ':') = name.toList := by
    rw [letters]
    show (name.toList ++ ':' :: ' ' :: rest.toList).takeWhile (· != ':') = name.toList
    rw [List.takeWhile_append_of_pos no_colon, List.takeWhile_cons_of_neg (by decide),
      List.append_nil]
  rw [constantOf?, if_pos start, named, String.ofList_toList]

/-- A row that starts differently declares no constant. -/
theorem constantOf?_of_front {row : String} (h : front row ≠ front "    pub const ") :
    constantOf? row = none := by
  rw [constantOf?, if_neg]
  rw [List.isPrefixOf_iff_prefix]
  rintro ⟨rest, letters⟩
  apply h
  rw [front, ← letters]
  rfl

theorem constantOf?_valueLine {name : String} (h : ':' ∉ name.toList) (literal : String) :
    constantOf? (valueLine name literal) = some name := by
  have same : valueLine name literal =
      associatedRow name ("Self = Self(" ++ literal ++ ");") := by
    delta valueLine associatedRow
    simp only [String.append_assoc]
    rfl
  rw [same, constantOf?_associatedRow h]

theorem constantOf?_of_mem_documentationLines {line indent : String} {doc : Option String}
    (hindent : indent = "" ∨ indent = "    ") (h : line ∈ documentationLines indent doc) :
    constantOf? line = none :=
  constantOf?_of_front (isOther_of_mem_documentationLines hindent h).2

/-- Lines with a block among them declare what the lines of the block declare. -/
theorem associatedConstants_ofLines {name : String} {before body after : List String}
    (hrows : ∀ line ∈ before ++ implRow name :: (body ++ "\x7d" :: after), Text.IsRow line)
    (hbefore : implRow name ∉ before) (hbody : "\x7d" ∉ body) :
    associatedConstants name
        (Text.ofLines (before ++ implRow name :: (body ++ "\x7d" :: after))) =
      body.filterMap constantOf? := by
  have lines (rows : List String) : (rows.map String.toList).map String.ofList = rows := by
    rw [List.map_map, show String.ofList ∘ String.toList = id from funext fun _ =>
      String.ofList_toList, List.map_id]
  rw [associatedConstants, Text.ofLines, Text.rowsOf_join hrows, lines, implRows_eq hbefore hbody]

theorem isRow_associatedRow {name rest : String} (hname : Text.IsRow name)
    (hrest : Text.IsRow rest) : Text.IsRow (associatedRow name rest) := by
  delta associatedRow
  simp only [Text.isRow_append]
  exact ⟨⟨⟨by decide, hname⟩, by decide⟩, hrest⟩

theorem front_associatedRow (name rest : String) :
    front (associatedRow name rest) = front "    pub const " := by
  delta associatedRow
  rw [String.append_assoc, String.append_assoc, front_append (by decide)]

theorem isRow_implRow {name : String} (h : Text.IsRow name) : Text.IsRow (implRow name) := by
  delta implRow
  simp only [Text.isRow_append]
  exact ⟨⟨by decide, h⟩, by decide⟩

theorem front_implRow (name : String) : front (implRow name) = front "impl " := by
  delta implRow
  rw [String.append_assoc, front_append (by decide)]

/-- A row that starts differently opens no block. -/
theorem ne_implRow_of_front {row : String} (h : front row ≠ front "impl ") (name : String) :
    row ≠ implRow name := by
  rintro rfl
  exact h (front_implRow name)

theorem slash_mem_front_of_mem_documentationLines {line indent : String} {doc : Option String}
    (hindent : indent = "" ∨ indent = "    ") (h : line ∈ documentationLines indent doc) :
    '/' ∈ front line := by
  obtain ⟨rest, -, rfl⟩ := exists_of_mem_documentationLines h
  rcases hindent with rfl | rfl <;> simp [front]

/-- Documentation opens no block. -/
theorem implRow_not_mem_documentationLines {indent : String}
    (hindent : indent = "" ∨ indent = "    ") (name : String) (doc : Option String) :
    implRow name ∉ documentationLines indent doc := by
  intro h
  have slash := slash_mem_front_of_mem_documentationLines hindent h
  rw [front_implRow] at slash
  exact absurd slash (by decide)

/-- Documentation closes no block. -/
theorem close_not_mem_documentationLines {indent : String}
    (hindent : indent = "" ∨ indent = "    ") (doc : Option String) :
    "\x7d" ∉ documentationLines indent doc := fun h =>
  absurd (slash_mem_front_of_mem_documentationLines hindent h) (by decide)

/-- A row that starts differently closes no block. -/
theorem close_ne_of_front {row : String} (h : front row ≠ front "\x7d") : "\x7d" ≠ row := by
  rintro rfl
  exact h rfl

theorem close_ne_associatedRow (name rest : String) : "\x7d" ≠ associatedRow name rest := by
  apply close_ne_of_front
  rw [front_associatedRow]
  decide

theorem close_ne_valueLine (name literal : String) : "\x7d" ≠ valueLine name literal := by
  apply close_ne_of_front
  rw [front_valueLine]
  decide

end ProbeOutput

/-! ## Rows of a record -/

namespace Record

variable (t : Target) (r : Record) (current : Option String)

/-- What a record prints in front of its block. -/
def headText : List String :=
  documentationLines "" r.documentation ++
    ["#[repr(C, align(" ++ toString (t.align r.native) ++ "))]", "#[derive(Clone, Copy)]",
      "pub struct " ++ r.name ++ " \x7b", "    _data: [u8; " ++ toString (t.size r.native) ++ "],",
      "\x7d", ""]

/-- What a record prints for a slot. -/
def slotText (s : Slot) : List String :=
  ("    /// Element type `" ++ upToNul (s.type.path current) ++ "`.") ::
    ((t.offset? r.kind r.native s.native).toList.map fun n =>
      associatedRow (s.name ++ "_OFFSET") ("usize = " ++ toString n ++ ";")) ++
    [associatedRow (s.name ++ "_COUNT")
      ("usize = " ++ toString (t.elements r.kind r.native s.native s.count) ++ ";")]

/-- What a record prints in its block. -/
def blockText : List String :=
  [associatedRow "SIZE" ("usize = " ++ toString (t.size r.native) ++ ";"),
    associatedRow "ALIGN" ("usize = " ++ toString (t.align r.native) ++ ";")] ++
    r.slots.flatMap (r.slotText t current)

theorem recordBegin_eq {name : String} (hname : upToNul name = name) (size align : Nat)
    (doc : Option String) :
    recordBegin name size align doc = Text.ofLines (documentationLines "" doc ++
      ["#[repr(C, align(" ++ toString align ++ "))]", "#[derive(Clone, Copy)]",
        "pub struct " ++ name ++ " \x7b", "    _data: [u8; " ++ toString size ++ "],", "\x7d", "",
        implRow name, associatedRow "SIZE" ("usize = " ++ toString size ++ ";"),
        associatedRow "ALIGN" ("usize = " ++ toString align ++ ";")]) := by
  unfold recordBegin
  rw [hname, documentation_eq (by decide)]
  delta implRow associatedRow
  simp only [Text.ofLines_append, Text.ofLines_cons, Text.ofLines_nil, String.append_assoc]
  rfl

theorem printed_slotCall_eq {s : Slot} (h : Identifier.isIdentifier s.name = true) :
    t.printed (r.slotCall current s) = Text.ofLines (r.slotText t current s) := by
  show slotInfo _ _ _ _ = _
  rw [slotInfo_eq h, slotText]
  delta slotHead countLine associatedRow
  cases t.offset? r.kind r.native s.native with
  | none =>
    simp only [Option.toList_none, List.map_nil, List.cons_append, List.nil_append,
      Text.ofLines_cons, Text.ofLines_nil, String.append_assoc]
    rfl
  | some n =>
    simp only [Option.toList_some, List.map_cons, List.map_nil, List.cons_append, List.nil_append,
      Text.ofLines_cons, Text.ofLines_nil, String.append_assoc]
    rfl

/-- **Lines of a record.** What a record prints, line by line. -/
theorem prints_eq {r : Record} (h : r.Valid) :
    t.prints current (.record r) = Text.ofLines
      (r.headText t ++ implRow r.name :: (r.blockText t current ++ ["\x7d", ""])) := by
  have slots : String.join ((r.slots.map (r.slotCall current)).map t.printed) =
      Text.ofLines (r.slots.flatMap (r.slotText t current)) := by
    have calls : r.slots.map (r.slotCall current) =
        r.slots.flatMap fun s => [r.slotCall current s] := List.map_eq_flatMap ..
    rw [calls]
    apply Enumeration.join_flatMap
    intro s hs
    rw [List.map_singleton, String.join_cons, String.join_nil, String.append_empty]
    exact r.printed_slotCall_eq t current (h.slots_valid s hs).declarable.1
  have start := recordBegin_eq (Identifier.upToNul_eq h.declarable.1) (t.size r.native)
    (t.align r.native) r.documentation
  have finish : blockEnd = Text.ofLines ["\x7d", ""] := by decide
  have first : t.printed (.recordBegin r.kind r.name r.native r.documentation) =
      recordBegin r.name (t.size r.native) (t.align r.native) r.documentation := rfl
  have last : t.printed .recordEnd = blockEnd := rfl
  have calls : (Entry.record r).calls t.defined current =
      .recordBegin r.kind r.name r.native r.documentation ::
        r.slots.map (r.slotCall current) ++ [.recordEnd] := rfl
  rw [Target.prints, calls, List.map_append, List.map_cons, List.map_singleton, String.join_append,
    String.join_cons, String.join_cons, String.join_nil, slots, first, last, start, finish]
  rw [headText, blockText]
  simp only [Text.ofLines_append, Text.ofLines_cons, Text.ofLines_nil, String.append_assoc,
    String.append_empty]

theorem implRow_not_mem_headText (name : String) : implRow name ∉ r.headText t := by
  rw [headText, List.mem_append, not_or]
  refine ⟨implRow_not_mem_documentationLines (.inl rfl) name r.documentation, ?_⟩
  simp only [List.mem_cons, List.not_mem_nil, or_false, not_or]
  refine ⟨?_, ?_, ?_, ?_, ?_, ?_⟩
  all_goals refine Ne.symm (ne_implRow_of_front ?_ name)
  · rw [String.append_assoc, front_append (by decide)]
    decide
  · decide
  · rw [String.append_assoc, front_append (by decide)]
    decide
  · rw [String.append_assoc, front_append (by decide)]
    decide
  · decide
  · decide

theorem mem_slotText_cases {s : Slot} {line : String} (h : line ∈ r.slotText t current s) :
    line = "    /// Element type `" ++ upToNul (s.type.path current) ++ "`." ∨
      ∃ name rest, line = associatedRow name rest := by
  rw [slotText, List.cons_append, List.mem_cons, List.mem_append, List.mem_map,
    List.mem_singleton] at h
  rcases h with type | ⟨n, -, rfl⟩ | rfl
  · exact .inl type
  · exact .inr ⟨_, _, rfl⟩
  · exact .inr ⟨_, _, rfl⟩

theorem close_not_mem_blockText : "\x7d" ∉ r.blockText t current := by
  rw [blockText, List.mem_append, List.mem_pair, List.mem_flatMap, not_or, not_or]
  refine ⟨⟨close_ne_associatedRow _ _, close_ne_associatedRow _ _⟩, ?_⟩
  rintro ⟨s, -, hs⟩
  rcases r.mem_slotText_cases t current hs with same | ⟨name, rest, same⟩
  · refine close_ne_of_front ?_ same
    rw [String.append_assoc, front_append (by decide)]
    decide
  · exact close_ne_associatedRow _ _ same

/-- A slot declares its constants. -/
theorem filterMap_slotText {s : Slot} (h : Identifier.isIdentifier s.name = true) :
    (r.slotText t current s).filterMap constantOf? = s.associated r.kind := by
  have documentation : constantOf? ("    /// Element type `" ++ upToNul (s.type.path current) ++
      "`.") = none := by
    apply constantOf?_of_front
    rw [String.append_assoc, front_append (by decide)]
    decide
  have no_colon := Identifier.colon_not_mem h
  have offset : ∀ rest, constantOf? (associatedRow (s.name ++ "_OFFSET") rest) =
      some (s.name ++ "_OFFSET") := constantOf?_associatedRow (by simp [no_colon])
  have count : ∀ rest, constantOf? (associatedRow (s.name ++ "_COUNT") rest) =
      some (s.name ++ "_COUNT") := constantOf?_associatedRow (by simp [no_colon])
  unfold slotText Slot.associated
  cases r.kind with
  | struct => simp [Target.offset?, documentation, offset, count]
  | union => simp [Target.offset?, documentation, count]

/-- The block of a record declares its constants. -/
theorem filterMap_blockText {r : Record} (h : r.Valid) :
    (r.blockText t current).filterMap constantOf? = r.associated := by
  have size : ∀ rest, constantOf? (associatedRow "SIZE" rest) = some "SIZE" :=
    constantOf?_associatedRow (by decide)
  have align : ∀ rest, constantOf? (associatedRow "ALIGN" rest) = some "ALIGN" :=
    constantOf?_associatedRow (by decide)
  have slots : (r.slots.flatMap (r.slotText t current)).filterMap constantOf? =
      r.slots.flatMap (Slot.associated r.kind) := by
    rw [List.filterMap_flatMap]
    exact List.flatMap_congr fun s hs =>
      r.filterMap_slotText t current (h.slots_valid s hs).declarable.1
  rw [blockText, List.filterMap_append, slots, associated]
  simp [size, align]

theorem isRow_of_mem_headText {r : Record} (h : r.Valid) :
    ∀ line ∈ r.headText t, Text.IsRow line := by
  have name := Identifier.newline_not_mem h.declarable.1
  intro line hline
  rw [headText, List.mem_append] at hline
  rcases hline with documentation | fixed
  · exact isRow_of_mem_documentationLines (by decide) documentation
  · simp only [List.mem_cons, List.not_mem_nil, or_false] at fixed
    rcases fixed with rfl | rfl | rfl | rfl | rfl | rfl
    · simp only [Text.isRow_append]
      exact ⟨⟨by decide, newline_not_mem_digits _⟩, by decide⟩
    · decide
    · simp only [Text.isRow_append]
      exact ⟨⟨by decide, name⟩, by decide⟩
    · simp only [Text.isRow_append]
      exact ⟨⟨by decide, newline_not_mem_digits _⟩, by decide⟩
    · decide
    · decide

theorem isRow_usize {number : String} (h : Text.IsRow number) :
    Text.IsRow ("usize = " ++ number ++ ";") :=
  Text.isRow_append.2 ⟨Text.isRow_append.2 ⟨by decide, h⟩, by decide⟩

theorem isRow_of_mem_slotText {s : Slot} (hname : Text.IsRow s.name)
    (htype : Text.IsRow (upToNul (s.type.path current))) :
    ∀ line ∈ r.slotText t current s, Text.IsRow line := by
  intro line hline
  rw [slotText, List.cons_append, List.mem_cons, List.mem_append, List.mem_map,
    List.mem_singleton] at hline
  rcases hline with rfl | ⟨n, -, rfl⟩ | rfl
  · simp only [Text.isRow_append]
    exact ⟨⟨by decide, htype⟩, by decide⟩
  · exact isRow_associatedRow (Text.isRow_append.2 ⟨hname, by decide⟩)
      (isRow_usize (newline_not_mem_digits n))
  · exact isRow_associatedRow (Text.isRow_append.2 ⟨hname, by decide⟩)
      (isRow_usize (isRow_toString _))

theorem isRow_of_mem_blockText {r : Record} (h : r.Valid)
    (htypes : ∀ s ∈ r.slots, Text.IsRow (upToNul (s.type.path current))) :
    ∀ line ∈ r.blockText t current, Text.IsRow line := by
  intro line hline
  rw [blockText, List.mem_append, List.mem_pair, List.mem_flatMap] at hline
  rcases hline with (rfl | rfl) | ⟨s, hs, hline⟩
  · exact isRow_associatedRow (by decide) (isRow_usize (newline_not_mem_digits _))
  · exact isRow_associatedRow (by decide) (isRow_usize (newline_not_mem_digits _))
  · have name := Identifier.newline_not_mem (h.slots_valid s hs).declarable.1
    exact r.isRow_of_mem_slotText t current name (htypes s hs) line hline

/-- The text of a record declares its constants in its block. -/
theorem associatedConstants_prints {r : Record} (h : r.Valid)
    (htypes : ∀ s ∈ r.slots, Text.IsRow (upToNul (s.type.path current))) :
    associatedConstants r.name (t.prints current (.record r)) = r.associated := by
  have rows : ∀ line ∈ r.headText t ++ implRow r.name :: (r.blockText t current ++ ["\x7d", ""]),
      Text.IsRow line := by
    intro line hline
    rw [List.mem_append, List.mem_cons, List.mem_append, List.mem_pair] at hline
    rcases hline with head | rfl | block | rfl | rfl
    · exact isRow_of_mem_headText t h line head
    · exact isRow_implRow (Identifier.newline_not_mem h.declarable.1)
    · exact isRow_of_mem_blockText t current h htypes line block
    · decide
    · decide
  rw [prints_eq t current h, associatedConstants_ofLines rows (r.implRow_not_mem_headText t r.name)
    (r.close_not_mem_blockText t current), filterMap_blockText t current h]

end Record

/-! ## Rows of an enumeration -/

namespace ProbeOutput

theorem nul_not_mem_upToNul (text : String) : Char.ofNat 0 ∉ (upToNul text).toList := by
  rw [upToNul, String.toList_ofList]
  intro nul
  exact absurd (List.mem_takeWhile_imp nul) (by decide)

theorem isRow_upToNul {text : String} (h : Text.IsRow text) : Text.IsRow (upToNul text) := by
  rw [Text.IsRow, upToNul, String.toList_ofList]
  exact fun newline => h (List.takeWhile_subset _ newline)

/-- A base is written up to its first NUL character. -/
theorem enumBegin_upToNul_eq {name : String} (hname : upToNul name = name) (base : String)
    (doc : Option String) :
    enumBegin name base doc = Text.ofLines (documentationLines "" doc ++
      ["#[repr(transparent)]", "#[derive(Clone, Copy, Debug, PartialEq, Eq, Hash)]",
        newtypeLine name (upToNul base), "", "impl " ++ name ++ " \x7b"]) := by
  have once : upToNul (upToNul base) = upToNul base := upToNul_eq (nul_not_mem_upToNul base)
  rw [← enumBegin_eq hname once, enumBegin, enumBegin, once]

end ProbeOutput

namespace Enumeration

variable (t : Target) (e : Enumeration) (current : Option String)

/-- What an enumeration prints in front of its block. -/
def headText : List String :=
  documentationLines "" e.documentation ++
    ["#[repr(transparent)]", "#[derive(Clone, Copy, Debug, PartialEq, Eq, Hash)]",
      newtypeLine e.name (upToNul (e.base.path current)), ""]

/-- What an enumeration prints behind its block. -/
def behindText : List String :=
  "" :: if e.defineConstants then e.members.flatMap (constantText t) else []

/-- What an enumeration prints has its block in the middle. -/
theorem prints_eq_blocks {macros : Bool} {e : Enumeration} (h : e.Valid macros) :
    t.prints current (.enumeration e) = Text.ofLines (e.headText current ++
      implRow e.name :: (e.members.flatMap (e.memberText t) ++ "\x7d" :: e.behindText t)) := by
  have start := enumBegin_upToNul_eq (Identifier.upToNul_eq h.declarable.1) (e.base.path current)
    e.documentation
  rw [prints_eq_begin t h, start, headText, behindText]
  delta implRow
  simp only [Text.ofLines_append, Text.ofLines_cons, Text.ofLines_nil, String.append_assoc,
    String.append_empty]

theorem implRow_not_mem_headText (name : String) : implRow name ∉ e.headText current := by
  rw [headText, List.mem_append, not_or]
  refine ⟨implRow_not_mem_documentationLines (.inl rfl) name e.documentation, ?_⟩
  simp only [List.mem_cons, List.not_mem_nil, or_false, not_or]
  refine ⟨?_, ?_, ?_, ?_⟩
  all_goals refine Ne.symm (ne_implRow_of_front ?_ name)
  · decide
  · decide
  · rw [front_newtypeLine]
    decide
  · decide

theorem close_not_mem_memberText (m : Member) : "\x7d" ∉ e.memberText t m := by
  unfold memberText
  split
  · rw [List.mem_append, List.mem_singleton, not_or]
    exact ⟨close_not_mem_documentationLines (.inr rfl) _, close_ne_valueLine _ _⟩
  · split
    · intro close
      rcases List.mem_pair.1 close with same | same
      · refine close_ne_of_front ?_ same
        rw [front_append (by decide)]
        decide
      · exact absurd same (by decide)
    · exact List.not_mem_nil

/-- A member that is there declares a constant, and one that is missing does not. -/
theorem filterMap_memberText {m : Member} (h : Identifier.isIdentifier m.name = true) :
    (e.memberText t m).filterMap constantOf? =
      if (e.shown? t.defined m).isSome then [m.name] else [] := by
  unfold memberText
  cases e.shown? t.defined m with
  | some native =>
    have documentation : (documentationLines "    " m.documentation).filterMap constantOf? = [] :=
      List.filterMap_eq_nil_iff.2 fun _ => constantOf?_of_mem_documentationLines (.inr rfl)
    have value := constantOf?_valueLine (Identifier.colon_not_mem h) (integer (t.value native))
    simp [documentation, value]
  | none =>
    have missing : constantOf? ("// missing definition: " ++ (e.name ++ "::" ++ m.name)) =
        none := by
      apply constantOf?_of_front
      rw [front_append (by decide)]
      decide
    have empty : constantOf? "" = none := by decide
    dsimp only
    split <;> simp [missing, empty]

theorem isRow_of_mem_headText {macros : Bool} {e : Enumeration} (h : e.Valid macros)
    (hbase : Text.IsRow (e.base.path current)) : ∀ line ∈ e.headText current, Text.IsRow line := by
  intro line hline
  rw [headText, List.mem_append] at hline
  rcases hline with documentation | fixed
  · exact isRow_of_mem_documentationLines (by decide) documentation
  · simp only [List.mem_cons, List.not_mem_nil, or_false] at fixed
    rcases fixed with rfl | rfl | rfl | rfl
    · decide
    · decide
    · exact isRow_newtypeLine (Identifier.newline_not_mem h.declarable.1) (isRow_upToNul hbase)
    · decide

theorem isRow_of_mem_behindText {macros : Bool} {e : Enumeration} (h : e.Valid macros) :
    ∀ line ∈ e.behindText t, Text.IsRow line := by
  intro line hline
  rw [behindText, List.mem_cons] at hline
  rcases hline with rfl | constant
  · decide
  · split at constant
    · obtain ⟨m, hm, hline⟩ := List.mem_flatMap.1 constant
      have name := Identifier.newline_not_mem (h.members_valid m hm).declarable.1
      exact isRow_of_mem_constantText name hline
    · cases constant

/-- The text of an enumeration declares the constants of the members that are there, in its
block. -/
theorem associatedConstants_prints {macros : Bool} {e : Enumeration} (h : e.Valid macros)
    (hbase : Text.IsRow (e.base.path current)) :
    associatedConstants e.name (t.prints current (.enumeration e)) = e.associated t.defined := by
  have rows : ∀ line ∈ e.headText current ++
      implRow e.name :: (e.members.flatMap (e.memberText t) ++ "\x7d" :: e.behindText t),
      Text.IsRow line := by
    have name := Identifier.newline_not_mem h.declarable.1
    intro line hline
    rw [List.mem_append, List.mem_cons, List.mem_append, List.mem_cons] at hline
    rcases hline with head | rfl | block | rfl | behind
    · exact isRow_of_mem_headText current h hbase line head
    · exact isRow_implRow name
    · obtain ⟨m, hm, hline⟩ := List.mem_flatMap.1 block
      have member_name := Identifier.newline_not_mem (h.members_valid m hm).declarable.1
      exact isRow_of_mem_memberText name member_name hline
    · decide
    · exact isRow_of_mem_behindText t h line behind
  have close : "\x7d" ∉ e.members.flatMap (e.memberText t) := by
    rw [List.mem_flatMap]
    rintro ⟨m, -, hm⟩
    exact e.close_not_mem_memberText t m hm
  have members : (e.members.flatMap (e.memberText t)).filterMap constantOf? =
      e.members.flatMap fun m => if (e.shown? t.defined m).isSome then [m.name] else [] := by
    rw [List.filterMap_flatMap]
    exact List.flatMap_congr fun m hm =>
      e.filterMap_memberText t (h.members_valid m hm).declarable.1
  rw [prints_eq_blocks t current h, associatedConstants_ofLines rows
    (e.implRow_not_mem_headText current e.name) close, members, e.associated_eq_flatMap]

end Enumeration

/-! ## Understood directives -/

/-- A slot names nothing but what its list names. -/
theorem symbol_mem_of_slotArgument {form : Form} {s : Slot} (h : slotArgument form = .ok s)
    {x : Symbol} (hx : x ∈ s.type.symbol?) : x ∈ form.symbols := by
  unfold slotArgument at h
  split at h
  · rename_i hlist
    rw [Form.eq_list_of_list? hlist]
    split at h
    · obtain ⟨options, hoptions, h⟩ := bind_eq_ok.1 h
      split at h
      · rename_i type htype
        obtain ⟨count, -, h⟩ := bind_eq_ok.1 h
        obtain ⟨name, -, h⟩ := bind_eq_ok.1 h
        obtain ⟨type', hread, h⟩ := bind_eq_ok.1 h
        cases h
        have written := Options.mem_of_get? hoptions htype
        have named := symbol_mem_of_typeArgument hread hx
        refine Form.mem_symbolsOfAll.2 ⟨type, ?_, named⟩
        exact List.mem_cons_of_mem _ (List.mem_cons_of_mem _ written)
      · cases h
    · cases h
  · cases h

/-- The slots of a record name nothing that the arguments of its directive do not name. -/
theorem symbol_mem_of_recordShape {kind : Layout} {forms : List Form} {r : Record}
    (h : recordShape kind forms = .ok (.record r)) {s : Slot} (hs : s ∈ r.slots) {x : Symbol}
    (hx : x ∈ s.type.symbol?) : x ∈ Form.symbolsOfAll forms := by
  obtain ⟨name, native, rest, rfl, slots⟩ := recordShape_slots h
  obtain ⟨form, hform, read⟩ := exists_of_mem_results slots hs
  have among : form ∈ rest := by
    unfold leadingText at hform
    split at hform
    · exact List.mem_cons_of_mem _ hform
    · exact hform
  have in_forms := List.mem_cons_of_mem (.symbol name) (List.mem_cons_of_mem (.string native) among)
  exact Form.mem_symbolsOfAll.2 ⟨form, in_forms, symbol_mem_of_slotArgument read hx⟩

namespace Dialect

/-- **Associated constants.** Take a record or an enumeration that is understood, whatever its names
and however many slots or members it has. No two of its constants have one name: neither two of
different slots, be a slot named like a constant of another, nor one of a slot and a fixed one. On
every target and in every module, if the symbols of the directive are made of the characters of
words, as they are in every text, these are the constants that the printed text declares in the
block of the type. -/
theorem associated_distinct {mode : Mode} {d : Directive} {p : Placed}
    (hp : (ofMode mode).interpret d = .ok p) (t : Target) (current : Option String) :
    (∀ r, p.entry = .record r → r.associated.Nodup ∧
      (d.IsLexed → associatedConstants r.name (t.prints current p.entry) = r.associated)) ∧
    ∀ e, p.entry = .enumeration e → (e.associated t.defined).Nodup ∧
      (d.IsLexed →
        associatedConstants e.name (t.prints current p.entry) = e.associated t.defined) := by
  obtain ⟨-, -, -, shape⟩ := interpret_eq_ok.1 hp
  have valid := entry_valid hp
  have kinds := mem_kinds_of_shape shape
  constructor
  · intro r hr
    rw [hr] at shape valid kinds
    have h : r.Valid := valid
    refine ⟨Record.nodup_associated h, fun lexed => ?_⟩
    have record : ∃ kind, recordShape kind d.arguments = .ok (.record r) := by
      rcases List.mem_pair.1 kinds with kind | kind
      · rw [kind] at shape
        exact ⟨_, shape⟩
      · rw [kind] at shape
        exact ⟨_, shape⟩
    obtain ⟨kind, read⟩ := record
    rw [hr]
    refine Record.associatedConstants_prints t current h fun s hs => isRow_upToNul ?_
    have named : ∀ x ∈ s.type.symbol?, x.IsLexed := fun x hx =>
      lexed x (symbol_mem_of_recordShape read hs hx)
    exact ForeignType.isRow_path named current
  · intro e he
    have writes : p.entry.Writes current e.base (e.base.path current) := by
      rw [he]
      exact .base rfl
    have base : ∀ x ∈ e.base.symbol?, x ∈ Form.symbolsOfAll d.arguments := fun x hx =>
      writes.symbol_mem shape hx
    rw [he] at valid
    have h : e.Valid (p.kind == .constantEnum) := valid
    refine ⟨Enumeration.nodup_associated h t.defined, fun lexed => ?_⟩
    rw [he]
    exact Enumeration.associatedConstants_prints t current h
      (ForeignType.isRow_path (fun x hx => lexed x (base x hx)) current)

/-- A record where the names of two slots are constants of a third one. -/
def crossedText : String :=
  "(cstruct s \"struct s\" (x \"x\" :type :int) (x-offset \"o\" :type :int)" ++
    "(x-count \"n\" :type :int))"

/-- The directive of this text. -/
def crossed : Directive :=
  ⟨"cstruct",
    [.symbol ⟨none, "s"⟩, .string "struct s",
      .list [.symbol ⟨none, "x"⟩, .string "x", .keyword "type", .keyword "int"],
      .list [.symbol ⟨none, "x-offset"⟩, .string "o", .keyword "type", .keyword "int"],
      .list [.symbol ⟨none, "x-count"⟩, .string "n", .keyword "type", .keyword "int"]], 1⟩

/-- The record that it asks for. -/
def crossedRecord : Record :=
  { kind := .struct, name := "s", native := "struct s", documentation := none,
    slots := [⟨"X", "x", .primitive .int, .fixed 1⟩, ⟨"X_OFFSET", "o", .primitive .int, .fixed 1⟩,
      ⟨"X_COUNT", "n", .primitive .int, .fixed 1⟩] }

/-- Its block declares eight constants, all of different names. -/
theorem associated_distinct_crossed :
    directivesOf crossedText = .ok [crossed] ∧
    (ofMode .probe).interpret crossed = .ok ⟨.struct, 1, .record crossedRecord⟩ ∧
    crossedRecord.associated.Nodup ∧
    ∀ (t : Target) (current : Option String),
      associatedConstants "s" (t.prints current (.record crossedRecord)) =
        ["SIZE", "ALIGN", "X_OFFSET", "X_COUNT", "X_OFFSET_OFFSET", "X_OFFSET_COUNT",
          "X_COUNT_OFFSET", "X_COUNT_COUNT"] := by
  have read : directivesOf crossedText = .ok [crossed] := by decide +kernel
  have understood : (ofMode .probe).interpret crossed = .ok ⟨.struct, 1, .record crossedRecord⟩ :=
    rfl
  have lexed : crossed.IsLexed := isLexed_of_directivesOf read _ (List.mem_singleton_self _)
  have names : crossedRecord.associated =
      ["SIZE", "ALIGN", "X_OFFSET", "X_COUNT", "X_OFFSET_OFFSET", "X_OFFSET_COUNT",
        "X_COUNT_OFFSET", "X_COUNT_COUNT"] := by decide
  have distinct (t : Target) (current : Option String) :=
    (associated_distinct understood t current).1 crossedRecord rfl
  refine ⟨read, understood, (distinct (.giving fun _ => .signed 0) none).1, ?_⟩
  intro t current
  rw [← names]
  exact (distinct t current).2 lexed

end Dialect

end ForeignBindings
