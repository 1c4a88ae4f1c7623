import ForeignBindings.Proofs.Targets

/-!
# Counts of slots

A slot of a record may give the number of its elements as an integer. On its way into the bindings
this number is read from its spelling, written into the program in decimal digits, read by C, made
a signed integer and printed.

* `exists_slot_of_mem` says that each list among the arguments for a record is read as a slot of it.
* `Record.printed_slotCall` says what a slot with a fixed count prints.
* `Dialect.printed_count_eq_iff` says when the number that is printed is the one that is spelled.
-/

namespace ForeignBindings

open Spec Checks

/-! ## Slots as they are written -/

/-- The arguments for a record are its name, its native type and, behind documentation, its
slots. -/
theorem recordShape_slots {kind : Layout} {forms : List Form} {r : Record}
    (h : recordShape kind forms = .ok (.record r)) :
    ∃ s native rest, forms = .symbol s :: .string native :: rest ∧
      (leadingText rest).2.map slotArgument = r.slots.map .ok := by
  unfold recordShape at h
  split at h
  · rename_i name native rest
    obtain ⟨declared, hname, h⟩ := bind_eq_ok.1 h
    cases native with
    | string native =>
      obtain ⟨slots, hslots, h⟩ := bind_eq_ok.1 h
      cases h
      cases name with
      | symbol s => exact ⟨s, native, rest, rfl, (distinctParts_of_eq_ok hslots).1⟩
      | _ => cases hname
    | _ => cases h
  · cases h

/-- Only text is ever taken from the front. -/
theorem mem_leadingText {forms items : List Form} (h : Form.list items ∈ forms) :
    Form.list items ∈ (leadingText forms).2 := by
  unfold leadingText
  split
  · rcases List.mem_cons.1 h with text | h
    · cases text
    · exact h
  · exact h

/-- A list among the arguments for a record is read as one of its slots. -/
theorem exists_slot_of_mem {mode : Mode} {d : Directive} {p : Placed} {r : Record}
    (h : (Dialect.ofMode mode).interpret d = .ok p) (hr : p.entry = .record r) {items : List Form}
    (hitems : Form.list items ∈ d.arguments) :
    ∃ s ∈ r.slots, slotArgument (.list items) = .ok s := by
  obtain ⟨-, -, -, hshape⟩ := Dialect.interpret_eq_ok.1 h
  have kind := mem_kinds_of_shape hshape
  rw [hr] at kind hshape
  have record : ∃ kind, recordShape kind d.arguments = .ok (.record r) := by
    rcases List.mem_pair.1 kind with struct | union
    · rw [struct] at hshape
      exact ⟨_, hshape⟩
    · rw [union] at hshape
      exact ⟨_, hshape⟩
  obtain ⟨kind, record⟩ := record
  obtain ⟨s, native, rest, forms, slots⟩ := recordShape_slots record
  -- the first two arguments are no lists
  rw [forms, List.mem_cons, List.mem_cons] at hitems
  rcases hitems with name | native | later
  · cases name
  · cases native
  · exact exists_result_of_mem slots (mem_leadingText later)

/-- A slot has the count that is given for it. -/
theorem slotArgument_count {name native : Form} {pairs : List (String × Form)} {s : Slot}
    (h : slotArgument (.list (name :: native :: Options.written pairs)) = .ok s) {value : Form}
    (hcount : ("count", value) ∈ pairs) : elementCount s.native (some value) = .ok s.count := by
  unfold slotArgument at h
  dsimp only [Form.list?_list] at h
  split at h
  · obtain ⟨options, hoptions, h⟩ := bind_eq_ok.1 h
    -- the options are read as they are written, and none of them is given twice
    obtain ⟨rfl, sound⟩ := Options.read_written.1 hoptions
    have given : Options.get? ⟨pairs⟩ "count" = some value :=
      (Options.get?_eq_some_iff sound).2 hcount
    split at h
    · obtain ⟨count, helements, h⟩ := bind_eq_ok.1 h
      obtain ⟨declared, hname, h⟩ := bind_eq_ok.1 h
      obtain ⟨type, -, h⟩ := bind_eq_ok.1 h
      cases h
      rwa [given] at helements
    · cases h
  · cases h

/-- An integer is taken as a count if it is positive and fits an unsigned word. -/
theorem elementCount_integer {native : String} {n : Integer} {count : ElementCount}
    (h : elementCount native (some (.integer n)) = .ok count) :
    ∃ v : Nat, n.value = v ∧ 0 < v ∧ v < Word.count ∧ count = .fixed v := by
  unfold elementCount at h
  dsimp only at h
  split at h
  · cases h
  · rename_i positive
    split at h
    · rename_i fits
      cases h
      exact ⟨n.value.toNat, by omega, by omega, by omega, rfl⟩
    · cases h

/-! ## Slots as they are printed -/

/-- The line that says how many elements a slot has. -/
def ProbeOutput.countLine (name : String) (count : Int) : String :=
  "    pub const " ++ name ++ "_COUNT: usize = " ++ toString count ++ ";\n"

/-- What a slot says before the number of its elements. -/
def ProbeOutput.slotHead (name type : String) (offset : Option Nat) : String :=
  "    /// Element type `" ++ upToNul type ++ "`.\n" ++
    match offset with
    | some n => "    pub const " ++ name ++ "_OFFSET: usize = " ++ toString n ++ ";\n"
    | none => ""

theorem ProbeOutput.slotInfo_eq {name : String} (h : Identifier.isIdentifier name = true)
    (type : String) (offset : Option Nat) (count : Int) :
    slotInfo name type offset count = slotHead name type offset ++ countLine name count := by
  unfold slotInfo slotHead countLine
  rw [Identifier.upToNul_eq h]
  cases offset <;> simp only [String.append_assoc]

/-- The call for a slot of a record, in a module or at the root. -/
def Record.slotCall (r : Record) (current : Option String) (s : Slot) : ProbeCall :=
  .slot r.kind r.native s.native s.name (s.type.path current) s.count

theorem Record.slotCall_mem_calls {r : Record} {s : Slot} (h : s ∈ r.slots)
    (defined : String → Bool) (current : Option String) :
    r.slotCall current s ∈ (Entry.record r).calls defined current :=
  List.mem_append_left _ (List.mem_cons_of_mem _ (List.mem_map_of_mem h))

/-- A fixed count is printed as the signed integer that has the same bits. -/
theorem Record.printed_slotCall {r : Record} {s : Slot}
    (hname : Identifier.isIdentifier s.name = true) {v : Nat} (hcount : s.count = .fixed v)
    (hv : v < Word.count) (t : Target) (current : Option String) :
    t.printed (r.slotCall current s) =
      ProbeOutput.slotHead s.name (s.type.path current) (t.offset? r.kind r.native s.native) ++
        ProbeOutput.countLine s.name
          (if v < Word.half then (v : Int) else v - Word.count) := by
  -- the decimal digits in the program are read by C, and then made a signed integer
  have elements : t.elements r.kind r.native s.native (.fixed v) =
      if v < Word.half then (v : Int) else v - Word.count := by
    show (t.value (toString v)).toSigned = _
    rw [t.value_toString hv, NativeValue.toSigned_ofNat hv]
  rw [slotCall, Target.printed, ProbeOutput.slotInfo_eq hname, hcount, elements]

namespace Dialect

/-- **Counts of slots.** For every slot of a record whose count is given as an integer, the number
that the integer denotes is positive and fits an unsigned word. On every target and in every module
the record prints for this slot, at the end, the number of its elements as a signed integer. It is
the number that is spelled, and so is not negative, if and only if that is less than `2 ^ 63`. -/
theorem printed_count_eq_iff {text : String} {ds : List Directive}
    (hread : directivesOf text = .ok ds) {d : Directive} (hd : d ∈ ds) {mode : Mode} {p : Placed}
    (hp : (ofMode mode).interpret d = .ok p) {r : Record} (hr : p.entry = .record r)
    {name native : Form} {pairs : List (String × Form)}
    (hslot : .list (name :: native :: Options.written pairs) ∈ d.arguments) {n : Integer}
    (hcount : ("count", .integer n) ∈ pairs) :
    ∃ s ∈ r.slots, slotArgument (.list (name :: native :: Options.written pairs)) = .ok s ∧
      ∃ v : Nat, IsSigned n.spelling.toList v ∧ 0 < v ∧ v < Word.count ∧
        ∀ (t : Target) (current : Option String),
          r.slotCall current s ∈ p.entry.calls t.defined current ∧
          ∃ front count, t.printed (r.slotCall current s) =
              front ++ ProbeOutput.countLine s.name count ∧
            (count = v ↔ v < Word.half) ∧ (0 ≤ count ↔ v < Word.half) := by
  obtain ⟨s, hs, hform⟩ := exists_slot_of_mem hp hr hslot
  obtain ⟨v, value, positive, fits, fixed⟩ := elementCount_integer (slotArgument_count hform hcount)
  have integer : n ∈ Form.integersOfAll d.arguments := by
    -- it stands among the options of its slot
    have among_options : Form.integer n ∈ Options.written pairs :=
      List.mem_flatMap.2 ⟨_, hcount, by simp⟩
    refine Form.mem_integersOfAll.2 ⟨_, hslot, Form.mem_integersOfAll.2 ⟨.integer n, ?_, ?_⟩⟩
    · exact List.mem_cons_of_mem _ (List.mem_cons_of_mem _ among_options)
    · exact List.mem_singleton_self n
  have spelled := (isSigned_of_directivesOf hread hd integer).1
  rw [value] at spelled
  have declarable := (slot_valid hform).declarable
  refine ⟨s, hs, hform, v, spelled, positive, fits, fun t current => ⟨?_, ?_⟩⟩
  · rw [hr]
    exact r.slotCall_mem_calls hs t.defined current
  · refine ⟨_, _, r.printed_slotCall declarable.1 fixed fits t current, ?_, ?_⟩
    · split <;> omega
    · split <;> omega

/-- A record with the largest count that is printed as it is spelled, and with the largest one that
is accepted. -/
def wideText : String :=
  "(cstruct s \"struct s\" (x \"x\" :type :int :count 0x7fffffffffffffff)" ++
    "(y \"y\" :count 0xFFFFFFFFFFFFFFFF :type :int))"

/-- The directive of this text. -/
def wide : Directive :=
  ⟨"cstruct",
    [.symbol ⟨none, "s"⟩, .string "struct s",
      .list [.symbol ⟨none, "x"⟩, .string "x", .keyword "type", .keyword "int", .keyword "count",
        .integer ⟨9223372036854775807, "0x7fffffffffffffff"⟩],
      .list [.symbol ⟨none, "y"⟩, .string "y", .keyword "count",
        .integer ⟨18446744073709551615, "0xFFFFFFFFFFFFFFFF"⟩, .keyword "type", .keyword "int"]], 1⟩

/-- The record that it asks for. -/
def wideRecord : Record :=
  { kind := .struct, name := "s", native := "struct s", documentation := none,
    slots := [⟨"X", "x", .primitive .int, .fixed 9223372036854775807⟩,
      ⟨"Y", "y", .primitive .int, .fixed 18446744073709551615⟩] }

/-- Of its two slots, one prints its count and the other a negative number. -/
theorem printed_count_wide :
    directivesOf wideText = .ok [wide] ∧
    (ofMode .probe).interpret wide = .ok ⟨.struct, 1, .record wideRecord⟩ ∧
    ∀ (t : Target) (current : Option String),
      (∃ s ∈ wideRecord.slots, s.name = "X" ∧ ∃ front,
        t.printed (wideRecord.slotCall current s) =
          front ++ ProbeOutput.countLine "X" 9223372036854775807) ∧
      ∃ s ∈ wideRecord.slots, s.name = "Y" ∧ ∃ front count,
        t.printed (wideRecord.slotCall current s) = front ++ ProbeOutput.countLine "Y" count ∧
          count < 0 := by
  have read : directivesOf wideText = .ok [wide] := by decide +kernel
  have understood : (ofMode .probe).interpret wide = .ok ⟨.struct, 1, .record wideRecord⟩ := rfl
  have among : wide ∈ [wide] := List.mem_singleton_self wide
  -- the first slot has its count behind the type, and the second one in front of it
  have first : Form.list (.symbol ⟨none, "x"⟩ :: .string "x" :: Options.written
      [("type", .keyword "int"),
        ("count", .integer ⟨9223372036854775807, "0x7fffffffffffffff"⟩)]) ∈ wide.arguments :=
    List.mem_of_getElem? (i := 2) rfl
  have second : Form.list (.symbol ⟨none, "y"⟩ :: .string "y" :: Options.written
      [("count", .integer ⟨18446744073709551615, "0xFFFFFFFFFFFFFFFF"⟩),
        ("type", .keyword "int")]) ∈ wide.arguments :=
    List.mem_of_getElem? (i := 3) rfl
  refine ⟨read, understood, fun t current => ⟨?_, ?_⟩⟩
  · obtain ⟨s, hs, hform, v, spelled, -, -, printed⟩ :=
      printed_count_eq_iff read among understood rfl first (List.mem_of_getElem? (i := 1) rfl)
    cases hform
    obtain ⟨-, front, count, hfront, same, -⟩ := printed t current
    have value : 9223372036854775807 = (v : Int) :=
      Option.some.inj (integerValue?_eq_some_iff.2 spelled)
    have small : v < Word.half := by
      unfold Word.half
      omega
    rw [same.2 small, ← value] at hfront
    exact ⟨_, hs, rfl, front, hfront⟩
  · obtain ⟨s, hs, hform, v, spelled, -, -, printed⟩ :=
      printed_count_eq_iff read among understood rfl second (List.mem_of_getElem? (i := 0) rfl)
    cases hform
    obtain ⟨-, front, count, hfront, -, natural⟩ := printed t current
    have value : 18446744073709551615 = (v : Int) :=
      Option.some.inj (integerValue?_eq_some_iff.2 spelled)
    have large : ¬ v < Word.half := by
      unfold Word.half
      omega
    exact ⟨_, hs, rfl, front, count, hfront, Int.not_le.1 fun h => large (natural.1 h)⟩

/-- A record whose only slot has one element more than a signed word can say. -/
def largeText : String :=
  "(cstruct s \"struct s\" (x \"x\" :type :int :count 9223372036854775808))"

/-- This slot. -/
def largeSlot : Slot :=
  ⟨"X", "x", .primitive .int, .fixed 9223372036854775808⟩

/-- The record around it. -/
def largeRecord : Record :=
  ⟨.struct, "s", "struct s", none, [largeSlot]⟩

/-- Not every count that is accepted is printed as a natural number. -/
theorem large_count_negative :
    ¬ ∀ (text : String) (ds : List Directive), directivesOf text = .ok ds → ∀ d ∈ ds,
      ∀ (p : Placed) (r : Record), (ofMode .probe).interpret d = .ok p → p.entry = .record r →
        ∀ (name native : Form) (pairs : List (String × Form)) (n : Integer),
          .list (name :: native :: Options.written pairs) ∈ d.arguments →
          ("count", .integer n) ∈ pairs →
          ∀ s, slotArgument (.list (name :: native :: Options.written pairs)) = .ok s →
            ∀ (t : Target) (current : Option String) (front : String) (count : Int),
              t.printed (r.slotCall current s) = front ++ ProbeOutput.countLine s.name count →
                0 ≤ count := by
  intro natural
  have read : directivesOf largeText =
      .ok [⟨"cstruct",
        [.symbol ⟨none, "s"⟩, .string "struct s",
          .list (.symbol ⟨none, "x"⟩ :: .string "x" :: Options.written
            [("type", .keyword "int"),
              ("count", .integer ⟨9223372036854775808, "9223372036854775808"⟩)])], 1⟩] := by
    decide +kernel
  have not_negative := natural _ _ read _ (List.mem_singleton_self _)
    ⟨.struct, 1, .record largeRecord⟩ largeRecord rfl rfl _ _ _ _
    (List.mem_of_getElem? (i := 2) rfl) (List.mem_of_getElem? (i := 1) rfl) largeSlot rfl
    (.giving fun _ => .signed 0) none _ _
    (Record.printed_slotCall (by decide) rfl (by decide) _ _)
  exact absurd not_negative (by decide)

end Dialect

end ForeignBindings
