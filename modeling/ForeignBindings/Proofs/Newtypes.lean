import ForeignBindings.Proofs.Blocks
import ForeignBindings.Proofs.Targets

/-!
# Newtypes

The bindings of an enumeration declare a newtype on a base type, with one value for each member
that is there. The base type stands in the specification and the values come from the target, and
nothing compares them.

* `IntegerType` is a type of integers with its range, by its spelling in the bindings and as the
  primitive type of C that it is.
* `Enumeration.prints_eq` gives the lines that an enumeration prints.
* `WellTyped` says of rows that the base type is one of integers and has all values.
* `Dialect.newtype_wellTyped_iff` says when the newtype of an enumeration is well typed.
-/

namespace ForeignBindings

open Spec

/-! ## Types of integers -/

/-- A type of integers. -/
structure IntegerType where
  isSigned : Bool
  bits : Nat
deriving Repr, DecidableEq

namespace IntegerType

/-- The number of integers that have at most so many bits. -/
def bound (bits : Nat) : Int :=
  Nat.pow 2 bits

/-- The type has the integer. -/
def Has (type : IntegerType) (v : Int) : Prop :=
  if type.isSigned then -bound (type.bits - 1) ≤ v ∧ v < bound (type.bits - 1)
  else 0 ≤ v ∧ v < bound type.bits

instance (type : IntegerType) (v : Int) : Decidable (type.Has v) := by
  unfold Has
  infer_instance

/-- The types of integers as the bindings spell them, on a system with words of 64 bits. -/
def spellings : List (String × IntegerType) :=
  [("i8", ⟨true, 8⟩), ("i16", ⟨true, 16⟩), ("i32", ⟨true, 32⟩), ("i64", ⟨true, 64⟩),
    ("i128", ⟨true, 128⟩), ("isize", ⟨true, 64⟩), ("u8", ⟨false, 8⟩), ("u16", ⟨false, 16⟩),
    ("u32", ⟨false, 32⟩), ("u64", ⟨false, 64⟩), ("u128", ⟨false, 128⟩), ("usize", ⟨false, 64⟩),
    ("::core::ffi::c_char", ⟨true, 8⟩), ("::core::ffi::c_schar", ⟨true, 8⟩),
    ("::core::ffi::c_uchar", ⟨false, 8⟩), ("::core::ffi::c_short", ⟨true, 16⟩),
    ("::core::ffi::c_ushort", ⟨false, 16⟩), ("::core::ffi::c_int", ⟨true, 32⟩),
    ("::core::ffi::c_uint", ⟨false, 32⟩), ("::core::ffi::c_long", ⟨true, 64⟩),
    ("::core::ffi::c_ulong", ⟨false, 64⟩), ("::core::ffi::c_longlong", ⟨true, 64⟩),
    ("::core::ffi::c_ulonglong", ⟨false, 64⟩)]

/-- The type of integers that has the spelling. -/
def ofSpelling? (spelling : String) : Option IntegerType :=
  spellings.lookup spelling

end IntegerType

/-- The integers of a primitive type in C, on a system with words of 64 bits where plain characters
are signed. -/
def Primitive.integerType? : Primitive → Option IntegerType
  | char | int8 => some ⟨true, 8⟩
  | uchar | uint8 => some ⟨false, 8⟩
  | short | int16 => some ⟨true, 16⟩
  | ushort | uint16 => some ⟨false, 16⟩
  | int | int32 => some ⟨true, 32⟩
  | uint | uint32 => some ⟨false, 32⟩
  | long | llong | int64 | ssize => some ⟨true, 64⟩
  | ulong | ullong | uint64 | size => some ⟨false, 64⟩
  | float | double | pointer | string | void => none

/-- The bindings spell a type of the same integers. -/
theorem IntegerType.ofSpelling?_path (b : Primitive) : ofSpelling? b.path = b.integerType? := by
  cases b <;> decide +kernel

/-! ## Printed lines -/

/-- The text of some lines. -/
def Text.ofLines (lines : List String) : String :=
  String.join (lines.map (· ++ "\n"))

@[simp] theorem Text.ofLines_nil : ofLines [] = "" := String.join_nil

@[simp] theorem Text.ofLines_append (lines lines' : List String) :
    ofLines (lines ++ lines') = ofLines lines ++ ofLines lines' := by
  rw [ofLines, List.map_append, String.join_append, ← ofLines, ← ofLines]

@[simp] theorem Text.ofLines_cons (line : String) (lines : List String) :
    ofLines (line :: lines) = line ++ "\n" ++ ofLines lines := by
  rw [ofLines, List.map_cons, String.join_cons, ← ofLines]

namespace ProbeOutput

/-- The lines of a documentation text. -/
def documentationLines (indent : String) : Option String → List String
  | none => []
  | some text => (Text.rowsOf (upToNul text).toList).map fun row =>
    indent ++ "///" ++ if row.isEmpty then "" else " " ++ String.ofList row

/-- The line that declares a newtype. -/
def newtypeLine (name base : String) : String :=
  "pub struct " ++ name ++ "(pub " ++ base ++ ");"

/-- The line that declares a value of a newtype. -/
def valueLine (name literal : String) : String :=
  "    pub const " ++ name ++ ": Self = Self(" ++ literal ++ ");"

variable {name : String}

theorem documentation_eq {indent : String} (h : Char.ofNat 0 ∉ indent.toList)
    (doc : Option String) :
    documentation indent doc = Text.ofLines (documentationLines indent doc) := by
  cases doc with
  | none => rfl
  | some text =>
    have line : (fun row => documentationLine indent row) =
        fun row => (indent ++ "///" ++ if row.isEmpty then "" else " " ++ String.ofList row) ++
          "\n" := rfl
    rw [documentation, documentationLines, Text.ofLines, List.map_map, upToNul_eq h]
    rfl

theorem enumBegin_eq {base : String} (hname : upToNul name = name) (hbase : upToNul base = base)
    (doc : Option String) :
    enumBegin name base doc = Text.ofLines (documentationLines "" doc ++
      ["#[repr(transparent)]", "#[derive(Clone, Copy, Debug, PartialEq, Eq, Hash)]",
        newtypeLine name base, "", "impl " ++ name ++ " \x7b"]) := by
  unfold enumBegin
  rw [hname, hbase, documentation_eq (by decide)]
  -- opened as it stands: an equation for so many pieces takes long to find
  delta newtypeLine
  simp only [Text.ofLines_append, Text.ofLines_cons, Text.ofLines_nil, String.append_assoc]
  rfl

theorem enumMember_eq (hname : upToNul name = name) (x : NativeValue) (doc : Option String) :
    enumMember name x doc = Text.ofLines (documentationLines "    " doc ++
      [valueLine name (integer x)]) := by
  unfold enumMember
  rw [hname, documentation_eq (by decide)]
  delta valueLine
  simp only [Text.ofLines_append, Text.ofLines_cons, Text.ofLines_nil, String.append_assoc]
  rfl

theorem missing_eq (hname : upToNul name = name) :
    missing name = Text.ofLines ["// missing definition: " ++ name, ""] := by
  unfold missing
  rw [hname]
  simp only [Text.ofLines_cons, Text.ofLines_nil, String.append_assoc]
  rfl

/-- The row of a constant. -/
def constantLine (name : String) (x : NativeValue) : String :=
  "pub const " ++ name ++ ": " ++
    (if x.fitsSigned then "i64 = " ++ toString x.toSigned else "u64 = " ++ toString x.toUnsigned) ++
    ";"

theorem constant_eq (hname : upToNul name = name) (x : NativeValue) (doc : Option String) :
    constant name x doc =
      Text.ofLines (documentationLines "" doc ++ [constantLine name x, ""]) := by
  unfold constant
  rw [hname, documentation_eq (by decide)]
  delta constantLine
  simp only [Text.ofLines_append, Text.ofLines_cons, Text.ofLines_nil, String.append_assoc]
  rfl

end ProbeOutput

open ProbeOutput

/-! ## Members that are there -/

namespace Enumeration

/-- The native name that a member is printed by: its first macro that is defined or, for plain
enumerators, its only one. -/
def shown? (defined : String → Bool) (e : Enumeration) (m : Member) : Option String :=
  if e.macroMembers then m.candidates.find? defined
  else m.native?.filter fun native => !m.optional || defined native

variable {e : Enumeration} {m : Member} {native : String}

theorem mem_candidates_of_shown? {defined : String → Bool} (h : e.shown? defined m = some native) :
    native ∈ m.candidates := by
  unfold shown? at h
  split at h
  · exact List.mem_of_find?_eq_some h
  · exact List.mem_of_mem_head? (Option.filter_eq_some_iff.1 h).1

/-- A member is printed by that name, and a macro that is not there is reported. -/
theorem memberCalls_eq (defined : String → Bool) (e : Enumeration) (m : Member) :
    e.memberCalls defined m =
      match e.shown? defined m with
      | some native => [.enumMember m.name native m.documentation]
      | none =>
        if e.macroMembers && !m.optional then [.missing (e.name ++ "::" ++ m.name)] else [] := by
  unfold memberCalls shown? candidateCalls
  cases e.macroMembers with
  | true =>
    cases m.candidates.find? defined <;> cases m.optional <;> rfl
  | false =>
    cases m.native? with
    | none => rfl
    | some native => cases m.optional <;> cases hd : defined native <;> simp [Option.filter, hd]

/-! ## Lines of an enumeration -/

variable (t : Target)

/-- What a member prints into the newtype. -/
def memberText (e : Enumeration) (m : Member) : List String :=
  match e.shown? t.defined m with
  | some native => documentationLines "    " m.documentation ++
      [valueLine m.name (integer (t.value native))]
  | none =>
    if e.macroMembers && !m.optional then
      ["// missing definition: " ++ (e.name ++ "::" ++ m.name), ""]
    else []

/-- What a member prints as a constant of its own. -/
def constantText (m : Member) : List String :=
  match m.candidates.find? t.defined with
  | some native =>
    documentationLines "" m.documentation ++ [constantLine m.name (t.value native), ""]
  | none => []

/-- The lines that an enumeration prints. -/
def textLines (e : Enumeration) (current : Option String) : List String :=
  (documentationLines "" e.documentation ++
    ["#[repr(transparent)]", "#[derive(Clone, Copy, Debug, PartialEq, Eq, Hash)]",
      newtypeLine e.name (e.base.path current), "", "impl " ++ e.name ++ " \x7b"]) ++
    e.members.flatMap (e.memberText t) ++ ["\x7d", ""] ++
    if e.defineConstants then e.members.flatMap (constantText t) else []

theorem join_flatMap {α : Type} {xs : List α} {calls : α → List ProbeCall}
    {lines : α → List String}
    (h : ∀ x ∈ xs, String.join ((calls x).map t.printed) = Text.ofLines (lines x)) :
    String.join ((xs.flatMap calls).map t.printed) = Text.ofLines (xs.flatMap lines) := by
  induction xs with
  | nil => rfl
  | cons x xs ih =>
    have first := h x (List.mem_cons_self ..)
    have rest := ih fun y hy => h y (List.mem_cons_of_mem _ hy)
    rw [List.flatMap_cons, List.flatMap_cons, List.map_append, String.join_append, first, rest,
      Text.ofLines_append]

theorem printed_memberCalls {e : Enumeration} {m : Member}
    (he : Identifier.isIdentifier e.name = true) (hm : Identifier.isIdentifier m.name = true) :
    String.join ((e.memberCalls t.defined m).map t.printed) = Text.ofLines (e.memberText t m) := by
  rw [memberCalls_eq, memberText]
  cases e.shown? t.defined m with
  | some native =>
    show String.join [enumMember m.name (t.value native) m.documentation] = _
    rw [enumMember_eq (Identifier.upToNul_eq hm)]
    simp
  | none =>
    dsimp only
    split
    · have no_nul : Char.ofNat 0 ∉ (e.name ++ "::" ++ m.name).toList := by
        have in_enum := Identifier.isContinue_of_mem he (Char.ofNat 0)
        have in_member := Identifier.isContinue_of_mem hm (Char.ofNat 0)
        simp only [String.toList_append, List.mem_append, not_or]
        exact ⟨⟨fun nul => absurd (in_enum nul) (by decide), by decide⟩,
          fun nul => absurd (in_member nul) (by decide)⟩
      show String.join [missing (e.name ++ "::" ++ m.name)] = _
      rw [missing_eq (upToNul_eq no_nul)]
      simp
    · rfl

theorem printed_constantCalls {m : Member} (hm : Identifier.isIdentifier m.name = true) :
    String.join ((m.constantCalls t.defined).map t.printed) = Text.ofLines (constantText t m) := by
  unfold Member.constantCalls constantText
  cases m.candidates.find? t.defined with
  | some native =>
    show String.join [constant m.name (t.value native) m.documentation] = _
    rw [constant_eq (Identifier.upToNul_eq hm)]
    simp
  | none => rfl

/-- Behind its start an enumeration prints lines of its members. -/
theorem prints_eq_begin {macros : Bool} {e : Enumeration} (h : e.Valid macros)
    (current : Option String) :
    t.prints current (.enumeration e) =
      enumBegin e.name (e.base.path current) e.documentation ++
        Text.ofLines (e.members.flatMap (e.memberText t) ++ ["\x7d", ""] ++
          if e.defineConstants then e.members.flatMap (constantText t) else []) := by
  have members := join_flatMap t fun m hm =>
    printed_memberCalls t h.declarable.1 (h.members_valid m hm).declarable.1
  have constants := join_flatMap t fun m hm =>
    printed_constantCalls t (h.members_valid m hm).declarable.1
  have finish : blockEnd = Text.ofLines ["\x7d", ""] := by decide
  have behind : String.join ((if e.defineConstants then
      e.members.flatMap (Member.constantCalls t.defined) else []).map t.printed) =
        Text.ofLines (if e.defineConstants then e.members.flatMap (constantText t) else []) := by
    split
    · exact constants
    · rfl
  have first : t.printed (.enumBegin e.name (e.base.path current) e.documentation) =
      enumBegin e.name (e.base.path current) e.documentation := rfl
  have last : t.printed .enumEnd = blockEnd := rfl
  show String.join ((e.calls t.defined current).map t.printed) = _
  rw [calls, List.map_append, List.map_cons, List.map_cons, String.join_append,
    String.join_cons, String.join_cons, members, behind, first, last, finish]
  simp only [Text.ofLines_append, String.append_assoc]

/-- **Lines of an enumeration.** What an enumeration prints, line by line. -/
theorem prints_eq {macros : Bool} {e : Enumeration} (h : e.Valid macros)
    {current : Option String} (hbase : Char.ofNat 0 ∉ (e.base.path current).toList) :
    t.prints current (.enumeration e) = Text.ofLines (e.textLines t current) := by
  rw [prints_eq_begin t h, enumBegin_eq (Identifier.upToNul_eq h.declarable.1) (upToNul_eq hbase),
    textLines]
  simp only [Text.ofLines_append, String.append_assoc]

end Enumeration

/-! ## Rows of an enumeration -/

namespace ProbeOutput

theorem exists_of_mem_documentationLines {indent line : String} {doc : Option String}
    (h : line ∈ documentationLines indent doc) :
    ∃ rest, Text.IsRow rest ∧ line = indent ++ "///" ++ rest := by
  cases doc with
  | none => cases h
  | some text =>
    obtain ⟨row, hrow, rfl⟩ := List.mem_map.1 h
    refine ⟨_, ?_, rfl⟩
    split
    · decide
    · have no_newline := Text.newline_not_mem_rowsOf _ row hrow
      simpa [Text.IsRow] using no_newline

theorem isRow_of_mem_documentationLines {indent line : String} {doc : Option String}
    (hindent : Text.IsRow indent) (h : line ∈ documentationLines indent doc) :
    Text.IsRow line := by
  obtain ⟨rest, hrest, rfl⟩ := exists_of_mem_documentationLines h
  have slashes : Text.IsRow "///" := by decide
  exact Text.isRow_append.2 ⟨Text.isRow_append.2 ⟨hindent, slashes⟩, hrest⟩

theorem isRow_toString (v : Int) : Text.IsRow (toString v) := by
  rw [Int.toString_eq_repr]
  cases v with
  | ofNat n => exact newline_not_mem_digits n
  | negSucc n =>
    have sign : Text.IsRow "-" := by decide
    exact Text.isRow_append.2 ⟨sign, newline_not_mem_digits (n + 1)⟩

theorem isRow_integer (x : NativeValue) : Text.IsRow (integer x) := by
  unfold integer
  split
  · exact isRow_toString _
  · exact newline_not_mem_digits _

theorem isRow_newtypeLine {name base : String} (hname : Text.IsRow name)
    (hbase : Text.IsRow base) : Text.IsRow (newtypeLine name base) := by
  delta newtypeLine
  simp only [Text.isRow_append]
  exact ⟨⟨⟨⟨by decide, hname⟩, by decide⟩, hbase⟩, by decide⟩

theorem isRow_valueLine {name literal : String} (hname : Text.IsRow name)
    (hliteral : Text.IsRow literal) : Text.IsRow (valueLine name literal) := by
  delta valueLine
  simp only [Text.isRow_append]
  exact ⟨⟨⟨⟨by decide, hname⟩, by decide⟩, hliteral⟩, by decide⟩

theorem isRow_constantLine {name : String} (hname : Text.IsRow name) (x : NativeValue) :
    Text.IsRow (constantLine name x) := by
  have number : Text.IsRow (if x.fitsSigned then "i64 = " ++ toString x.toSigned
      else "u64 = " ++ toString x.toUnsigned) := by
    split
    · exact Text.isRow_append.2 ⟨by decide, isRow_toString _⟩
    · exact Text.isRow_append.2 ⟨by decide, newline_not_mem_digits _⟩
  delta constantLine
  simp only [Text.isRow_append]
  exact ⟨⟨⟨⟨by decide, hname⟩, by decide⟩, number⟩, by decide⟩

/-- The first characters of a line, which tell the lines of an enumeration apart. -/
def front (line : String) : List Char :=
  line.toList.take 5

theorem front_append {s : String} (h : 5 ≤ s.toList.length) (t : String) :
    front (s ++ t) = front s := by
  rw [front, String.toList_append, List.take_append_of_le_length h, front]

/-- The line declares neither a newtype nor a value of one. -/
def IsOther (line : String) : Prop :=
  front line ≠ front "pub struct " ∧ front line ≠ front "    pub const "

instance (line : String) : Decidable (IsOther line) := by
  unfold IsOther
  infer_instance

theorem isOther_append {s : String} (h : 5 ≤ s.toList.length) (hs : IsOther s) (t : String) :
    IsOther (s ++ t) := by
  rwa [IsOther, front_append h]

theorem isOther_of_mem_documentationLines {line indent : String} {doc : Option String}
    (hindent : indent = "" ∨ indent = "    ") (h : line ∈ documentationLines indent doc) :
    IsOther line := by
  obtain ⟨rest, -, rfl⟩ := exists_of_mem_documentationLines h
  -- there is a slash in front
  have slash : '/' ∈ front (indent ++ "///" ++ rest) := by
    rcases hindent with rfl | rfl <;> simp [front]
  constructor
  · intro same
    rw [same] at slash
    exact absurd slash (by decide)
  · intro same
    rw [same] at slash
    exact absurd slash (by decide)

theorem isOther_constantLine (name : String) (x : NativeValue) : IsOther (constantLine name x) := by
  delta constantLine
  rw [String.append_assoc, String.append_assoc, String.append_assoc]
  exact isOther_append (by decide) (by decide) _

/-- A character that stands in neither of two texts divides them in the same way. -/
theorem append_cons_inj {c : Char} {xs ys as bs : List Char} (hx : c ∉ xs) (hy : c ∉ ys)
    (h : xs ++ c :: as = ys ++ c :: bs) : xs = ys ∧ as = bs := by
  induction xs generalizing ys with
  | nil =>
    cases ys with
    | nil => exact ⟨rfl, List.tail_eq_of_cons_eq h⟩
    | cons y ys => exact absurd (List.head_eq_of_cons_eq h ▸ List.mem_cons_self ..) hy
  | cons x xs ih =>
    cases ys with
    | nil => exact absurd (List.head_eq_of_cons_eq h ▸ List.mem_cons_self ..) hx
    | cons y ys =>
      obtain ⟨rfl, rest⟩ := List.cons.inj h
      have apart := ih (fun hm => hx (List.mem_cons_of_mem _ hm))
        (fun hm => hy (List.mem_cons_of_mem _ hm)) rest
      exact ⟨congrArg _ apart.1, apart.2⟩

variable {name name' base base' literal literal' : String}

theorem front_newtypeLine (name base : String) :
    front (newtypeLine name base) = front "pub struct " := by
  delta newtypeLine
  rw [String.append_assoc, String.append_assoc, String.append_assoc]
  exact front_append (by decide) _

theorem front_valueLine (name literal : String) :
    front (valueLine name literal) = front "    pub const " := by
  delta valueLine
  rw [String.append_assoc, String.append_assoc, String.append_assoc]
  exact front_append (by decide) _

/-- Fixed text around an identifier and another text shows both of them, if what stands between
them starts with a character that no identifier has. -/
theorem enclosed_inj {front middle last text text' : String} {c : Char} {cs : List Char}
    (hmiddle : middle.toList = c :: cs) (hc : Identifier.isContinue c = false)
    (h : Identifier.isIdentifier name = true) (h' : Identifier.isIdentifier name' = true)
    (same : front ++ name ++ middle ++ text ++ last = front ++ name' ++ middle ++ text' ++ last) :
    name = name' ∧ text = text' := by
  have not_in : ∀ n, Identifier.isIdentifier n = true → c ∉ n.toList := by
    intro n hn hm
    rw [Identifier.isContinue_of_mem hn c hm] at hc
    cases hc
  have characters := congrArg String.toList same
  simp only [String.toList_append, hmiddle, List.append_assoc, List.cons_append] at characters
  obtain ⟨names, texts⟩ :=
    append_cons_inj (not_in name h) (not_in name' h') (List.append_cancel_left characters)
  exact ⟨String.toList_injective names,
    String.toList_injective (List.append_cancel_right (List.append_cancel_left texts))⟩

theorem newtypeLine_inj (h : Identifier.isIdentifier name = true)
    (h' : Identifier.isIdentifier name' = true)
    (same : newtypeLine name base = newtypeLine name' base') : name = name' ∧ base = base' :=
  enclosed_inj (c := '(') rfl (by decide) h h' same

theorem valueLine_inj (h : Identifier.isIdentifier name = true)
    (h' : Identifier.isIdentifier name' = true)
    (same : valueLine name literal = valueLine name' literal') :
    name = name' ∧ literal = literal' :=
  enclosed_inj (c := ':') rfl (by decide) h h' same

end ProbeOutput

namespace Enumeration

variable {t : Target} {e : Enumeration} {current : Option String}

theorem mem_memberText_cases {m : Member} {line : String} (hm : line ∈ e.memberText t m) :
    (∃ native, e.shown? t.defined m = some native ∧
      line = valueLine m.name (integer (t.value native))) ∨ IsOther line := by
  unfold memberText at hm
  split at hm
  · rename_i native shown
    rcases List.mem_append.1 hm with doc | value
    · exact .inr (isOther_of_mem_documentationLines (.inr rfl) doc)
    · exact .inl ⟨native, shown, List.mem_singleton.1 value⟩
  · split at hm
    · rcases List.mem_pair.1 hm with rfl | rfl
      · exact .inr (isOther_append (by decide) (by decide) _)
      · exact .inr (by decide)
    · cases hm

theorem isOther_of_mem_constantText {m : Member} {line : String} (hm : line ∈ constantText t m) :
    IsOther line := by
  unfold constantText at hm
  split at hm
  · rcases List.mem_append.1 hm with doc | constant
    · exact isOther_of_mem_documentationLines (.inl rfl) doc
    · rcases List.mem_pair.1 constant with rfl | rfl
      · exact isOther_constantLine ..
      · decide
  · cases hm

/-- An enumeration declares its newtype, and values for its members. -/
theorem mem_textLines_cases {line : String} (hm : line ∈ e.textLines t current) :
    line = newtypeLine e.name (e.base.path current) ∨
      (∃ m ∈ e.members, ∃ native, e.shown? t.defined m = some native ∧
        line = valueLine m.name (integer (t.value native))) ∨
      IsOther line := by
  rw [textLines, List.mem_append, List.mem_append, List.mem_append, List.mem_append] at hm
  -- only the head has a newtype, and only the members have values of it
  rcases hm with (((doc | head) | member) | finish) | constant
  · exact .inr (.inr (isOther_of_mem_documentationLines (.inl rfl) doc))
  · simp only [List.mem_cons, List.not_mem_nil, or_false] at head
    rcases head with rfl | rfl | this_line | rfl | rfl
    · exact .inr (.inr (by decide))
    · exact .inr (.inr (by decide))
    · exact .inl this_line
    · exact .inr (.inr (by decide))
    · rw [String.append_assoc]
      exact .inr (.inr (isOther_append (by decide) (by decide) _))
  · obtain ⟨m, hm, hline⟩ := List.mem_flatMap.1 member
    rcases mem_memberText_cases hline with ⟨native, shown, value⟩ | other
    · exact .inr (.inl ⟨m, hm, native, shown, value⟩)
    · exact .inr (.inr other)
  · rcases List.mem_pair.1 finish with rfl | rfl
    · exact .inr (.inr (by decide))
    · exact .inr (.inr (by decide))
  · split at constant
    · obtain ⟨m, -, hline⟩ := List.mem_flatMap.1 constant
      exact .inr (.inr (isOther_of_mem_constantText hline))
    · cases constant

/-- The newtype is declared once, on the base type. -/
theorem newtypeLine_mem_textLines {name base : String} (hname : Identifier.isIdentifier name = true)
    (he : Identifier.isIdentifier e.name = true) :
    newtypeLine name base ∈ e.textLines t current ↔
      name = e.name ∧ base = e.base.path current := by
  constructor
  · intro hm
    rcases mem_textLines_cases hm with same | ⟨m, -, native, -, value⟩ | other
    · exact newtypeLine_inj hname he same
    · have fronts := congrArg front value
      rw [front_newtypeLine, front_valueLine] at fronts
      exact absurd fronts (by decide)
    · exact absurd (front_newtypeLine name base) other.1
  · rintro ⟨rfl, rfl⟩
    simp [textLines]

/-- The values of the newtype are those of the members that are there. -/
theorem valueLine_mem_textLines {name literal : String}
    (hname : Identifier.isIdentifier name = true)
    (hmembers : ∀ m ∈ e.members, Identifier.isIdentifier m.name = true) :
    valueLine name literal ∈ e.textLines t current ↔
      ∃ m ∈ e.members, ∃ native, e.shown? t.defined m = some native ∧ name = m.name ∧
        literal = integer (t.value native) := by
  constructor
  · intro hm
    rcases mem_textLines_cases hm with head | ⟨m, hm, native, shown, value⟩ | other
    · have fronts := congrArg front head
      rw [front_newtypeLine, front_valueLine] at fronts
      exact absurd fronts (by decide)
    · exact ⟨m, hm, native, shown, valueLine_inj hname (hmembers m hm) value⟩
    · exact absurd (front_valueLine name literal) other.2
  · rintro ⟨m, hm, native, shown, rfl, rfl⟩
    have printed : valueLine m.name (integer (t.value native)) ∈ e.memberText t m := by
      rw [memberText, shown]
      exact List.mem_append_right _ (List.mem_singleton_self _)
    have among := List.mem_flatMap.2 ⟨m, hm, printed⟩
    simp only [textLines, List.mem_append]
    exact .inl (.inl (.inr among))

theorem isRow_of_mem_memberText {m : Member} (he : Text.IsRow e.name) (hm : Text.IsRow m.name)
    {line : String} (h : line ∈ e.memberText t m) : Text.IsRow line := by
  unfold memberText at h
  split at h
  · rcases List.mem_append.1 h with doc | value
    · exact isRow_of_mem_documentationLines (by decide) doc
    · rw [List.mem_singleton.1 value]
      exact isRow_valueLine hm (isRow_integer _)
  · split at h
    · rcases List.mem_pair.1 h with rfl | rfl
      · simp only [Text.isRow_append]
        exact ⟨by decide, ⟨he, by decide⟩, hm⟩
      · decide
    · cases h

theorem isRow_of_mem_constantText {m : Member} (hm : Text.IsRow m.name) {line : String}
    (h : line ∈ constantText t m) : Text.IsRow line := by
  unfold constantText at h
  split at h
  · rcases List.mem_append.1 h with doc | constant
    · exact isRow_of_mem_documentationLines (by decide) doc
    · rcases List.mem_pair.1 constant with rfl | rfl
      · exact isRow_constantLine hm _
      · decide
  · cases h

/-- No line of an enumeration has a newline in it. -/
theorem isRow_of_mem_textLines {macros : Bool} (h : e.Valid macros)
    (hbase : Text.IsRow (e.base.path current)) :
    ∀ line ∈ e.textLines t current, Text.IsRow line := by
  have enum_name : Text.IsRow e.name := Identifier.newline_not_mem h.declarable.1
  have member_name : ∀ m ∈ e.members, Text.IsRow m.name := fun m hm =>
    Identifier.newline_not_mem (h.members_valid m hm).declarable.1
  intro line hm
  rw [textLines, List.mem_append, List.mem_append, List.mem_append, List.mem_append] at hm
  rcases hm with (((doc | head) | member) | finish) | constant
  · exact isRow_of_mem_documentationLines (by decide) doc
  · simp only [List.mem_cons, List.not_mem_nil, or_false] at head
    rcases head with rfl | rfl | rfl | rfl | rfl
    · decide
    · decide
    · exact isRow_newtypeLine enum_name hbase
    · decide
    · simp only [Text.isRow_append]
      exact ⟨⟨by decide, enum_name⟩, by decide⟩
  · obtain ⟨m, hm, hline⟩ := List.mem_flatMap.1 member
    exact isRow_of_mem_memberText enum_name (member_name m hm) hline
  · rcases List.mem_pair.1 finish with rfl | rfl
    · decide
    · decide
  · -- the constants are there only if they are asked for
    split at constant
    · obtain ⟨m, hm, hline⟩ := List.mem_flatMap.1 constant
      exact isRow_of_mem_constantText (member_name m hm) hline
    · cases constant

/-- The rows of what an enumeration prints are its lines. -/
theorem mem_rows_iff {macros : Bool} (h : e.Valid macros)
    (hnul : Char.ofNat 0 ∉ (e.base.path current).toList) (hbase : Text.IsRow (e.base.path current))
    {line : String} :
    line.toList ∈ Text.rowsOf (t.prints current (.enumeration e)).toList ↔
      line ∈ e.textLines t current := by
  rw [prints_eq t h hnul, Text.ofLines, Text.rowsOf_join (isRow_of_mem_textLines h hbase)]
  exact List.mem_map_of_injective fun _ _ same => String.toList_injective same

end Enumeration

/-! ## Well-typed newtypes -/

/-- The rows declare newtypes on one type of integers only, and their values are decimal numbers
that the type has. -/
def WellTyped (rows : List (List Char)) : Prop :=
  ∃ type : IntegerType,
    (∀ name base, Identifier.isIdentifier name = true → (newtypeLine name base).toList ∈ rows →
      IntegerType.ofSpelling? base = some type) ∧
    ∀ name literal, Identifier.isIdentifier name = true → (valueLine name literal).toList ∈ rows →
      ∃ v : Int, literal = toString v ∧ type.Has v

/-- The spelling of a primitive type has no newline in it, and no NUL character. -/
theorem Primitive.written_path (b : Primitive) :
    Text.IsRow b.path ∧ Char.ofNat 0 ∉ b.path.toList := by
  cases b <;> decide +kernel

namespace Enumeration

variable {t : Target} {e : Enumeration} {current : Option String} {b : Primitive}

theorem mem_rows_of_primitive {macros : Bool} (h : e.Valid macros) (hb : e.base = .primitive b)
    {line : String} :
    line.toList ∈ Text.rowsOf (t.prints current (.enumeration e)).toList ↔
      line ∈ e.textLines t current := by
  have path : e.base.path current = b.path := congrArg (ForeignType.path current) hb
  exact mem_rows_iff h (path ▸ b.written_path.2) (path ▸ b.written_path.1)

/-- One newtype is declared in the rows of an enumeration on a primitive type: its own, on that
type. -/
theorem newtypeLine_mem_rows {macros : Bool} (h : e.Valid macros) (hb : e.base = .primitive b)
    {name base : String} (hname : Identifier.isIdentifier name = true) :
    (newtypeLine name base).toList ∈ Text.rowsOf (t.prints current (.enumeration e)).toList ↔
      name = e.name ∧ base = b.path := by
  have path : e.base.path current = b.path := congrArg (ForeignType.path current) hb
  rw [mem_rows_of_primitive h hb, newtypeLine_mem_textLines hname h.declarable.1, path]

/-- The values in these rows are those of the members that are there. -/
theorem valueLine_mem_rows {macros : Bool} (h : e.Valid macros) (hb : e.base = .primitive b)
    {name literal : String} (hname : Identifier.isIdentifier name = true) :
    (valueLine name literal).toList ∈ Text.rowsOf (t.prints current (.enumeration e)).toList ↔
      ∃ m ∈ e.members, ∃ native, e.shown? t.defined m = some native ∧ name = m.name ∧
        literal = integer (t.value native) := by
  rw [mem_rows_of_primitive h hb]
  exact valueLine_mem_textLines hname fun m hm => (h.members_valid m hm).declarable.1

/-- The newtype is well typed if its base is a type of integers that has all values. -/
theorem wellTyped_iff {macros : Bool} (h : e.Valid macros) (hb : e.base = .primitive b)
    (hvalues : ∀ m ∈ e.members, ∀ native, e.shown? t.defined m = some native →
      ∃ v, (t.value native).Denotes v) :
    WellTyped (Text.rowsOf (t.prints current (.enumeration e)).toList) ↔
      ∃ type, b.integerType? = some type ∧ ∀ m ∈ e.members, ∀ native,
        e.shown? t.defined m = some native → ∀ v, (t.value native).Denotes v → type.Has v := by
  have enum_name := h.declarable.1
  constructor
  · rintro ⟨type, heads, values⟩
    refine ⟨type, ?_, ?_⟩
    · rw [← IntegerType.ofSpelling?_path]
      exact heads _ _ enum_name ((newtypeLine_mem_rows h hb enum_name).2 ⟨rfl, rfl⟩)
    · intro m hm native shown v hv
      have member_name := (h.members_valid m hm).declarable.1
      -- its row says some number that the type has, and a number has its own digits
      obtain ⟨v', same, has⟩ := values _ _ member_name
        ((valueLine_mem_rows h hb member_name).2 ⟨m, hm, native, shown, rfl, rfl⟩)
      rw [integer_eq hv, toString_inj] at same
      rwa [same]
  · rintro ⟨type, integers, all⟩
    refine ⟨type, ?_, ?_⟩
    · intro name base hname hrow
      obtain ⟨-, rfl⟩ := (newtypeLine_mem_rows h hb hname).1 hrow
      rwa [IntegerType.ofSpelling?_path]
    · intro name literal hname hrow
      obtain ⟨m, hm, native, shown, -, rfl⟩ :=
        (valueLine_mem_rows h hb hname).1 hrow
      obtain ⟨v, hv⟩ := hvalues m hm native shown
      exact ⟨v, integer_eq hv, all m hm native shown v hv⟩

end Enumeration

/-- A directive for an enumeration of macros on a primitive type. -/
def Spec.Directive.events (b : Primitive) : Directive :=
  ⟨"constantenum",
    [.list [.symbol ⟨none, "poll-events"⟩, .keyword "base-type", .keyword b.keyword],
      .list [.symbol ⟨none, "in"⟩, .string "POLLRDNORM", .string "POLLIN"],
      .list [.symbol ⟨none, "msg"⟩, .string "POLLMSG"]], 1⟩

/-- The enumeration that it asks for. -/
def Enumeration.events (b : Primitive) : Enumeration :=
  { name := "poll_events", base := .primitive b, documentation := none, macroMembers := true,
    defineConstants := false,
    members := [⟨"IN", ["POLLRDNORM", "POLLIN"], none, false⟩, ⟨"MSG", ["POLLMSG"], none, false⟩] }

/-- A target with values for its macros. -/
def Target.events : Target :=
  .giving fun native => if native = "POLLMSG" then .unsigned 32768 else .signed 64

/-- All values there are integers of 64 bits. -/
theorem Target.denotes_events (b : Primitive) :
    ∀ m ∈ (Enumeration.events b).members, ∀ native ∈ m.candidates,
      ∃ v, (Target.events.value native).Denotes v := by
  intro m hm native hnative
  rcases List.mem_pair.1 hm with rfl | rfl
  · rcases List.mem_pair.1 hnative with rfl | rfl
    · exact ⟨64, .signed (by decide) (by decide)⟩
    · exact ⟨64, .signed (by decide) (by decide)⟩
  · rw [List.mem_singleton.1 hnative]
    exact ⟨32768, .unsigned (by decide)⟩

namespace Dialect

/-- Every primitive type is accepted as a base. -/
theorem interpret_events (b : Primitive) :
    (ofMode .probe).interpret (Directive.events b) =
      .ok ⟨.constantEnum, 1, .enumeration (Enumeration.events b)⟩ := by
  cases b <;> rfl

/-- **Newtypes of enumerations.** Take an enumeration on a primitive type that is understood, a
target where the macros of its members are integers of 64 bits, and a module. Then the newtype that
is printed has the spelling of that type as its base, and the value of each member that is there is
written in its own digits. The newtype is well typed if and only if the primitive type is one of
integers and has all of these values. -/
theorem newtype_wellTyped_iff {mode : Mode} {d : Directive} {p : Placed}
    (hp : (ofMode mode).interpret d = .ok p) {e : Enumeration} (he : p.entry = .enumeration e)
    {b : Primitive} (hb : e.base = .primitive b) (t : Target) (current : Option String)
    (hvalues : ∀ m ∈ e.members, ∀ native ∈ m.candidates, ∃ v, (t.value native).Denotes v) :
    (newtypeLine e.name b.path).toList ∈ Text.rowsOf (t.prints current p.entry).toList ∧
    (∀ m ∈ e.members, ∀ native, e.shown? t.defined m = some native →
      ∀ v, (t.value native).Denotes v →
        (valueLine m.name (toString v)).toList ∈ Text.rowsOf (t.prints current p.entry).toList) ∧
    (WellTyped (Text.rowsOf (t.prints current p.entry).toList) ↔
      ∃ type, b.integerType? = some type ∧ ∀ m ∈ e.members, ∀ native,
        e.shown? t.defined m = some native → ∀ v, (t.value native).Denotes v → type.Has v) := by
  have valid := entry_valid hp
  rw [he] at valid ⊢
  have h : e.Valid (p.kind == .constantEnum) := valid
  refine ⟨?_, ?_, ?_⟩
  · exact (Enumeration.newtypeLine_mem_rows h hb h.declarable.1).2 ⟨rfl, rfl⟩
  · intro m hm native shown v hv
    have member_name := (h.members_valid m hm).declarable.1
    exact (Enumeration.valueLine_mem_rows h hb member_name).2
      ⟨m, hm, native, shown, rfl, (integer_eq hv).symm⟩
  · exact Enumeration.wellTyped_iff h hb fun m hm native shown =>
      hvalues m hm native (Enumeration.mem_candidates_of_shown? shown)

/-- Unsigned integers of 16 bits have all values of these macros, and signed ones do not. -/
theorem newtype_wellTyped_events :
    (∀ current : Option String, WellTyped (Text.rowsOf
      (Target.events.prints current (.enumeration (Enumeration.events .ushort))).toList)) ∧
    ∀ current : Option String, ¬ WellTyped (Text.rowsOf
      (Target.events.prints current (.enumeration (Enumeration.events .short))).toList) := by
  have low : Target.events.value "POLLRDNORM" = .signed 64 := rfl
  have high : Target.events.value "POLLMSG" = .unsigned 32768 := rfl
  constructor
  · intro current
    obtain ⟨-, -, on_ushort⟩ := newtype_wellTyped_iff (interpret_events .ushort) rfl rfl
      Target.events current (Target.denotes_events .ushort)
    refine on_ushort.2 ⟨⟨false, 16⟩, rfl, ?_⟩
    intro m hm native shown v hv
    rcases List.mem_pair.1 hm with rfl | rfl
    · cases shown
      rw [low] at hv
      cases hv
      decide
    · cases shown
      rw [high] at hv
      cases hv
      decide
  · intro current typed
    obtain ⟨-, -, on_short⟩ := newtype_wellTyped_iff (interpret_events .short) rfl rfl
      Target.events current (Target.denotes_events .short)
    obtain ⟨type, integers, all⟩ := on_short.1 typed
    cases integers
    -- signed integers of 16 bits end right in front of the second value
    have has := all _ (List.mem_of_getElem? (i := 1) rfl) "POLLMSG" rfl 32768
      (.unsigned (by decide))
    exact absurd has (by decide)

/-- Not every newtype that is printed is well typed: its base may be no type of integers. -/
theorem float_newtype :
    ¬ ∀ (mode : Mode) (d : Directive) (p : Placed) (e : Enumeration) (b : Primitive),
      (ofMode mode).interpret d = .ok p → p.entry = .enumeration e → e.base = .primitive b →
        ∀ (t : Target) (current : Option String),
          (∀ m ∈ e.members, ∀ native ∈ m.candidates, ∃ v, (t.value native).Denotes v) →
            WellTyped (Text.rowsOf (t.prints current p.entry).toList) := by
  intro typed
  have values := Target.denotes_events .float
  have understood := interpret_events .float
  have float_typed := typed _ _ _ _ _ understood rfl rfl Target.events none values
  have valid : (Enumeration.events .float).Valid true := entry_valid understood
  obtain ⟨type, integers, -⟩ := (Enumeration.wellTyped_iff valid rfl fun m hm native shown =>
    values m hm native (Enumeration.mem_candidates_of_shown? shown)).1 float_typed
  cases integers

end Dialect

end ForeignBindings
