import ForeignBindings.Proofs.Notices
import ForeignBindings.Proofs.Numerals
import ForeignBindings.Proofs.Sessions

/-!
# Targets

A probe asks the system that it runs on for sizes, offsets and the values of macros, so what its
helper calls print depends on that system.

* `Target` is what such a system answers. A numeral has its own value on all of them.
* `Target.printed` is what one helper call prints there, and `Target.prints` what an entry prints.
* `NativeValue.Denotes` says that a value is an integer of one of the two 64-bit types, and
  `ProbeOutput.integer_eq` that such an integer is printed in its own digits.
-/

namespace ForeignBindings

/-! ## Integers of 64 bits -/

namespace NativeValue

/-- The value of an integer that C reads: of the signed type, if that has it. -/
def ofNat (n : Nat) : NativeValue :=
  if n < Word.half then signed n else unsigned n

/-- The value is an integer of one of the two 64-bit types. -/
inductive Denotes : NativeValue → Int → Prop where
  | signed {v : Int} (hlow : -(Word.half : Int) ≤ v) (hhigh : v < Word.half) :
    Denotes (.signed v) v
  | unsigned {n : Nat} (h : n < Word.count) : Denotes (.unsigned n) n

/-- The signed integer with the same bits as an unsigned one. -/
theorem bmod_count {n : Nat} (h : n < Word.count) :
    (n : Int).bmod Word.count = if n < Word.half then (n : Int) else n - Word.count := by
  have in_range : (n : Int) % Word.count = n := Int.emod_eq_of_lt (by omega) (by omega)
  rw [Int.bmod_def, in_range]
  -- the middle of all words is where the signed ones end
  have middle : ((Word.count : Int) + 1) / 2 = Word.half := rfl
  rw [middle]
  split <;> split <;> omega

/-- As a signed integer, a value that the signed type does not have becomes another one. -/
theorem toSigned_ofNat {n : Nat} (h : n < Word.count) :
    (ofNat n).toSigned = if n < Word.half then (n : Int) else n - Word.count := by
  unfold ofNat
  split
  · rfl
  · rename_i large
    have wrapped := bmod_count h
    rw [if_neg large] at wrapped
    exact wrapped

end NativeValue

/-- **Printed integers.** An integer of either 64-bit type is printed in its own digits. -/
theorem ProbeOutput.integer_eq {x : NativeValue} {v : Int} (h : x.Denotes v) :
    integer x = toString v := by
  unfold integer
  cases h with
  | signed hlow hhigh =>
    rw [if_pos (by simpa [NativeValue.fitsSigned] using hhigh)]
    rfl
  | unsigned hn =>
    rename_i n
    -- only one that the signed type has is made signed, and that keeps its value
    by_cases small : n < Word.half
    · have same : (NativeValue.unsigned n).toSigned = n := by
        have wrapped := NativeValue.bmod_count hn
        rw [if_pos small] at wrapped
        exact wrapped
      rw [if_pos (by simpa [NativeValue.fitsSigned] using small), same]
    · rw [if_neg (by simpa [NativeValue.fitsSigned] using small)]
      rfl

/-- A helper is given all of an identifier. -/
theorem Identifier.upToNul_eq {name : String} (h : isIdentifier name = true) :
    ProbeOutput.upToNul name = name :=
  ProbeOutput.upToNul_eq fun nul => absurd (isContinue_of_mem h _ nul) (by decide)

/-! ## Targets -/

/-- What the system that a probe runs on answers. -/
structure Target where
  /-- The macro is defined. -/
  defined : String → Bool
  /-- The value of a C expression. -/
  value : String → NativeValue
  /-- The size of a native type. -/
  size : String → Nat
  align : String → Nat
  isSigned : String → Bool
  /-- The offset of a field in a record. -/
  offset : String → String → Nat
  /-- The size of one element of a field in a record. -/
  elementSize : String → String → Nat
  /-- A numeral is what it denotes. -/
  value_numeral : ∀ text n, Spec.IsNumeral text.toList n → n < Word.count →
    value text = NativeValue.ofNat n

namespace Target

variable (t : Target)

/-- Where a slot starts, if the slots of the record start at different places. -/
def offset? (kind : Layout) (record field : String) : Option Nat :=
  match kind with
  | .struct => some (t.offset record field)
  | .union => none

/-- How many elements a slot has: the value of the argument that says so, as a signed integer, or
else as many as there is room for. -/
def elements (kind : Layout) (record field : String) (count : ElementCount) : Int :=
  match ProbeCall.countArguments count with
  | argument :: _ => (t.value argument).toSigned
  | [] =>
    let room := t.size record - (t.offset? kind record field).getD 0
    (NativeValue.unsigned (room / t.elementSize record field)).toSigned

/-- What a helper call prints into the bindings. -/
def printed : ProbeCall → String
  | .constant .integer name native doc => ProbeOutput.constant name (t.value native) doc
  | .constant .double name native doc => ProbeOutput.constantDouble name (t.value native) doc
  | .missing name => ProbeOutput.missing name
  | .intAlias name native doc =>
    ProbeOutput.intAlias name (t.size native) (t.isSigned native) doc
  | .recordBegin _ name native doc =>
    ProbeOutput.recordBegin name (t.size native) (t.align native) doc
  | .slot kind record field name type count =>
    ProbeOutput.slotInfo name type (t.offset? kind record field)
      (t.elements kind record field count)
  | .enumBegin name base doc => ProbeOutput.enumBegin name base doc
  | .enumMember name native doc => ProbeOutput.enumMember name (t.value native) doc
  | .recordEnd | .enumEnd | .namespaceEnd => ProbeOutput.blockEnd
  | .namespaceBegin name => ProbeOutput.namespaceBegin name

/-- What an entry prints in a module, or at the root. -/
def prints (current : Option String) (e : Entry) : String :=
  String.join ((e.calls t.defined current).map t.printed)

/-- The digits that a number is written with have its value. -/
theorem value_toString {n : Nat} (h : n < Word.count) :
    t.value (toString n) = NativeValue.ofNat n :=
  t.value_numeral _ _ (Spec.isNumeral_toString n) h

/-- A target where every macro is defined, and all that is no numeral has a given value. -/
def giving (values : String → NativeValue) : Target where
  defined _ := true
  value text :=
    let (radix, digits) := Spec.radixOf text.toList
    match Spec.magnitude? radix digits with
    | some n => NativeValue.ofNat n
    | none => values text
  size _ := 8
  align _ := 8
  isSigned _ := true
  offset _ _ := 0
  elementSize _ _ := 1
  value_numeral text n h _ := by
    dsimp only
    rw [Spec.magnitude?_radixOf.2 h]

end Target

end ForeignBindings
