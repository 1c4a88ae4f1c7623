import ForeignBindings.Proofs.Newtypes

/-!
# Values of constants

A constant of integer type is declared with one of two types of 64 bits, and a member of an
enumeration by its value alone. In C either value is a word, read with or without a sign, and so is
the bound that it is compared with: a signed word becomes unsigned where the other one is.

* `CWord` is such a word, `CWord.atMost` the comparison, and `CWord.fitsSigned_native` says that a
  value fits where the comparison says so.
* `Spec.IsDecimal` says which integer decimal digits denote.
* `ProbeOutput.constant_of_denotes` and `ProbeOutput.enumMember_of_denotes` say how a value is
  printed.
* `Enumeration.enumMember_mem_calls_iff` says that the members that are printed are the constants
  that are.
* `values_printed` puts these together.
-/

namespace ForeignBindings

open Spec ProbeOutput

/-! ## Words of C -/

/-- An integer of 64 bits in C: a word, and how it is read. -/
structure CWord where
  isSigned : Bool
  word : BitVec 64
deriving DecidableEq

namespace CWord

/-- The integer that the word stands for. -/
def value (x : CWord) : Int :=
  if x.isSigned then x.word.toInt else x.word.toNat

/-- The word as a helper is given it. -/
def native (x : CWord) : NativeValue :=
  if x.isSigned then .signed x.word.toInt else .unsigned x.word.toNat

/-- One word is at most another one. Both are read with a sign only if both have one. -/
def atMost (x y : CWord) : Bool :=
  if x.isSigned && y.isSigned then x.word.sle y.word else x.word.ule y.word

/-- The largest signed integer. -/
def limit : CWord :=
  ⟨true, 0x7FFFFFFFFFFFFFFF#64⟩

variable (x : CWord)

/-- A value fits the signed type where the word is at most the largest signed one. A negative one
does, since it is compared with a sign, and an unsigned one does not only for its highest bit. -/
theorem fitsSigned_native : x.native.fitsSigned = x.atMost limit := by
  obtain ⟨isSigned, word⟩ := x
  cases isSigned with
  | true =>
    -- both words have a sign and keep it
    show decide (word.toInt < Word.half) = word.sle 0x7FFFFFFFFFFFFFFF#64
    have bound : (0x7FFFFFFFFFFFFFFF#64).toInt = 9223372036854775807 := by decide
    have half : (Word.half : Int) = 9223372036854775808 := rfl
    rw [BitVec.sle_eq_decide, bound, half, decide_eq_decide]
    omega
  | false =>
    -- the bound loses its sign, which changes nothing since it is positive
    show decide (word.toNat < Word.half) = word.ule 0x7FFFFFFFFFFFFFFF#64
    have bound : (0x7FFFFFFFFFFFFFFF#64).toNat = 9223372036854775807 := rfl
    have half : Word.half = 9223372036854775808 := rfl
    rw [BitVec.ule_eq_decide, bound, half, decide_eq_decide]
    omega

/-- Made signed, a value is its word read with a sign. -/
theorem toSigned_native : x.native.toSigned = x.word.toInt := by
  obtain ⟨isSigned, word⟩ := x
  cases isSigned with
  | true => rfl
  | false => exact word.toInt_eq_toNat_bmod.symm

/-- Made unsigned, a value is its word read without a sign. -/
theorem toUnsigned_native : x.native.toUnsigned = x.word.toNat := by
  obtain ⟨isSigned, word⟩ := x
  cases isSigned with
  | true =>
    show (word.toInt % Word.count).toNat = word.toNat
    have count : (Word.count : Int) = (2 ^ 64 : Nat) := rfl
    have small := word.isLt
    rw [count, BitVec.toInt_eq_toNat_bmod, Int.bmod_emod]
    omega
  | false => rfl

/-- A value is an integer of its type. -/
theorem denotes_native : x.native.Denotes x.value := by
  obtain ⟨isSigned, word⟩ := x
  cases isSigned with
  | true =>
    have low := word.le_toInt
    have high := word.toInt_lt
    exact .signed low high
  | false => exact .unsigned word.isLt

end CWord

/-! ## Decimal digits -/

namespace Spec

/-- Decimal digits, behind a minus sign perhaps, and the integer that they denote. -/
inductive IsDecimal : List Char → Int → Prop where
  | natural {cs : List Char} (hne : cs ≠ []) (h : ∀ d ∈ cs, digitOf d < 10) :
    IsDecimal cs (positional 10 cs)
  | minus {cs : List Char} (hne : cs ≠ []) (h : ∀ d ∈ cs, digitOf d < 10) :
    IsDecimal ('-' :: cs) (-positional 10 cs)

/-- The same digits denote one integer only. -/
theorem IsDecimal.unique {cs : List Char} {v v' : Int} (h : IsDecimal cs v)
    (h' : IsDecimal cs v') : v = v' := by
  have sign : ¬ digitOf '-' < 10 := by decide
  -- no digit is a minus sign, so both sides are of one form
  cases h with
  | natural hne digits =>
    cases h' with
    | natural => rfl
    | minus => exact absurd (digits '-' (List.mem_cons_self ..)) sign
  | minus hne digits =>
    cases h' with
    | natural _ unsigned => exact absurd (unsigned '-' (List.mem_cons_self ..)) sign
    | minus => rfl

theorem isDecimal_toString (v : Int) : IsDecimal (toString v).toList v := by
  have written (n : Nat) : (toString n).toList ≠ [] := by
    rw [Nat.toString_eq_repr, Nat.toList_repr]
    exact Nat.toDigits_ne_nil
  have digits (n : Nat) : (∀ d ∈ (toString n).toList, digitOf d < 10) ∧
      positional 10 (toString n).toList = n := by
    rw [Nat.toString_eq_repr, Nat.toList_repr]
    exact digits_toDigits n
  rw [Int.toString_eq_repr]
  cases v with
  | ofNat n =>
    have denotes := IsDecimal.natural (written n) (digits n).1
    rw [(digits n).2] at denotes
    exact denotes
  | negSucc n =>
    have letters : (Int.negSucc n).repr.toList = '-' :: (toString (n + 1)).toList :=
      String.toList_append
    have denotes := IsDecimal.minus (written (n + 1)) (digits (n + 1)).1
    rw [(digits (n + 1)).2] at denotes
    rw [letters, Int.negSucc_eq]
    exact denotes

end Spec

/-! ## Printed values -/

namespace NativeValue

theorem fitsSigned_iff {x : NativeValue} {v : Int} (h : x.Denotes v) :
    x.fitsSigned = true ↔ v < Word.half := by
  cases h with
  | signed => exact decide_eq_true_iff
  | unsigned => exact decide_eq_true_iff.trans Int.ofNat_lt.symm

end NativeValue

namespace ProbeOutput

/-- The type of 64 bits that a value is declared with. -/
def wordType (v : Int) : String :=
  if v < 2 ^ 63 then "i64" else "u64"

/-- That type has the value. -/
theorem has_wordType {x : NativeValue} {v : Int} (h : x.Denotes v) :
    ∃ type, IntegerType.ofSpelling? (wordType v) = some type ∧ type.Has v := by
  have half : (Word.half : Int) = 2 ^ 63 := rfl
  have count : (Word.count : Int) = 2 ^ 64 := rfl
  have range : -2 ^ 63 ≤ v ∧ v < 2 ^ 64 := by
    cases h <;> omega
  unfold wordType
  split
  · rename_i small
    exact ⟨⟨true, 64⟩, rfl, range.1, small⟩
  · rename_i large
    have natural : 0 ≤ v := by omega
    exact ⟨⟨false, 64⟩, rfl, natural, range.2⟩

/-- A constant is declared with the type that has its value, by its digits. -/
theorem constant_of_denotes {x : NativeValue} {v : Int} (h : x.Denotes v) (name : String)
    (doc : Option String) :
    constant name x doc = documentation "" doc ++ "pub const " ++ upToNul name ++ ": " ++
      wordType v ++ " = " ++ toString v ++ ";\n\n" := by
  have half : (Word.half : Int) = 2 ^ 63 := rfl
  have fits := NativeValue.fitsSigned_iff h
  have digits := integer_eq h
  rw [half] at fits
  -- the type is chosen by the same test as the sign of the digits
  unfold integer at digits
  unfold constant wordType
  by_cases small : v < 2 ^ 63
  · rw [if_pos (fits.2 small)] at digits ⊢
    rw [if_pos small, digits]
    simp only [String.append_assoc]
    rfl
  · rw [if_neg fun h => small (fits.1 h)] at digits ⊢
    rw [if_neg small, digits]
    simp only [String.append_assoc]
    rfl

/-- A member of an enumeration has the same digits. -/
theorem enumMember_of_denotes {x : NativeValue} {v : Int} (h : x.Denotes v) (name : String)
    (doc : Option String) :
    enumMember name x doc = documentation "    " doc ++ "    pub const " ++ upToNul name ++
      ": Self = Self(" ++ toString v ++ ");\n" := by
  rw [enumMember, integer_eq h]

end ProbeOutput

/-! ## Members and constants -/

namespace Enumeration

variable {e : Enumeration} {defined : String → Bool} {current : Option String}
  {name native : String} {doc : Option String}

theorem constant_not_mem_memberCalls {type : NumberType} (m : Member) :
    ProbeCall.constant type name native doc ∉ e.memberCalls defined m := by
  rw [memberCalls_eq]
  cases e.shown? defined m with
  | some shown => simp
  | none =>
    dsimp only
    split <;> simp

theorem enumMember_not_mem_constantCalls (m : Member) :
    ProbeCall.enumMember name native doc ∉ m.constantCalls defined := by
  simp [Member.constantCalls]

theorem enumMember_mem_memberCalls {m : Member} :
    .enumMember name native doc ∈ e.memberCalls defined m ↔
      e.shown? defined m = some native ∧ m.name = name ∧ m.documentation = doc := by
  rw [memberCalls_eq]
  cases e.shown? defined m with
  | some shown =>
    rw [List.mem_singleton, ProbeCall.enumMember.injEq, Option.some.injEq]
    constructor
    · rintro ⟨rfl, rfl, rfl⟩
      exact ⟨rfl, rfl, rfl⟩
    · rintro ⟨rfl, rfl, rfl⟩
      exact ⟨rfl, rfl, rfl⟩
  | none =>
    dsimp only
    split <;> simp

theorem constant_mem_constantCalls {m : Member} :
    .constant .integer name native doc ∈ m.constantCalls defined ↔
      m.candidates.find? defined = some native ∧ m.name = name ∧ m.documentation = doc := by
  unfold Member.constantCalls
  cases m.candidates.find? defined with
  | some shown =>
    rw [Option.toList_some, List.map_singleton, List.mem_singleton, ProbeCall.constant.injEq,
      Option.some.injEq]
    constructor
    · rintro ⟨-, rfl, rfl, rfl⟩
      exact ⟨rfl, rfl, rfl⟩
    · rintro ⟨rfl, rfl, rfl⟩
      exact ⟨rfl, rfl, rfl, rfl⟩
  | none => simp

/-- An enumeration that declares constants too declares one for each member that is there, by the
same macro. -/
theorem enumMember_mem_calls_iff {macros : Bool} (h : e.Valid macros)
    (hconstants : e.defineConstants = true) :
    .enumMember name native doc ∈ e.calls defined current ↔
      .constant .integer name native doc ∈ e.calls defined current := by
  have macro_members : e.macroMembers = true := by
    rw [h.macroMembers_eq]
    exact h.macros_of_defineConstants hconstants
  -- of both kinds of calls, those of the other kind may be left out
  have member : .enumMember name native doc ∈ e.calls defined current ↔
      ∃ m ∈ e.members, .enumMember name native doc ∈ e.memberCalls defined m := by
    simp [calls, hconstants, List.mem_flatMap, enumMember_not_mem_constantCalls]
  have constant : .constant .integer name native doc ∈ e.calls defined current ↔
      ∃ m ∈ e.members, .constant .integer name native doc ∈ m.constantCalls defined := by
    simp [calls, hconstants, List.mem_flatMap, constant_not_mem_memberCalls]
  rw [member, constant]
  simp only [enumMember_mem_memberCalls, constant_mem_constantCalls, shown?, macro_members,
    if_true]

end Enumeration

/-- **Printed values.** Take any word of 64 bits, read with or without a sign. It fits the signed
type where the comparison of C says so, and made signed or unsigned it is the word read with or
without a sign. A constant and a member of an enumeration print it in the same decimal digits, which
denote its value and no other. The constant is declared with the signed type if the value is less
than `2 ^ 63` and with the unsigned one if not, and that type has it. Where an enumeration declares
constants too, a member is printed by a macro if and only if a constant is, so their values are
equal. -/
theorem values_printed :
    (∀ (x : CWord) (name : String) (doc : Option String),
      x.native.fitsSigned = x.atMost .limit ∧ x.native.toSigned = x.word.toInt ∧
      x.native.toUnsigned = x.word.toNat ∧
      ∃ type digits,
        ProbeOutput.constant name x.native doc = documentation "" doc ++
          "pub const " ++ upToNul name ++ ": " ++ type ++ " = " ++ digits ++ ";\n\n" ∧
        ProbeOutput.enumMember name x.native doc = documentation "    " doc ++
          "    pub const " ++ upToNul name ++ ": Self = Self(" ++ digits ++ ");\n" ∧
        (∀ v, IsDecimal digits.toList v ↔ v = x.value) ∧
        type = (if x.value < 2 ^ 63 then "i64" else "u64") ∧
        ∃ range, IntegerType.ofSpelling? type = some range ∧ range.Has x.value) ∧
    ∀ (mode : Mode) (d : Directive) (p : Placed) (e : Enumeration),
      (Dialect.ofMode mode).interpret d = .ok p → p.entry = .enumeration e →
      e.defineConstants = true →
      ∀ (t : Target) (current : Option String) (name native : String) (doc : Option String),
        .enumMember name native doc ∈ p.entry.calls t.defined current ↔
          .constant .integer name native doc ∈ p.entry.calls t.defined current := by
  constructor
  · intro x name doc
    have denotes := x.denotes_native
    refine ⟨x.fitsSigned_native, x.toSigned_native, x.toUnsigned_native, wordType x.value,
      toString x.value, constant_of_denotes denotes name doc,
      enumMember_of_denotes denotes name doc, ?_, rfl, has_wordType denotes⟩
    intro v
    constructor
    · exact fun h => h.unique (isDecimal_toString x.value)
    · rintro rfl
      exact isDecimal_toString _
  · intro mode d p e hp he hconstants t current name native doc
    have valid := Dialect.entry_valid hp
    rw [he] at valid ⊢
    have h : e.Valid (p.kind == .constantEnum) := valid
    exact Enumeration.enumMember_mem_calls_iff h hconstants

/-- An enumeration that declares constants too, of one member that goes by two macros. -/
def mostDirective : Directive :=
  ⟨"constantenum",
    [.list [.symbol ⟨none, "limits"⟩, .keyword "define-constants", .symbol ⟨none, "true"⟩],
      .list [.symbol ⟨none, "most"⟩, .string "ULLONG_MAX", .string "ULONG_LONG_MAX"]], 1⟩

/-- The entry that it asks for. -/
def mostEntry : Placed :=
  ⟨.constantEnum, 1, .enumeration
    { name := "limits", base := .primitive .int, documentation := none, macroMembers := true,
      defineConstants := true,
      members := [⟨"MOST", ["ULLONG_MAX", "ULONG_LONG_MAX"], none, false⟩] }⟩

/-- Of the largest unsigned integer, both lines have the same digits. -/
theorem values_printed_most :
    (∃ digits, IsDecimal digits.toList 18446744073709551615 ∧
      ProbeOutput.constant "MOST" (CWord.native ⟨false, 0xFFFFFFFFFFFFFFFF#64⟩) none =
        "pub const MOST: u64 = " ++ digits ++ ";\n\n" ∧
      ProbeOutput.enumMember "MOST" (CWord.native ⟨false, 0xFFFFFFFFFFFFFFFF#64⟩) none =
        "    pub const MOST: Self = Self(" ++ digits ++ ");\n") ∧
    (Dialect.ofMode .probe).interpret mostDirective = .ok mostEntry ∧
    ∀ t : Target, .enumMember "MOST" "ULLONG_MAX" none ∈ mostEntry.entry.calls t.defined none ↔
      .constant .integer "MOST" "ULLONG_MAX" none ∈ mostEntry.entry.calls t.defined none := by
  obtain ⟨printed, paired⟩ := values_printed
  have understood : (Dialect.ofMode .probe).interpret mostDirective = .ok mostEntry := rfl
  refine ⟨?_, understood, ?_⟩
  · obtain ⟨-, -, -, type, digits, constant, member, denotes, type_eq, -⟩ :=
      printed ⟨false, 0xFFFFFFFFFFFFFFFF#64⟩ "MOST" none
    have unsigned : type = "u64" := by
      rw [type_eq]
      decide
    rw [unsigned] at constant
    refine ⟨digits, (denotes _).2 rfl, ?_, ?_⟩
    · exact constant
    · exact member
  · exact fun t => paired .probe mostDirective mostEntry _ understood rfl rfl t none "MOST"
      "ULLONG_MAX" none

example : ProbeOutput.constant "LEAST" (CWord.native ⟨true, 0x8000000000000000#64⟩) none =
    "pub const LEAST: i64 = -9223372036854775808;\n\n" := by
  decide +kernel

example : ProbeOutput.constant "HALF" (CWord.native ⟨false, 0x8000000000000000#64⟩) none =
    "pub const HALF: u64 = 9223372036854775808;\n\n" := by
  decide +kernel

end ForeignBindings
