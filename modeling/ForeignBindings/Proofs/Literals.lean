import Mathlib.Data.List.Chain
import Mathlib.Tactic.SplitIfs
import ForeignBindings.Text.Quoted

/-!
# C literals read back

A compiler reads a literal part by part: a character that stands for itself, or a backslash and an
escape. An octal escape takes as many digits as follow, up to three, so what an escape stands for
can depend on the character behind it.

* `readLiteral` reads a literal at the start of a text, by the rules of C.
* `ByteSpelling` says how a byte is written, and `byteSpelling_cByte` that every byte is written so.
* `ByteSpelling.readPart_append` is one step of the reader: it takes up one byte, whatever follows.
* `cLiteral_read_back` says that a text, written as a literal, is read as its bytes.
-/

namespace ForeignBindings.Text

/-! ## Reading a literal -/

/-- A part of a C literal, which stands for one byte. -/
inductive LiteralPart where
  /-- A character that stands for itself. -/
  | plain (c : Char)
  | escape (b : UInt8)
deriving Repr, DecidableEq

/-- The byte that a part stands for. -/
def LiteralPart.byte : LiteralPart → UInt8
  | plain c => UInt8.ofNat c.toNat
  | escape b => b

/-- The simple escapes: the character behind the backslash, and the byte. -/
def simpleEscapes : List (Char × UInt8) :=
  [('"', 34), (Char.ofNat 39, 39), ('?', 63), ('\\', 92), ('a', 7), ('b', 8), ('f', 12), ('n', 10),
    ('r', 13), ('t', 9), ('v', 11)]

/-- A digit of an octal escape. -/
def isOctalDigit (c : Char) : Bool :=
  '0' ≤ c && c ≤ '7'

/-- The number that octal digits denote. -/
def octalValue (digits : List Char) : Nat :=
  digits.foldl (fun n c => 8 * n + (c.toNat - '0'.toNat)) 0

/-- The byte of an escape behind its backslash, and what follows it. Octal digits belong to the
escape as far as they go, but no more than three of them. -/
def readEscape (cs : List Char) : Option (UInt8 × List Char) :=
  let digits := (cs.take 3).takeWhile isOctalDigit
  if digits.isEmpty then
    (cs.head?.bind fun c => simpleEscapes.lookup c).map fun b => (b, cs.tail)
  else if octalValue digits < 256 then
    some (UInt8.ofNat (octalValue digits), cs.drop digits.length)
  else none

/-- A character that stands for itself in a literal: it can be printed, and is neither a quote nor
a backslash. -/
def isPlain (c : Char) : Bool :=
  ' ' ≤ c && c ≤ '~' && c != '"' && c != '\\'

/-- The first part of a literal behind its opening quote, and what follows it. -/
def readPart : List Char → Option (LiteralPart × List Char)
  | [] => none
  | c :: cs =>
    if c = '\\' then (readEscape cs).map fun (b, rest) => (.escape b, rest)
    else if isPlain c then some (.plain c, cs)
    else none

theorem readEscape_shorter {cs rest : List Char} {b : UInt8}
    (h : readEscape cs = some (b, rest)) : rest.length ≤ cs.length := by
  simp only [readEscape] at h
  split_ifs at h
  · obtain ⟨b', -, heq⟩ := Option.map_eq_some_iff.1 h
    cases heq
    simp
  · cases h
    simp

theorem readPart_shorter {cs rest : List Char} {p : LiteralPart}
    (h : readPart cs = some (p, rest)) : rest.length < cs.length := by
  cases cs with
  | nil => cases h
  | cons c cs =>
    rw [List.length_cons, Nat.lt_succ_iff]
    rw [readPart] at h
    split_ifs at h
    · obtain ⟨⟨b, rest'⟩, hescape, heq⟩ := Option.map_eq_some_iff.1 h
      cases heq
      exact readEscape_shorter hescape
    · cases h
      exact Nat.le_refl _

/-- The parts of a literal behind its opening quote, up to the closing one, and what follows it. -/
def readParts (cs : List Char) : Option (List LiteralPart × List Char) :=
  if cs.head? = some '"' then some ([], cs.tail)
  else
    match h : readPart cs with
    | none => none
    | some (p, rest) =>
      have : rest.length < cs.length := readPart_shorter h
      (readParts rest).map fun (ps, last) => (p :: ps, last)
termination_by cs.length

/-- The parts of a literal at the start of a text, and what follows the literal. -/
def readLiteral : List Char → Option (List LiteralPart × List Char)
  | '"' :: cs => readParts cs
  | _ => none

theorem readParts_of_quote (rest : List Char) : readParts ('"' :: rest) = some ([], rest) := by
  rw [readParts]
  rfl

/-- A part in front of others. -/
theorem readParts_of_part {cs rest last : List Char} {p : LiteralPart} {ps : List LiteralPart}
    (hquote : cs.head? ≠ some '"') (hfirst : readPart cs = some (p, rest))
    (hrest : readParts rest = some (ps, last)) : readParts cs = some (p :: ps, last) := by
  rw [readParts, if_neg hquote]
  split
  · rename_i hnone
    rw [hfirst] at hnone
    cases hnone
  · rename_i p' rest' hsome
    rw [hfirst] at hsome
    cases hsome
    rw [hrest]
    rfl

/-! ## Bytes -/

/-- How a byte can be written: as a character that stands for itself, behind a backslash, or in
three octal digits. No question mark stands for itself. -/
inductive ByteSpelling (b : UInt8) : List Char → Prop
  | plain (c : Char) (hplain : isPlain c = true) (hmark : c ≠ '?')
    (hbyte : UInt8.ofNat c.toNat = b) : ByteSpelling b [c]
  | simple (c : Char) (hdigit : isOctalDigit c = false) (hbyte : simpleEscapes.lookup c = some b) :
    ByteSpelling b ['\\', c]
  | octal (c d e : Char) (hc : isOctalDigit c = true) (hd : isOctalDigit d = true)
    (he : isOctalDigit e = true) (hvalue : octalValue [c, d, e] = b.toNat) :
    ByteSpelling b ['\\', c, d, e]

/-- A digit below eight is an octal digit of that value. -/
theorem isOctalDigit_digitChar {k : Nat} (h : k < 8) :
    isOctalDigit (Nat.digitChar k) = true ∧ (Nat.digitChar k).toNat - '0'.toNat = k := by
  have each : ∀ k < 8,
      isOctalDigit (Nat.digitChar k) = true ∧ (Nat.digitChar k).toNat - '0'.toNat = k := by decide
  exact each k h

/-- Three octal digits are enough for a byte. -/
theorem octalValue_octalDigits {n : Nat} (h : n < 256) : octalValue (octalDigits n) = n := by
  have first := (isOctalDigit_digitChar (k := n / 64 % 8) (by omega)).2
  have second := (isOctalDigit_digitChar (k := n / 8 % 8) (by omega)).2
  have third := (isOctalDigit_digitChar (k := n % 8) (by omega)).2
  simp only [octalValue, octalDigits, List.foldl_cons, List.foldl_nil, first, second, third]
  omega

/-- A printable byte that no escape is made for stands for itself. -/
theorem isPlain_ofNat {n : Nat} (h : 32 ≤ n ∧ n ≤ 126) (hquote : n ≠ 34) (hbackslash : n ≠ 92)
    (hmark : n ≠ 63) :
    isPlain (Char.ofNat n) = true ∧ Char.ofNat n ≠ '?' ∧ (Char.ofNat n).toNat = n := by
  -- there are few enough bytes to look at each of them
  have each : ∀ n < 127, 32 ≤ n ∧ n ≠ 34 ∧ n ≠ 92 ∧ n ≠ 63 →
      isPlain (Char.ofNat n) = true ∧ Char.ofNat n ≠ '?' ∧ (Char.ofNat n).toNat = n := by
    decide +kernel
  exact each n (by omega) ⟨h.1, hquote, hbackslash, hmark⟩

theorem byteSpelling_cByte (b : UInt8) : ByteSpelling b (cByte b) := by
  unfold cByte
  split_ifs with quote backslash newline tab mark printable
  · exact .simple '"' (by decide) (by rw [quote]; rfl)
  · exact .simple '\\' (by decide) (by rw [backslash]; rfl)
  · exact .simple 'n' (by decide) (by rw [newline]; rfl)
  · exact .simple 't' (by decide) (by rw [tab]; rfl)
  · exact .simple '?' (by decide) (by rw [mark]; rfl)
  · have in_range : 32 ≤ b.toNat ∧ b.toNat ≤ 126 := by
      simpa [UInt8.le_iff_toNat_le] using printable
    rw [← UInt8.toNat_inj] at quote backslash mark
    obtain ⟨plain, no_mark, same⟩ := isPlain_ofNat in_range quote backslash mark
    exact .plain _ plain no_mark (by rw [same, UInt8.ofNat_toNat])
  · have first := (isOctalDigit_digitChar (k := b.toNat / 64 % 8) (by omega)).1
    have second := (isOctalDigit_digitChar (k := b.toNat / 8 % 8) (by omega)).1
    have third := (isOctalDigit_digitChar (k := b.toNat % 8) (by omega)).1
    exact .octal _ _ _ first second third (octalValue_octalDigits b.toNat_lt)

namespace ByteSpelling

variable {b : UInt8} {cs : List Char}

/-- The spelling is printable. -/
theorem printable (h : ByteSpelling b cs) : ∀ c ∈ cs, ' ' ≤ c ∧ c ≤ '~' := by
  have backslash : ' ' ≤ '\\' ∧ '\\' ≤ '~' := by decide
  have digit : ∀ c, isOctalDigit c = true → ' ' ≤ c ∧ c ≤ '~' := by
    intro c hc
    simp only [isOctalDigit, Bool.and_eq_true, decide_eq_true_eq] at hc
    exact ⟨Char.le_trans (by decide) hc.1, Char.le_trans hc.2 (by decide)⟩
  intro x hx
  cases h with
  | plain c hplain hmark hbyte =>
    rw [List.mem_singleton.1 hx]
    simp only [isPlain, Bool.and_eq_true, decide_eq_true_eq] at hplain
    exact hplain.1.1
  | simple c hdigit hbyte =>
    have table : ∀ e ∈ simpleEscapes, ' ' ≤ e.1 ∧ e.1 ≤ '~' := by decide
    obtain ⟨before, after, split, -⟩ := List.lookup_eq_some_iff.1 hbyte
    simp only [List.mem_cons, List.not_mem_nil, or_false] at hx
    rcases hx with rfl | rfl
    · exact backslash
    · exact table (x, b) (by simp [split])
  | octal c d e hc hd he hvalue =>
    simp only [List.mem_cons, List.not_mem_nil, or_false] at hx
    rcases hx with rfl | rfl | rfl | rfl
    · exact backslash
    · exact digit _ hc
    · exact digit _ hd
    · exact digit _ he

/-- A question mark stands behind a backslash, and no spelling starts with one. -/
theorem marks_escaped (h : ByteSpelling b cs) :
    cs.IsChain (fun c d => d = '?' → c = '\\') ∧ cs.head? ≠ some '?' := by
  have digit : ∀ c, isOctalDigit c = true → c ≠ '?' := by
    rintro c hc rfl
    cases hc
  cases h with
  | plain c hplain hmark hbyte => simp [hmark]
  | simple c hdigit hbyte => simp
  | octal c d e hc hd he hvalue => simp [digit d hd, digit e he]

/-- A quote at the start of a spelling would end the literal. -/
theorem head?_ne_quote (h : ByteSpelling b cs) (rest : List Char) :
    (cs ++ rest).head? ≠ some '"' := by
  cases h with
  | plain c hplain hmark hbyte =>
    intro hquote
    cases hquote
    cases hplain
  | simple c hdigit hbyte => simp
  | octal c d e hc hd he hvalue => simp

/-- **One step of the reader.** Whatever follows, a byte is read back, and nothing of what follows
is taken for a part of it. -/
theorem readPart_append (h : ByteSpelling b cs) (rest : List Char) :
    ∃ p, readPart (cs ++ rest) = some (p, rest) ∧ p.byte = b ∧ p ≠ .plain '?' := by
  cases h with
  | plain c hplain hmark hbyte =>
    have not_backslash : c ≠ '\\' := by
      rintro rfl
      cases hplain
    refine ⟨.plain c, ?_, hbyte, ?_⟩
    · rw [List.singleton_append, readPart, if_neg not_backslash, if_pos hplain]
    · intro h
      cases h
      exact hmark rfl
  | simple c hdigit hbyte =>
    refine ⟨.escape b, ?_, rfl, nofun⟩
    have no_digits : ((c :: rest).take 3).takeWhile isOctalDigit = [] := by
      rw [List.take_succ_cons, List.takeWhile_cons_of_neg (by simp [hdigit])]
    have escape : readEscape (c :: rest) = some (b, rest) := by
      rw [readEscape, no_digits]
      show (simpleEscapes.lookup c).map _ = _
      rw [hbyte]
      rfl
    show readPart ('\\' :: c :: rest) = _
    rw [readPart, if_pos rfl, escape]
    rfl
  | octal c d e hc hd he hvalue =>
    refine ⟨.escape b, ?_, rfl, nofun⟩
    -- three digits are all that an escape can have, also where more of them follow
    have digits : ((c :: d :: e :: rest).take 3).takeWhile isOctalDigit = [c, d, e] := by
      simp [hc, hd, he]
    have escape : readEscape (c :: d :: e :: rest) = some (b, rest) := by
      simp only [readEscape]
      rw [digits, if_neg (by simp), hvalue, if_pos b.toNat_lt, UInt8.ofNat_toNat]
      rfl
    show readPart ('\\' :: c :: d :: e :: rest) = _
    rw [readPart, if_pos rfl, escape]
    rfl

end ByteSpelling

/-! ## Texts -/

/-- The bytes of a text, in UTF-8. -/
def bytes (s : String) : List UInt8 :=
  s.toUTF8.data.toList

theorem bytes_injective {s t : String} (h : bytes s = bytes t) : s = t :=
  String.toByteArray_inj.1 (ByteArray.ext (Array.toList_inj.1 h))

/-- Bytes between quotes are read one by one, up to the closing quote. -/
theorem readParts_cBytes (bs : List UInt8) (rest : List Char) :
    ∃ ps, readParts (bs.flatMap cByte ++ '"' :: rest) = some (ps, rest) ∧
      ps.map LiteralPart.byte = bs ∧ .plain '?' ∉ ps := by
  induction bs with
  | nil => exact ⟨[], readParts_of_quote rest, rfl, List.not_mem_nil⟩
  | cons b bs ih =>
    obtain ⟨ps, hrest, hbytes, hmarks⟩ := ih
    have spelling := byteSpelling_cByte b
    obtain ⟨p, hfirst, hbyte, hmark⟩ :=
      spelling.readPart_append (bs.flatMap cByte ++ '"' :: rest)
    refine ⟨p :: ps, ?_, ?_, ?_⟩
    · rw [List.flatMap_cons, List.append_assoc]
      exact readParts_of_part (spelling.head?_ne_quote _) hfirst hrest
    · rw [List.map_cons, hbyte, hbytes]
    · rw [List.mem_cons, not_or]
      exact ⟨hmark.symm, hmarks⟩

/-- The bytes between the quotes, with the closing one. -/
theorem marks_escaped_cBytes (bs : List UInt8) :
    (bs.flatMap cByte ++ ['"']).IsChain (fun c d => d = '?' → c = '\\') ∧
      (bs.flatMap cByte ++ ['"']).head? ≠ some '?' := by
  induction bs with
  | nil => simp
  | cons b bs ih =>
    obtain ⟨rest_chain, rest_head⟩ := ih
    obtain ⟨first_chain, first_head⟩ := (byteSpelling_cByte b).marks_escaped
    rw [List.flatMap_cons, List.append_assoc]
    constructor
    · refine List.isChain_append.2 ⟨first_chain, rest_chain, ?_⟩
      -- the character behind the spelling is no question mark
      rintro c - d hd rfl
      exact absurd hd rest_head
    · rw [List.head?_append]
      cases hfirst : (cByte b).head? with
      | none => exact rest_head
      | some c =>
        rw [hfirst] at first_head
        exact first_head

theorem toList_cLiteral (s : String) :
    (cLiteral s).toList = '"' :: ((bytes s).flatMap cByte ++ ['"']) := by
  simp [cLiteral, bytes]

/-- **C literals.** A text as a literal is printable ASCII between two quotes. Whatever follows it,
the rules of C read it as one literal, which ends where the text was written to its end and stands
for the bytes of the text. No question mark stands for itself, so there is no trigraph. Texts with
the same literal are the same. -/
theorem cLiteral_read_back (s : String) :
    (∃ body, (cLiteral s).toList = '"' :: (body ++ ['"'])) ∧
      (∀ c ∈ (cLiteral s).toList, ' ' ≤ c ∧ c ≤ '~') ∧
      (∀ rest, ∃ parts, readLiteral ((cLiteral s).toList ++ rest) = some (parts, rest) ∧
        parts.map LiteralPart.byte = bytes s ∧ .plain '?' ∉ parts) ∧
      ¬ ['?', '?'] <:+: (cLiteral s).toList ∧
      ∀ t, cLiteral t = cLiteral s → t = s := by
  have read : ∀ (t : String) (rest : List Char), ∃ parts,
      readLiteral ((cLiteral t).toList ++ rest) = some (parts, rest) ∧
        parts.map LiteralPart.byte = bytes t ∧ .plain '?' ∉ parts := by
    intro t rest
    obtain ⟨parts, hparts, hbytes, hmarks⟩ := readParts_cBytes (bytes t) rest
    refine ⟨parts, ?_, hbytes, hmarks⟩
    rw [toList_cLiteral, List.cons_append, readLiteral, List.append_assoc]
    exact hparts
  refine ⟨⟨_, toList_cLiteral s⟩, ?_, read s, ?_, ?_⟩
  · have quote : ' ' ≤ '"' ∧ '"' ≤ '~' := by decide
    intro c hc
    rw [toList_cLiteral] at hc
    simp only [List.mem_cons, List.mem_append, List.mem_flatMap, List.not_mem_nil, or_false] at hc
    rcases hc with rfl | ⟨b, -, hb⟩ | rfl
    · exact quote
    · exact (byteSpelling_cByte b).printable c hb
    · exact quote
  · intro trigraph
    obtain ⟨chain, head⟩ := marks_escaped_cBytes (bytes s)
    have whole : (cLiteral s).toList.IsChain (fun c d => d = '?' → c = '\\') := by
      rw [toList_cLiteral]
      refine List.isChain_cons.2 ⟨?_, chain⟩
      rintro d hd rfl
      exact absurd hd head
    -- of two marks in a row, the second would stand behind no backslash
    have pair := whole.infix trigraph
    simp at pair
  · intro t same
    obtain ⟨parts, hparts, hbytes, -⟩ := read t []
    obtain ⟨parts', hparts', hbytes', -⟩ := read s []
    rw [same, hparts'] at hparts
    cases hparts
    exact bytes_injective (hbytes.symm.trans hbytes')

end ForeignBindings.Text
