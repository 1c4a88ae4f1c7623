import ForeignBindings.Proofs.Reading

/-!
# The grammar of lists

A text reads as lists just if its lexemes are lists written out, and where they are not, the error
names the first lexeme that cannot stay, or the innermost list left open.

* `Sexp.tokens` writes an element back, with the line of each opening parenthesis.
* `Balanced` and `Readable` say which lexemes are lists, by counting parentheses only.
* `Lexeme.offence?` says why a lexeme cannot come at a depth; `FirstOffence` picks the first that
  cannot.
* `Reading.lexeme_cases` is one step of the reader: the depth and the lexeme decide it.
* `ofText_grammar` is a whole run of it.
-/

namespace ForeignBindings.Spec

open Checks

/-! ## Writing lists back -/

/-- What a list keeps of a lexeme: the token, and the line of an opening parenthesis. -/
def Lexeme.kept (l : Lexeme) : Except LexicalFault (Token × Option Nat) :=
  l.token.map fun t => (t, if t = .open then some l.line else none)

mutual

/-- An element written out as tokens. -/
def Sexp.tokens : Sexp → List (Token × Option Nat)
  | .word text => [(.word text, none)]
  | .string text => [(.string text, none)]
  | .integer n => [(.integer n, none)]
  | .list items line => (.open, some line) :: Sexp.tokensOfAll items ++ [(.close, none)]

/-- Elements written out, one after the other. -/
def Sexp.tokensOfAll : List Sexp → List (Token × Option Nat)
  | [] => []
  | s :: rest => s.tokens ++ Sexp.tokensOfAll rest

end

theorem Lexeme.kept_eq_ok {l : Lexeme} {t : Token} {line? : Option Nat} :
    l.kept = .ok (t, line?) ↔
      l.token = .ok t ∧ line? = if t = .open then some l.line else none := by
  unfold Lexeme.kept
  cases l.token with
  | error fault => simp [Except.map]
  | ok t' =>
    simp only [Except.map, Except.ok.injEq, Prod.mk.injEq]
    constructor
    · rintro ⟨rfl, rfl⟩
      exact ⟨rfl, rfl⟩
    · rintro ⟨rfl, rfl⟩
      exact ⟨rfl, rfl⟩

/-- One lexeme that is kept as a token other than an opening parenthesis. -/
theorem kept_singleton {t : Token} (h : t ≠ .open) {ls : List Lexeme} :
    ls.map Lexeme.kept = [(t, none)].map .ok ↔ ∃ l, ls = [l] ∧ l.token = .ok t := by
  constructor
  · intro hls
    obtain ⟨l, rest, rfl, hl, hrest⟩ := List.map_eq_cons_iff.1 hls
    obtain rfl := List.map_eq_nil_iff.1 hrest
    exact ⟨l, rfl, (Lexeme.kept_eq_ok.1 hl).1⟩
  · rintro ⟨l, rfl, hl⟩
    have kept : l.kept = .ok (t, none) := Lexeme.kept_eq_ok.2 ⟨hl, by rw [if_neg h]⟩
    rw [List.map_singleton, List.map_singleton, kept]

mutual

/-- The lexemes that write an element are those that keep its tokens. -/
theorem Sexp.spelled_iff : ∀ {s : Sexp} {ls : List Lexeme},
    s.Spelled ls ↔ ls.map Lexeme.kept = s.tokens.map .ok
  | .word text, ls => by
    rw [Sexp.Spelled, Sexp.tokens, kept_singleton (by simp)]
  | .string text, ls => by
    rw [Sexp.Spelled, Sexp.tokens, kept_singleton (by simp)]
  | .integer n, ls => by
    rw [Sexp.Spelled, Sexp.tokens, kept_singleton (by simp)]
  | .list items line, ls => by
    rw [Sexp.Spelled, Sexp.tokens]
    constructor
    · rintro ⟨o, inner, c, rfl, hopen, hline, hclose, hinner⟩
      have first : o.kept = .ok (.open, some line) :=
        Lexeme.kept_eq_ok.2 ⟨hopen, by rw [if_pos rfl, hline]⟩
      have last : c.kept = .ok (.close, none) := Lexeme.kept_eq_ok.2 ⟨hclose, rfl⟩
      have items := Sexp.spelledAll_iff.1 hinner
      simp [first, last, items]
    · intro h
      rw [List.cons_append, List.map_cons, List.map_append] at h
      obtain ⟨o, rest, rfl, hfirst, hrest⟩ := List.map_eq_cons_iff.1 h
      obtain ⟨inner, last, rfl, hinner, hlast⟩ := List.map_eq_append_iff.1 hrest
      obtain ⟨c, rfl, hclose⟩ := (kept_singleton (by simp)).1 hlast
      obtain ⟨hopen, hline⟩ := Lexeme.kept_eq_ok.1 hfirst
      rw [if_pos rfl, Option.some.injEq] at hline
      exact ⟨o, inner, c, rfl, hopen, hline.symm, hclose, Sexp.spelledAll_iff.2 hinner⟩

/-- The same, one after the other. -/
theorem Sexp.spelledAll_iff : ∀ {ss : List Sexp} {ls : List Lexeme},
    Sexp.SpelledAll ss ls ↔ ls.map Lexeme.kept = (Sexp.tokensOfAll ss).map .ok
  | [], ls => by
    rw [Sexp.SpelledAll, Sexp.tokensOfAll]
    simp
  | s :: rest, ls => by
    rw [Sexp.SpelledAll, Sexp.tokensOfAll, List.map_append]
    constructor
    · rintro ⟨first, others, rfl, hfirst, hothers⟩
      rw [List.map_append, Sexp.spelled_iff.1 hfirst, Sexp.spelledAll_iff.1 hothers]
    · intro h
      obtain ⟨first, others, rfl, hfirst, hothers⟩ := List.map_eq_append_iff.1 h
      exact ⟨first, others, rfl, Sexp.spelled_iff.2 hfirst, Sexp.spelledAll_iff.2 hothers⟩

end

/-! ## Counting parentheses -/

/-- What a lexeme does to the number of open parentheses. -/
def Lexeme.delta (l : Lexeme) : Int :=
  match l.token with
  | .ok .open => 1
  | .ok .close => -1
  | _ => 0

/-- The number of parentheses that are open behind some lexemes. -/
def depth : List Lexeme → Int
  | [] => 0
  | l :: ls => l.delta + depth ls

/-- The parentheses match: none is closed that is not open, and in the end none is. -/
structure Balanced (ls : List Lexeme) : Prop where
  never_below : ∀ front, front <+: ls → 0 ≤ depth front
  settled : depth ls = 0

theorem depth_nil : depth [] = 0 := rfl

theorem depth_cons (l : Lexeme) (ls : List Lexeme) : depth (l :: ls) = l.delta + depth ls := rfl

theorem depth_append (ls ls' : List Lexeme) : depth (ls ++ ls') = depth ls + depth ls' := by
  induction ls with
  | nil => rw [List.nil_append, depth_nil, Int.zero_add]
  | cons l ls ih => rw [List.cons_append, depth_cons, depth_cons, ih, Int.add_assoc]

theorem Lexeme.delta_of_open {l : Lexeme} (h : l.token = .ok .open) : l.delta = 1 := by
  unfold Lexeme.delta
  rw [h]

theorem Lexeme.delta_of_close {l : Lexeme} (h : l.token = .ok .close) : l.delta = -1 := by
  unfold Lexeme.delta
  rw [h]

/-- The beginnings of two parts are those of the first, and the first with those of the second. -/
theorem prefix_append_cases {ls ls' front : List Lexeme} (h : front <+: ls ++ ls') :
    front <+: ls ∨ ∃ more, more <+: ls' ∧ front = ls ++ more := by
  rcases List.prefix_or_prefix_of_prefix h (List.prefix_append ls ls') with within | ⟨more, rfl⟩
  · exact .inl within
  · exact .inr ⟨more, (List.prefix_append_right_inj ls).1 h, rfl⟩

namespace Balanced

theorem nil : Balanced [] where
  never_below := by
    intro front hfront
    have hnil : front = [] := List.prefix_nil.1 hfront
    simp [hnil, depth_nil]
  settled := depth_nil

theorem append {ls ls' : List Lexeme} (h : Balanced ls) (h' : Balanced ls') :
    Balanced (ls ++ ls') where
  never_below := by
    intro front hfront
    rcases prefix_append_cases hfront with within | ⟨more, hmore, rfl⟩
    · exact h.never_below front within
    · rw [depth_append, h.settled, Int.zero_add]
      exact h'.never_below more hmore
  settled := by rw [depth_append, h.settled, h'.settled, Int.add_zero]

theorem singleton {l : Lexeme} (h : l.delta = 0) : Balanced [l] where
  never_below := by
    intro front hfront
    rcases List.prefix_cons_iff.1 hfront with rfl | ⟨rest, rfl, hrest⟩
    · decide
    · rw [List.prefix_nil.1 hrest, depth_cons, h, depth_nil]
      decide
  settled := by rw [depth_cons, h, depth_nil, Int.add_zero]

/-- A pair of parentheses around what is balanced. -/
theorem wrap {o c : Lexeme} {inner : List Lexeme} (ho : o.delta = 1) (h : Balanced inner)
    (hc : c.delta = -1) : Balanced (o :: inner ++ [c]) where
  never_below := by
    intro front hfront
    rw [List.cons_append] at hfront
    rcases List.prefix_cons_iff.1 hfront with rfl | ⟨rest, rfl, hrest⟩
    · decide
    rw [depth_cons, ho]
    rcases prefix_append_cases hrest with within | ⟨last, hlast, rfl⟩
    · have room := h.never_below rest within
      omega
    · -- all of the inside is behind, and the closing parenthesis may be
      rw [depth_append, h.settled]
      rcases List.prefix_cons_iff.1 hlast with rfl | ⟨more, rfl, hmore⟩
      · decide
      · rw [List.prefix_nil.1 hmore, depth_cons, hc, depth_nil]
        decide
  settled := by
    rw [depth_append, depth_cons, depth_cons, ho, hc, h.settled, depth_nil]
    decide

end Balanced

mutual

/-- An element that is written out is balanced. -/
theorem Sexp.balanced_of_spelled : ∀ {s : Sexp} {ls : List Lexeme}, s.Spelled ls → Balanced ls
  | .word text, ls => by
    rw [Sexp.Spelled]
    rintro ⟨l, rfl, hl⟩
    exact .singleton (by unfold Lexeme.delta; rw [hl])
  | .string text, ls => by
    rw [Sexp.Spelled]
    rintro ⟨l, rfl, hl⟩
    exact .singleton (by unfold Lexeme.delta; rw [hl])
  | .integer n, ls => by
    rw [Sexp.Spelled]
    rintro ⟨l, rfl, hl⟩
    exact .singleton (by unfold Lexeme.delta; rw [hl])
  | .list items line, ls => by
    rw [Sexp.Spelled]
    rintro ⟨o, inner, c, rfl, hopen, -, hclose, hinner⟩
    exact .wrap (Lexeme.delta_of_open hopen) (Sexp.balanced_of_spelledAll hinner)
      (Lexeme.delta_of_close hclose)

theorem Sexp.balanced_of_spelledAll : ∀ {ss : List Sexp} {ls : List Lexeme},
    Sexp.SpelledAll ss ls → Balanced ls
  | [], ls => by
    rw [Sexp.SpelledAll]
    rintro rfl
    exact .nil
  | s :: rest, ls => by
    rw [Sexp.SpelledAll]
    rintro ⟨first, others, rfl, hfirst, hothers⟩
    exact (Sexp.balanced_of_spelled hfirst).append (Sexp.balanced_of_spelledAll hothers)

end

/-! ## Offences -/

/-- Why a lexeme cannot come where the given number of parentheses is open. -/
def Lexeme.offence? (l : Lexeme) (depth : Int) : Option SyntaxError :=
  match l.token with
  | .error fault => some (.lexical l.line fault)
  | .ok .open => none
  | .ok .close => if depth = 0 then some (.unexpectedClose l.line) else none
  | .ok _ => if depth = 0 then some (.notADirective l.line) else none

/-- Every lexeme can come where it comes, with this many parentheses open in front of them all. -/
def Faultless (outside : Int) (ls : List Lexeme) : Prop :=
  ∀ before l after, ls = before ++ l :: after → l.offence? (outside + depth before) = none

/-- The first lexeme that cannot come where it comes, and why it cannot. -/
def FirstOffence (outside : Int) (ls : List Lexeme) (e : SyntaxError) : Prop :=
  ∃ before l after, ls = before ++ l :: after ∧ Faultless outside before ∧
    l.offence? (outside + depth before) = some e

/-- The lexemes are lists: each is a token, the parentheses match, and all else stands in them. -/
structure Readable (ls : List Lexeme) : Prop where
  no_fault : ∀ l ∈ ls, ∃ t, l.token = .ok t
  balanced : Balanced ls
  only_lists : ∀ before l after, ls = before ++ l :: after →
    l.token ≠ .ok .open → l.token ≠ .ok .close → 0 < depth before

theorem faultless_nil (outside : Int) : Faultless outside [] := by
  intro before l after h
  simp at h

theorem faultless_cons {outside : Int} {l : Lexeme} {ls : List Lexeme} :
    Faultless outside (l :: ls) ↔
      l.offence? outside = none ∧ Faultless (outside + l.delta) ls := by
  constructor
  · intro h
    refine ⟨?_, ?_⟩
    · have first := h [] l ls rfl
      rwa [depth_nil, Int.add_zero] at first
    · rintro before x after rfl
      have later := h (l :: before) x after rfl
      rwa [depth_cons, ← Int.add_assoc] at later
  · rintro ⟨hl, hls⟩ before x after heq
    cases before with
    | nil =>
      cases heq
      rwa [depth_nil, Int.add_zero]
    | cons y before =>
      cases heq
      rw [depth_cons, ← Int.add_assoc]
      exact hls before x after rfl

/-- What comes later does not matter for the lexemes before. -/
theorem Faultless.of_append {outside : Int} {ls later : List Lexeme}
    (h : Faultless outside (ls ++ later)) : Faultless outside ls := by
  rintro before l after rfl
  exact h before l (after ++ later) (by simp)

theorem not_firstOffence_nil (outside : Int) (e : SyntaxError) : ¬ FirstOffence outside [] e := by
  rintro ⟨before, l, after, h, -⟩
  simp at h

theorem firstOffence_cons {outside : Int} {l : Lexeme} {ls : List Lexeme} {e : SyntaxError} :
    FirstOffence outside (l :: ls) e ↔
      l.offence? outside = some e ∨
        (l.offence? outside = none ∧ FirstOffence (outside + l.delta) ls e) := by
  constructor
  · rintro ⟨before, x, after, heq, hbefore, hx⟩
    cases before with
    | nil =>
      cases heq
      rw [depth_nil, Int.add_zero] at hx
      exact .inl hx
    | cons y before =>
      cases heq
      obtain ⟨hl, hrest⟩ := faultless_cons.1 hbefore
      rw [depth_cons, ← Int.add_assoc] at hx
      exact .inr ⟨hl, before, x, after, rfl, hrest, hx⟩
  · rintro (hl | ⟨hl, before, x, after, rfl, hbefore, hx⟩)
    · refine ⟨[], l, ls, rfl, faultless_nil _, ?_⟩
      rwa [depth_nil, Int.add_zero]
    · refine ⟨l :: before, x, after, rfl, faultless_cons.2 ⟨hl, hbefore⟩, ?_⟩
      rwa [depth_cons, ← Int.add_assoc]

/-- What comes later does not matter for the first lexeme out of place. -/
theorem FirstOffence.append {outside : Int} {ls : List Lexeme} {e : SyntaxError}
    (h : FirstOffence outside ls e) (later : List Lexeme) :
    FirstOffence outside (ls ++ later) e := by
  obtain ⟨before, l, after, rfl, hbefore, hl⟩ := h
  exact ⟨before, l, after ++ later, by simp, hbefore, hl⟩

/-- Either no lexeme is out of place, or one is the first. -/
theorem faultless_or_firstOffence (outside : Int) (ls : List Lexeme) :
    Faultless outside ls ∨ ∃ e, FirstOffence outside ls e := by
  induction ls generalizing outside with
  | nil => exact .inl (faultless_nil outside)
  | cons l ls ih =>
    cases hl : l.offence? outside with
    | some e => exact .inr ⟨e, firstOffence_cons.2 (.inl hl)⟩
    | none =>
      rcases ih (outside + l.delta) with hls | ⟨e, hls⟩
      · exact .inl (faultless_cons.2 ⟨hl, hls⟩)
      · exact .inr ⟨e, firstOffence_cons.2 (.inr ⟨hl, hls⟩)⟩

/-- Where no lexeme is out of place, no parenthesis is closed that is not open. -/
theorem Faultless.depth_nonneg {ls : List Lexeme} {outside : Int} (houtside : 0 ≤ outside)
    (h : Faultless outside ls) : 0 ≤ outside + depth ls := by
  induction ls generalizing outside with
  | nil =>
    rw [depth_nil]
    omega
  | cons l ls ih =>
    obtain ⟨hl, hls⟩ := faultless_cons.1 h
    -- only a closing parenthesis goes down, and it may not come at depth zero
    have next : 0 ≤ outside + l.delta := by
      unfold Lexeme.offence? at hl
      unfold Lexeme.delta
      split at hl
      · cases hl
      · rename_i hopen
        rw [hopen]
        show 0 ≤ outside + 1
        omega
      · rename_i hclose
        rw [hclose]
        show 0 ≤ outside + -1
        split at hl
        · cases hl
        · omega
      · rename_i t hnot_open hnot_close htoken
        rw [htoken]
        cases t with
        | «open» => exact absurd rfl hnot_open
        | close => exact absurd rfl hnot_close
        | _ =>
          show 0 ≤ outside + 0
          omega
    have later := ih next hls
    rw [depth_cons]
    omega

/-- Lexemes are lists if each can come where it comes, and none is left open. -/
theorem readable_iff {ls : List Lexeme} : Readable ls ↔ Faultless 0 ls ∧ depth ls = 0 := by
  constructor
  · intro h
    refine ⟨?_, h.balanced.settled⟩
    intro before l after heq
    rw [Int.zero_add]
    obtain ⟨t, ht⟩ := h.no_fault l (by rw [heq]; simp)
    -- a closing parenthesis would take the depth behind it below zero
    have room : 0 ≤ depth (before ++ [l]) := by
      refine h.balanced.never_below _ ⟨after, ?_⟩
      rw [heq, List.append_assoc, List.singleton_append]
    rw [depth_append, depth_cons, depth_nil, Int.add_zero] at room
    have inside := h.only_lists before l after heq
    unfold Lexeme.offence?
    rw [ht] at inside ⊢
    cases t with
    | «open» => rfl
    | close =>
      rw [Lexeme.delta_of_close ht] at room
      exact if_neg (by omega)
    | _ =>
      have deeper := inside (by simp) (by simp)
      exact if_neg (by omega)
  · rintro ⟨h, hsettled⟩
    refine ⟨?_, ⟨?_, hsettled⟩, ?_⟩
    · intro l hl
      obtain ⟨before, after, rfl⟩ := List.append_of_mem hl
      have no_offence := h before l after rfl
      unfold Lexeme.offence? at no_offence
      cases htoken : l.token with
      | ok t => exact ⟨t, rfl⟩
      | error fault =>
        rw [htoken] at no_offence
        cases no_offence
    · rintro front ⟨rest, rfl⟩
      have room := h.of_append.depth_nonneg (Int.le_refl 0)
      omega
    · intro before l after heq hnot_open hnot_close
      have no_offence := h before l after heq
      rw [heq] at h
      have room := h.of_append.depth_nonneg (Int.le_refl 0)
      -- at depth zero, any lexeme but an opening parenthesis is out of place
      unfold Lexeme.offence? at no_offence
      split at no_offence
      · cases no_offence
      · rename_i hopen
        exact absurd hopen hnot_open
      · rename_i hclose
        exact absurd hclose hnot_close
      · split at no_offence
        · cases no_offence
        · omega

/-! ## The reader -/

namespace Sexp.Reading

/-- **A step of the reader.** A lexeme is refused just if it cannot come at the depth of the lists
still open, for that reason. Otherwise it opens or closes a list, or neither. -/
theorem lexeme_cases (r : Reading) (l : Lexeme) :
    (∃ e, l.offence? r.pending.length = some e ∧ r.lexeme l = .error e) ∨
      (l.offence? r.pending.length = none ∧
        ∃ r', r.lexeme l = .ok r' ∧ (r'.pending.length : Int) = r.pending.length + l.delta) := by
  obtain ⟨pending, finished⟩ := r
  unfold Lexeme.offence? Lexeme.delta Reading.lexeme
  cases htoken : l.token with
  | error fault => exact .inl ⟨_, rfl, rfl⟩
  | ok t =>
    cases t with
    | «open» => exact .inr ⟨rfl, _, rfl, by simp⟩
    | close =>
      cases pending with
      | nil => exact .inl ⟨_, rfl, rfl⟩
      | cons inner outer =>
        refine .inr ⟨if_neg (by simp only [List.length_cons]; omega), ?_⟩
        -- the list that ends goes into the one around it, or to the finished ones
        cases outer with
        | nil => exact ⟨_, rfl, rfl⟩
        | cons next outer => exact ⟨_, rfl, by simp only [List.length_cons]; omega⟩
    | _ =>
      cases pending with
      | nil => exact .inl ⟨_, rfl, rfl⟩
      | cons inner outer =>
        refine .inr ⟨if_neg (by simp only [List.length_cons]; omega), _, rfl, ?_⟩
        simp only [List.length_cons]
        omega

/-- A run is refused for the first lexeme that cannot come where it comes. -/
theorem run_eq_error {r : Reading} {ls : List Lexeme} {e : SyntaxError} :
    ls.foldlM Reading.lexeme r = .error e ↔ FirstOffence r.pending.length ls e := by
  induction ls generalizing r with
  | nil =>
    have nothing := not_firstOffence_nil r.pending.length e
    constructor
    · intro h
      cases h
    · intro h
      exact absurd h nothing
  | cons l ls ih =>
    rw [List.foldlM_cons, firstOffence_cons]
    rcases lexeme_cases r l with ⟨e', hoffence, hstep⟩ | ⟨hoffence, r', hstep, hlength⟩
    · -- the run stops here, so the offence is the first
      rw [hstep, hoffence]
      constructor
      · intro h
        cases h
        exact .inl rfl
      · rintro (h | ⟨h, -⟩)
        · cases h
          rfl
        · cases h
    · rw [hstep, hoffence, ← hlength]
      constructor
      · intro h
        exact .inr ⟨rfl, ih.1 h⟩
      · rintro (h | ⟨-, h⟩)
        · cases h
        · exact ih.2 h

/-- A run goes through if every lexeme can come where it comes, and counts the parentheses. -/
theorem run_of_faultless {r : Reading} {ls : List Lexeme} (h : Faultless r.pending.length ls) :
    ∃ r', ls.foldlM Reading.lexeme r = .ok r' ∧
      (r'.pending.length : Int) = r.pending.length + depth ls := by
  induction ls generalizing r with
  | nil => exact ⟨r, rfl, by rw [depth_nil, Int.add_zero]⟩
  | cons l ls ih =>
    obtain ⟨hl, hls⟩ := faultless_cons.1 h
    rcases lexeme_cases r l with ⟨e, hoffence, -⟩ | ⟨-, r', hstep, hlength⟩
    · rw [hl] at hoffence
      cases hoffence
    · rw [← hlength] at hls
      obtain ⟨r'', hrun, hdepth⟩ := ih hls
      refine ⟨r'', ?_, ?_⟩
      · rw [List.foldlM_cons, hstep]
        exact hrun
      · rw [hdepth, hlength, depth_cons, Int.add_assoc]

/-- A run that goes through has met no lexeme that cannot come where it comes. -/
theorem faultless_of_run {r r' : Reading} {ls : List Lexeme}
    (h : ls.foldlM Reading.lexeme r = .ok r') : Faultless r.pending.length ls := by
  rcases faultless_or_firstOffence r.pending.length ls with faultless | ⟨e, offence⟩
  · exact faultless
  · rw [run_eq_error.2 offence] at h
    cases h

mutual

/-- Inside a list, the lexemes of an element add just that element to the list. -/
theorem run_of_spelled : ∀ {s : Sexp} {ls : List Lexeme}, s.Spelled ls →
    ∀ (inner : OpenList) (outer : List OpenList) (finished : List Sexp),
    ls.foldlM Reading.lexeme ⟨inner :: outer, finished⟩ =
      .ok ⟨⟨s :: inner.items, inner.line⟩ :: outer, finished⟩
  | .word text, ls => by
    rw [Spelled]
    rintro ⟨l, rfl, hl⟩ inner outer finished
    rw [List.foldlM_cons, Reading.lexeme, hl]
    rfl
  | .string text, ls => by
    rw [Spelled]
    rintro ⟨l, rfl, hl⟩ inner outer finished
    rw [List.foldlM_cons, Reading.lexeme, hl]
    rfl
  | .integer n, ls => by
    rw [Spelled]
    rintro ⟨l, rfl, hl⟩ inner outer finished
    rw [List.foldlM_cons, Reading.lexeme, hl]
    rfl
  | .list items line, ls => by
    rw [Spelled]
    rintro ⟨o, middle, c, rfl, hopen, rfl, hclose, hmiddle⟩ inner outer finished
    -- the list is opened, filled with its own elements, and then ended
    have opened : Reading.lexeme ⟨inner :: outer, finished⟩ o =
        .ok ⟨⟨[], o.line⟩ :: inner :: outer, finished⟩ := by
      rw [Reading.lexeme, hopen]
      rfl
    have filled := run_of_spelledAll hmiddle ⟨[], o.line⟩ (inner :: outer) finished
    have ended : Reading.lexeme ⟨⟨items.reverse, o.line⟩ :: inner :: outer, finished⟩ c =
        .ok ⟨⟨list items o.line :: inner.items, inner.line⟩ :: outer, finished⟩ := by
      rw [Reading.lexeme, hclose]
      show Reading.add ⟨inner :: outer, finished⟩ c.line (list items.reverse.reverse o.line) = _
      rw [List.reverse_reverse]
      rfl
    rw [List.append_nil] at filled
    rw [List.cons_append, List.foldlM_cons, opened]
    show (middle ++ [c]).foldlM Reading.lexeme _ = _
    rw [List.foldlM_append, filled]
    show [c].foldlM Reading.lexeme _ = _
    rw [List.foldlM_cons, ended]
    rfl

/-- The same for elements one after the other. -/
theorem run_of_spelledAll : ∀ {ss : List Sexp} {ls : List Lexeme}, SpelledAll ss ls →
    ∀ (inner : OpenList) (outer : List OpenList) (finished : List Sexp),
    ls.foldlM Reading.lexeme ⟨inner :: outer, finished⟩ =
      .ok ⟨⟨ss.reverse ++ inner.items, inner.line⟩ :: outer, finished⟩
  | [], ls => by
    rw [SpelledAll]
    rintro rfl inner outer finished
    rfl
  | s :: rest, ls => by
    rw [SpelledAll]
    rintro ⟨first, others, rfl, hfirst, hothers⟩ inner outer finished
    rw [List.foldlM_append, run_of_spelled hfirst]
    show others.foldlM Reading.lexeme _ = _
    rw [run_of_spelledAll hothers, List.reverse_cons, List.append_assoc, List.singleton_append]

end

end Sexp.Reading

namespace Sexp

/-- Lexemes write one sequence of elements at most. -/
theorem SpelledAll.unique {ss ss' : List Sexp} {ls : List Lexeme} (h : SpelledAll ss ls)
    (h' : SpelledAll ss' ls) : ss = ss' := by
  -- read as the inside of a list, the lexemes give both
  have read := Reading.run_of_spelledAll h ⟨[], 0⟩ [] []
  rw [Reading.run_of_spelledAll h'] at read
  simpa using read.symm

/-- Lexemes read as lists just if they are such. -/
theorem exists_ofLexemes_iff {ls : List Lexeme} : (∃ lists, ofLexemes ls = .ok lists) ↔
    Readable ls := by
  rw [readable_iff]
  constructor
  · rintro ⟨lists, h⟩
    obtain ⟨r, hrun, -⟩ := bind_eq_ok.1 h
    have written := (spelledAll_of_ofLexemes h).1
    exact ⟨Reading.faultless_of_run hrun, (balanced_of_spelledAll written).settled⟩
  · rintro ⟨hfaultless, hdepth⟩
    obtain ⟨r, hrun, hlength⟩ := Reading.run_of_faultless (r := ⟨[], []⟩) hfaultless
    have none_open : r.pending = [] := by
      refine List.length_eq_zero_iff.1 ?_
      simp only [List.length_nil] at hlength
      omega
    refine ⟨r.finished.reverse, bind_eq_ok.2 ⟨r, hrun, ?_⟩⟩
    unfold Reading.close
    rw [none_open]

/-- An open list that is the innermost one at the end: its parenthesis, and what is balanced behind
it. -/
def InnermostOpen (ls : List Lexeme) (o : Lexeme) : Prop :=
  ∃ before after, ls = before ++ o :: after ∧ o.token = .ok .open ∧ Balanced after

/-- Behind an innermost open parenthesis there is no second one. -/
theorem not_balanced_of_open {middle after : List Lexeme} {o : Lexeme}
    (hopen : o.token = .ok .open) (hafter : Balanced after) :
    ¬ Balanced (middle ++ o :: after) := by
  intro h
  have room : 0 ≤ depth middle := h.never_below middle (List.prefix_append ..)
  have settled := h.settled
  rw [depth_append, depth_cons, Lexeme.delta_of_open hopen, hafter.settled] at settled
  omega

theorem InnermostOpen.unique {ls : List Lexeme} {o o' : Lexeme} (h : InnermostOpen ls o)
    (h' : InnermostOpen ls o') : o = o' := by
  obtain ⟨before, after, rfl, hopen, hafter⟩ := h
  obtain ⟨before', after', heq, hopen', hafter'⟩ := h'
  rcases List.append_eq_append_iff.1 heq with ⟨middle, -, hmiddle⟩ | ⟨middle, -, hmiddle⟩
  · rcases List.cons_eq_append_iff.1 hmiddle with ⟨rfl, hsame⟩ | ⟨middle, rfl, hlater⟩
    · cases hsame
      rfl
    · rw [hlater] at hafter
      exact absurd hafter (not_balanced_of_open hopen' hafter')
  · rcases List.cons_eq_append_iff.1 hmiddle with ⟨rfl, hsame⟩ | ⟨middle, rfl, hlater⟩
    · cases hsame
      rfl
    · rw [hlater] at hafter'
      exact absurd hafter' (not_balanced_of_open hopen hafter)

/-- The lists still open are those of the parentheses still open. -/
theorem Reading.Holds.innermostOpen {inner : OpenList} {outer : List OpenList}
    {finished : List Sexp} {ls : List Lexeme} (h : Reading.Holds ⟨inner :: outer, finished⟩ ls) :
    ∃ o, InnermostOpen ls o ∧ o.line = inner.line := by
  obtain ⟨done, rest, rfl, -, hrest, -⟩ := h
  obtain ⟨before, o, items, rfl, -, hopen, hline, hitems⟩ := hrest
  refine ⟨o, ⟨done ++ before, items, by simp, hopen, balanced_of_spelledAll hitems⟩, hline⟩

theorem ofLexemes_of_firstOffence {ls : List Lexeme} {e : SyntaxError} (h : FirstOffence 0 ls e) :
    ofLexemes ls = .error e := by
  have refused : ls.foldlM Reading.lexeme ⟨[], []⟩ = .error e := Reading.run_eq_error.2 h
  unfold ofLexemes
  rw [refused]
  rfl

/-- Lexemes are refused for the first that cannot come where it comes, or for a list left open. -/
theorem ofLexemes_eq_error {ls : List Lexeme} {e : SyntaxError} :
    ofLexemes ls = .error e ↔
      FirstOffence 0 ls e ∨ (Faultless 0 ls ∧ ∃ o, InnermostOpen ls o ∧ e = .unclosed o.line) := by
  rcases faultless_or_firstOffence 0 ls with hfaultless | ⟨e', hoffence⟩
  · obtain ⟨r, hrun, hlength⟩ := Reading.run_of_faultless (r := ⟨[], []⟩) hfaultless
    have holds := Reading.holds_start.foldlM hrun
    have no_offence : ¬ FirstOffence 0 ls e := by
      rintro ⟨before, l, after, rfl, -, hl⟩
      rw [hfaultless before l after rfl] at hl
      cases hl
    have ends : ofLexemes ls = r.close := by
      unfold ofLexemes
      rw [hrun]
      rfl
    obtain ⟨pending, finished⟩ := r
    rw [ends]
    cases pending with
    | nil =>
      -- nothing is left open, so no parenthesis is
      constructor
      · intro h
        cases h
      · rintro (h | ⟨-, o, ⟨before, after, rfl, hopen, hafter⟩, -⟩)
        · exact absurd h no_offence
        · have room := hfaultless.of_append.depth_nonneg (Int.le_refl 0)
          rw [depth_append, depth_cons, Lexeme.delta_of_open hopen, hafter.settled] at hlength
          simp only [List.length_nil] at hlength
          omega
    | cons inner outer =>
      obtain ⟨o, ho, hline⟩ := holds.innermostOpen
      constructor
      · intro h
        cases h
        exact .inr ⟨hfaultless, o, ho, by rw [hline]⟩
      · rintro (h | ⟨-, o', ho', rfl⟩)
        · exact absurd h no_offence
        · rw [ho'.unique ho, hline]
          rfl
  · rw [ofLexemes_of_firstOffence hoffence]
    constructor
    · intro h
      cases h
      exact .inl hoffence
    · rintro (h | ⟨hfaultless, -⟩)
      · rw [← ofLexemes_of_firstOffence hoffence, ofLexemes_of_firstOffence h]
      · -- the first that is out of place is none of those that can come
        obtain ⟨before, l, after, rfl, -, hl⟩ := hoffence
        rw [hfaultless before l after rfl] at hl
        cases hl

end Sexp

/-- **The grammar of lists.** A text reads as lists just if each of its lexemes is a token, the
parentheses match and all else stands inside of them. Written back, the lists are the tokens of the
text, and no other elements are. A text that does not read so is refused for the first lexeme that
cannot come where it comes, and nothing behind it matters; if there is none, for the innermost list
left open. -/
theorem ofText_grammar (text : String) :
    ((∃ lists, Sexp.ofText text = .ok lists) ↔ Readable (lexemes text)) ∧
    (∀ lists, Sexp.ofText text = .ok lists →
      (∀ s ∈ lists, s.IsList) ∧
      ∀ others, (lexemes text).map Lexeme.kept = (Sexp.tokensOfAll others).map .ok ↔
        others = lists) ∧
    (∀ e, Sexp.ofText text = .error e ↔
      FirstOffence 0 (lexemes text) e ∨
        (Faultless 0 (lexemes text) ∧
          ∃ o, Sexp.InnermostOpen (lexemes text) o ∧ e = .unclosed o.line)) ∧
    (∀ text' before l after after' e, lexemes text = before ++ l :: after →
      lexemes text' = before ++ l :: after' → FirstOffence 0 (before ++ [l]) e →
      Sexp.ofText text = .error e ∧ Sexp.ofText text' = .error e) := by
  refine ⟨Sexp.exists_ofLexemes_iff, ?_, fun e => Sexp.ofLexemes_eq_error, ?_⟩
  · intro lists h
    obtain ⟨written, all_lists⟩ := Sexp.spelledAll_of_ofLexemes h
    refine ⟨all_lists, fun others => ?_⟩
    rw [← Sexp.spelledAll_iff]
    constructor
    · intro h'
      exact h'.unique written
    · rintro rfl
      exact written
  · intro text' before l after after' e htext htext' hoffence
    constructor
    · refine Sexp.ofLexemes_of_firstOffence ?_
      rw [htext, ← List.singleton_append, ← List.append_assoc]
      exact hoffence.append after
    · refine Sexp.ofLexemes_of_firstOffence ?_
      rw [htext', ← List.singleton_append, ← List.append_assoc]
      exact hoffence.append after'

end ForeignBindings.Spec
