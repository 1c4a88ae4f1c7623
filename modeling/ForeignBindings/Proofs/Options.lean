import ForeignBindings.Entry.Options
import ForeignBindings.Proofs.Checks

/-!
# Reading options

What is read of options are pairs of different known keys, as they are written. A value is found
under its key wherever its pair stands.

* `Options.written` gives options as they are written, and `Options.Faulty` says what can be wrong
  with them.
* `Options.read_eq_ok` says what is read, and `Options.Faulty.ne_written` that nothing is read of
  what is faulty.
* `Options.get?_perm` says that the order of the pairs does not matter for the values.
-/

namespace ForeignBindings

open Spec Checks

/-! ## Options as they are written -/

namespace Options

/-- Options as they are written, one pair after the other. -/
def written (pairs : List (String × Form)) : List Form :=
  pairs.flatMap fun p => [.keyword p.1, p.2]

@[simp] theorem written_nil : written [] = [] := rfl

@[simp] theorem written_cons (key : String) (value : Form) (pairs : List (String × Form)) :
    written ((key, value) :: pairs) = .keyword key :: value :: written pairs := rfl

/-- Behind some pairs stands what is wrong: a key that does not belong here, one that has been
there, one that has no value, or something that is no key. -/
inductive Faulty (keys : List String) : List Form → Prop where
  | unknown (before : List (String × Form)) {key : String} (after : List Form) (h : key ∉ keys) :
    Faulty keys (written before ++ .keyword key :: after)
  | repeated (before : List (String × Form)) {key : String} (after : List Form)
      (h : key ∈ before.map Prod.fst) :
    Faulty keys (written before ++ .keyword key :: after)
  | valueless (before : List (String × Form)) (key : String) :
    Faulty keys (written before ++ [.keyword key])
  | stray (first : String × Form) (before : List (String × Form)) {found : Form}
      (after : List Form) (h : found.isKeyword = false) :
    Faulty keys (written (first :: before) ++ found :: after)

/-- Pairs of known keys, each of which comes once. -/
structure Sound (keys : List String) (pairs : List (String × Form)) : Prop where
  known : ∀ p ∈ pairs, p.1 ∈ keys
  nodup : (pairs.map Prod.fst).Nodup

theorem Sound.perm {keys : List String} {pairs pairs' : List (String × Form)}
    (h : Sound keys pairs) (hperm : pairs.Perm pairs') : Sound keys pairs' where
  known p hp := h.known p (hperm.mem_iff.2 hp)
  nodup := (hperm.map Prod.fst).nodup_iff.1 h.nodup

/-- A key has been read if it stands in one of the pairs. -/
theorem has_eq_true_iff {o : Options} {key : String} :
    o.has key = true ↔ key ∈ o.pairs.map Prod.fst := by
  simp [has, get?]

/-- Pairs of known keys are read to the end, as long as no key comes again. -/
theorem readFrom_written {keys : List String} {o : Options} {pairs : List (String × Form)}
    (known : ∀ p ∈ pairs, p.1 ∈ keys) (nodup : ((o.pairs ++ pairs).map Prod.fst).Nodup) :
    readFrom keys o (written pairs) = .ok ⟨o.pairs ++ pairs⟩ := by
  induction pairs generalizing o with
  | nil => simp [readFrom]
  | cons p pairs ih =>
    obtain ⟨key, value⟩ := p
    have key_known : key ∈ keys := known _ (List.mem_cons_self ..)
    -- a key that has been read would come twice among all of them
    have key_new : ¬ o.has key = true := by
      rw [has_eq_true_iff]
      intro there
      rw [List.map_append, List.nodup_append] at nodup
      exact nodup.2.2 key there key (by simp) rfl
    have regrouped : o.pairs ++ (key, value) :: pairs = (o.pairs ++ [(key, value)]) ++ pairs := by
      simp
    rw [written_cons, readFrom, if_neg (by simpa using key_known), if_neg key_new, regrouped]
    rw [regrouped] at nodup
    exact ih (fun p hp => known p (List.mem_cons_of_mem _ hp)) nodup

/-- What has been read to the end are pairs of known keys, and no key comes again. -/
theorem exists_written_of_readFrom {keys : List String} {o o' : Options} {forms : List Form}
    (h : readFrom keys o forms = .ok o') (ho : (o.pairs.map Prod.fst).Nodup) :
    ∃ pairs, forms = written pairs ∧ o' = ⟨o.pairs ++ pairs⟩ ∧ (∀ p ∈ pairs, p.1 ∈ keys) ∧
      (o'.pairs.map Prod.fst).Nodup := by
  fun_induction readFrom keys o forms with
  | case1 o =>
    cases h
    exact ⟨[], rfl, by simp, by simp, ho⟩
  | case7 o key value rest known first ih =>
    have nodup : ((o.pairs ++ [(key, value)]).map Prod.fst).Nodup := by
      rw [has_eq_true_iff] at first
      rw [List.map_append, List.nodup_append]
      refine ⟨ho, by simp, ?_⟩
      rintro k hk k' hk' rfl
      obtain rfl : k = key := by simpa using hk'
      exact first hk
    -- the pair at hand stands in front of those that are read behind it
    obtain ⟨pairs, rfl, rfl, all_known, all_nodup⟩ := ih h nodup
    refine ⟨(key, value) :: pairs, rfl, by simp, ?_, all_nodup⟩
    rintro p hp
    rcases List.mem_cons.1 hp with rfl | hp
    · simpa using known
    · exact all_known p hp
  | _ => cases h

/-- **Reading options.** What is read are the pairs as they are written, if all of their keys are
known and different. -/
theorem read_eq_ok {keys : List String} {forms : List Form} {o : Options} :
    read keys forms = .ok o ↔ forms = written o.pairs ∧ Sound keys o.pairs := by
  constructor
  · intro h
    obtain ⟨pairs, rfl, rfl, known, nodup⟩ := exists_written_of_readFrom h List.nodup_nil
    exact ⟨rfl, known, nodup⟩
  · rintro ⟨rfl, known, nodup⟩
    exact readFrom_written (o := ⟨[]⟩) known nodup

/-- What follows some pairs among others are the others. -/
theorem written_eq_append_iff {before pairs : List (String × Form)} {rest : List Form} :
    written pairs = written before ++ rest ↔
      ∃ others, pairs = before ++ others ∧ rest = written others := by
  induction before generalizing pairs with
  | nil => simp [eq_comm]
  | cons p before ih =>
    obtain ⟨key, value⟩ := p
    cases pairs with
    | nil => simp
    | cons p' pairs =>
      obtain ⟨key', value'⟩ := p'
      simp only [written_cons, List.cons_append, List.cons.injEq, Form.keyword.injEq, ih,
        Prod.mk.injEq]
      constructor
      · rintro ⟨rfl, rfl, others, rfl, rfl⟩
        exact ⟨others, ⟨⟨rfl, rfl⟩, rfl⟩, rfl⟩
      · rintro ⟨others, ⟨⟨rfl, rfl⟩, rfl⟩, rfl⟩
        exact ⟨rfl, rfl, others, rfl, rfl⟩

/-- Other pairs are written in another way. -/
theorem written_inj {pairs pairs' : List (String × Form)} :
    written pairs = written pairs' ↔ pairs = pairs' := by
  constructor
  · intro h
    obtain ⟨others, rfl, hothers⟩ :=
      written_eq_append_iff.1 (h.trans (List.append_nil (written pairs')).symm)
    cases others with
    | nil => exact List.append_nil pairs'
    | cons p others => cases hothers
  · exact congrArg written

/-- Pairs are read as they are, if they are sound. -/
theorem read_written {keys : List String} {pairs : List (String × Form)} {o : Options} :
    read keys (written pairs) = .ok o ↔ o = ⟨pairs⟩ ∧ Sound keys pairs := by
  rw [read_eq_ok, written_inj]
  constructor
  · rintro ⟨rfl, sound⟩
    exact ⟨rfl, sound⟩
  · rintro ⟨rfl, sound⟩
    exact ⟨rfl, sound⟩

/-- Faulty options are not the pairs of any sound ones. -/
theorem Faulty.ne_written {keys : List String} {forms : List Form} (h : Faulty keys forms)
    {pairs : List (String × Form)} (hpairs : Sound keys pairs) : forms ≠ written pairs := by
  intro hforms
  cases h with
  | unknown before after unknown =>
    obtain ⟨others, rfl, hothers⟩ := written_eq_append_iff.1 hforms.symm
    cases others with
    | nil => cases hothers
    | cons p others =>
      cases hothers
      exact unknown (hpairs.known p (by simp))
  | repeated before after again =>
    obtain ⟨others, rfl, hothers⟩ := written_eq_append_iff.1 hforms.symm
    cases others with
    | nil => cases hothers
    | cons p others =>
      cases hothers
      have apart := hpairs.nodup
      rw [List.map_append, List.nodup_append] at apart
      exact apart.2.2 _ again p.1 (by simp) rfl
  | valueless before key =>
    obtain ⟨others, rfl, hothers⟩ := written_eq_append_iff.1 hforms.symm
    cases others with
    | nil => cases hothers
    | cons p others => cases hothers
  | stray first before after not_key =>
    -- where another pair would start there is no key
    obtain ⟨others, rfl, hothers⟩ := written_eq_append_iff.1 hforms.symm
    cases others with
    | nil => cases hothers
    | cons p others =>
      cases hothers
      cases not_key

/-- A value is found under its key. -/
theorem get?_eq_some_iff {keys : List String} {o : Options} (h : Sound keys o.pairs) {key : String}
    {value : Form} : o.get? key = some value ↔ (key, value) ∈ o.pairs := by
  obtain ⟨pairs⟩ := o
  have nodup := h.nodup
  clear h
  unfold get?
  dsimp only at nodup ⊢
  induction pairs with
  | nil => simp
  | cons p pairs ih =>
    rw [List.map_cons, List.nodup_cons] at nodup
    rw [List.lookup_cons, List.mem_cons]
    by_cases hkey : key = p.1
    · -- no other pair has the key of the first one
      have not_later : (key, value) ∉ pairs := fun later =>
        nodup.1 (List.mem_map.2 ⟨_, later, hkey⟩)
      subst hkey
      obtain ⟨key, value'⟩ := p
      simp [not_later, eq_comm]
    · have other_key : (key == p.1) = false := by simpa using hkey
      have not_first : (key, value) ≠ p := fun first => hkey (congrArg Prod.fst first)
      simp [other_key, not_first, ih nodup.2]

/-- The same pairs in another order give the same values. -/
theorem get?_perm {keys : List String} {o o' : Options} (h : Sound keys o.pairs)
    (hperm : o.pairs.Perm o'.pairs) (key : String) : o.get? key = o'.get? key := by
  apply Option.ext
  intro value
  rw [get?_eq_some_iff h, get?_eq_some_iff (h.perm hperm), hperm.mem_iff]

/-- A value that is found is one of the forms that have been read. -/
theorem mem_of_get? {keys : List String} {forms : List Form} {o : Options}
    (h : read keys forms = .ok o) {key : String} {value : Form} (hvalue : o.get? key = some value) :
    value ∈ forms := by
  obtain ⟨rfl, sound⟩ := read_eq_ok.1 h
  exact List.mem_flatMap.2 ⟨_, (get?_eq_some_iff sound).1 hvalue, by simp⟩

/-! ## What is read of the values -/

/-- Nothing is read from an empty list. -/
theorem get?_ne_of_string {o : Options} {key : String} {text? : Option String}
    (h : o.string key = .ok text?) : o.get? key ≠ some (.list []) := by
  intro hvalue
  rw [string, hvalue] at h
  cases h

theorem get?_ne_of_flag {o : Options} {key : String} {b : Bool} (h : o.flag key = .ok b) :
    o.get? key ≠ some (.list []) := by
  intro hvalue
  rw [flag, hvalue] at h
  cases h

theorem get?_ne_of_word {o : Options} {key : String} {name? : Option String}
    (h : o.word key = .ok name?) : o.get? key ≠ some (.list []) := by
  intro hvalue
  rw [word, hvalue] at h
  cases h

/-- A flag that is not allowed is not set. -/
theorem flag_of_not_allowed {allowed : List String} {forms : List Form} {o : Options}
    (h : read allowed forms = .ok o) {key : String} (hkey : key ∉ allowed) :
    o.flag key = .ok false := by
  have sound := (read_eq_ok.1 h).2
  have no_value : o.get? key = none := by
    cases hvalue : o.get? key with
    | none => rfl
    | some value => exact absurd (sound.known _ ((get?_eq_some_iff sound).1 hvalue)) hkey
  rw [flag, no_value]

end Options

end ForeignBindings
