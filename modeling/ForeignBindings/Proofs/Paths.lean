import ForeignBindings.Build.Outputs
import ForeignBindings.Host.World

/-!
# Where paths lead

A path leads to a place, segment by segment, whether or not anything is there. Nothing in the tree
is a link, so this is the only place that it can ever name.

* `Path.lead` goes along some segments, and `World.destination` along a path.
* `World.destination_join` and `World.destination_parent` go down by a name and up by one.
-/

namespace ForeignBindings

namespace Path

/-! ## Segments -/

theorem segmentsOf_ne_nil (cs : List Char) : segmentsOf cs ≠ [] := by
  unfold segmentsOf
  split
  · simp
  · simp
  · split <;> simp

/-- A character that is no slash goes on with the first segment. -/
theorem segmentsOf_cons {c : Char} (h : c ≠ '/') {cs first : List Char} {rest : List (List Char)}
    (hcs : segmentsOf cs = first :: rest) : segmentsOf (c :: cs) = (c :: first) :: rest := by
  rw [segmentsOf, hcs]
  exact h

/-- A slash parts the segments before it from those after it. -/
theorem segmentsOf_append_slash (cs cs' : List Char) :
    segmentsOf (cs ++ '/' :: cs') = segmentsOf cs ++ segmentsOf cs' := by
  induction cs with
  | nil => rfl
  | cons c cs ih =>
    by_cases hc : c = '/'
    · -- a slash starts a segment of its own on both sides
      subst hc
      show [] :: segmentsOf (cs ++ '/' :: cs') = ([] :: segmentsOf cs) ++ segmentsOf cs'
      rw [ih, List.cons_append]
    · obtain ⟨first, rest, hcs⟩ := List.exists_cons_of_ne_nil (segmentsOf_ne_nil cs)
      rw [hcs, List.cons_append] at ih
      rw [List.cons_append, segmentsOf_cons hc ih, segmentsOf_cons hc hcs, List.cons_append]

theorem segmentsOf_of_not_mem {cs : List Char} (h : '/' ∉ cs) : segmentsOf cs = [cs] := by
  induction cs with
  | nil => rfl
  | cons c cs ih =>
    have hc : c ≠ '/' := fun hc => h (hc ▸ List.mem_cons_self ..)
    have hcs : '/' ∉ cs := fun hm => h (List.mem_cons_of_mem _ hm)
    exact segmentsOf_cons hc (ih hcs)

theorem slash_not_mem_segment {cs segment : List Char} (h : segment ∈ segmentsOf cs) :
    '/' ∉ segment := by
  induction cs generalizing segment with
  | nil =>
    rw [segmentsOf, List.mem_singleton] at h
    simp [h]
  | cons c cs ih =>
    by_cases hc : c = '/'
    · subst hc
      rcases List.mem_cons.1 h with rfl | h
      · simp
      · exact ih h
    · obtain ⟨first, rest, hcs⟩ := List.exists_cons_of_ne_nil (segmentsOf_ne_nil cs)
      rw [segmentsOf_cons hc hcs] at h
      rw [hcs] at ih
      rcases List.mem_cons.1 h with rfl | h
      · have first_free := ih (List.mem_cons_self ..)
        simp [first_free, Ne.symm hc]
      · exact ih (List.mem_cons_of_mem _ h)

/-- Segments that have been joined are found again. -/
theorem segmentsOf_ofSegments {segments : List (List Char)} (hne : segments ≠ [])
    (h : ∀ s ∈ segments, '/' ∉ s) : segmentsOf (ofSegments segments) = segments := by
  induction segments with
  | nil => exact absurd rfl hne
  | cons first rest ih =>
    have first_free := h first (List.mem_cons_self ..)
    cases rest with
    | nil => simpa [ofSegments] using segmentsOf_of_not_mem first_free
    | cons next rest =>
      have later := ih (by simp) fun s hs => h s (List.mem_cons_of_mem _ hs)
      have joined : ofSegments (first :: next :: rest) =
          first ++ '/' :: ofSegments (next :: rest) := by
        simp [ofSegments, List.intercalate_cons_cons]
      rw [joined, segmentsOf_append_slash, later, segmentsOf_of_not_mem first_free]
      rfl

/-! ## Along segments -/

/-- The place that one segment leads to. -/
def advance (place : Location) (segment : List Char) : Location :=
  if isIdle segment then place
  else if segment = ['.', '.'] then place.dropLast
  else place ++ [String.ofList segment]

/-- The place that some segments lead to. -/
def lead (place : Location) (segments : List (List Char)) : Location :=
  segments.foldl advance place

@[simp] theorem lead_nil (place : Location) : lead place [] = place := rfl

@[simp] theorem lead_cons (place : Location) (segment : List Char) (rest : List (List Char)) :
    lead place (segment :: rest) = lead (advance place segment) rest := rfl

theorem lead_append (place : Location) (segments more : List (List Char)) :
    lead place (segments ++ more) = lead (lead place segments) more :=
  List.foldl_append

theorem advance_of_idle {segment : List Char} (h : isIdle segment = true) (place : Location) :
    advance place segment = place := by
  rw [advance, if_pos h]

theorem advance_name {segment : List Char} (hidle : isIdle segment = false)
    (hup : segment ≠ ['.', '.']) (place : Location) :
    advance place segment = place ++ [String.ofList segment] := by
  rw [advance, if_neg (by simp [hidle]), if_neg hup]

/-- Segments that name nothing may be left out. -/
theorem lead_filter {keep : List Char → Bool} {segments : List (List Char)}
    (h : ∀ s ∈ segments, keep s = false → isIdle s = true) (place : Location) :
    lead place (segments.filter keep) = lead place segments := by
  induction segments generalizing place with
  | nil => rfl
  | cons s rest ih =>
    have hrest := ih fun t ht => h t (List.mem_cons_of_mem _ ht)
    cases hkeep : keep s with
    | true => rw [List.filter_cons_of_pos hkeep, lead_cons, lead_cons, hrest]
    | false =>
      -- a segment that is left out leads nowhere
      have idle := h s (List.mem_cons_self ..) hkeep
      rw [List.filter_cons_of_neg (by simp [hkeep]), lead_cons, advance_of_idle idle, hrest]

/-- What `trimIdle` drops are segments that name nothing. -/
theorem trimIdle_spec (segments : List (List Char)) :
    ∃ idle, segments = trimIdle segments ++ idle ∧ ∀ s ∈ idle, isIdle s = true := by
  -- the dropped segments stand at the back, so they are taken from the reversed list
  refine ⟨(segments.reverse.takeWhile isIdle).reverse, ?_, ?_⟩
  · rw [trimIdle, ← List.reverse_append, List.takeWhile_append_dropWhile, List.reverse_reverse]
  · intro s hs
    rw [List.mem_reverse] at hs
    exact List.all_eq_true.1 List.all_takeWhile s hs

theorem lead_of_idle {segments : List (List Char)} (h : ∀ s ∈ segments, isIdle s = true)
    (place : Location) : lead place segments = place := by
  induction segments with
  | nil => rfl
  | cons s rest ih =>
    rw [lead_cons, advance_of_idle (h s (List.mem_cons_self ..))]
    exact ih fun t ht => h t (List.mem_cons_of_mem _ ht)

theorem lead_trimIdle (place : Location) (segments : List (List Char)) :
    lead place (trimIdle segments) = lead place segments := by
  obtain ⟨idle, hsplit, hidle⟩ := trimIdle_spec segments
  calc lead place (trimIdle segments)
      = lead (lead place (trimIdle segments)) idle := (lead_of_idle hidle _).symm
    _ = lead place (trimIdle segments ++ idle) := (lead_append ..).symm
    _ = lead place segments := by rw [← hsplit]

theorem mem_of_mem_trimIdle {segments : List (List Char)} {s : List Char}
    (h : s ∈ trimIdle segments) : s ∈ segments := by
  obtain ⟨idle, hsplit, -⟩ := trimIdle_spec segments
  rw [hsplit]
  exact List.mem_append_left _ h

/-- The last segment that is left names something. -/
theorem not_isIdle_of_getLast?_trimIdle {segments : List (List Char)} {s : List Char}
    (h : (trimIdle segments).getLast? = some s) : isIdle s = false := by
  -- the segments are dropped from the back, up to the first that names something
  rw [trimIdle, List.getLast?_reverse] at h
  have head_fails := List.head?_dropWhile_not isIdle segments.reverse
  rw [h] at head_fails
  simpa using head_fails

/-- The anchor of a path leads nowhere. -/
theorem lead_drop_anchor (place : Location) (cs : List Char) :
    lead place (segmentsOf (cs.drop (anchorOf cs).length)) = lead place (segmentsOf cs) := by
  -- an anchor is an empty segment or a dot, up to the slash behind it
  unfold anchorOf
  split
  · rfl
  · rfl
  · rfl
  · rfl

/-- Joined segments lead where the segments lead. -/
theorem lead_ofSegments {segments : List (List Char)} (h : ∀ s ∈ segments, '/' ∉ s)
    (place : Location) : lead place (segmentsOf (ofSegments segments)) = lead place segments := by
  cases segments with
  | nil => rfl
  | cons s rest => rw [segmentsOf_ofSegments (by simp) h]

/-- A dot in front of an empty segment leads nowhere. -/
theorem lead_dot_cons {cs : List Char} (h : (segmentsOf cs).head? = some []) (place : Location) :
    lead place (segmentsOf ('.' :: cs)) = lead place (segmentsOf cs) := by
  obtain ⟨first, rest, hcs⟩ := List.exists_cons_of_ne_nil (segmentsOf_ne_nil cs)
  rw [hcs] at h
  cases h
  rw [segmentsOf_cons (by decide) hcs, hcs]
  rfl

/-! ## File names -/

/-- A file name is the last naming segment: it names something below a place. -/
theorem namingSegments_of_fileName? {path name : String} (h : fileName? path = some name) :
    ∃ front, namingSegments path.toList = front ++ [name.toList] ∧
      isIdle name.toList = false ∧ name.toList ≠ ['.', '.'] ∧ '/' ∉ name.toList := by
  unfold fileName? at h
  split at h
  · cases h
  · rename_i last hlast
    split at h
    · cases h
    · rename_i not_up
      cases h
      rw [String.toList_ofList]
      -- a segment has no slash, and the last naming one is neither idle nor a double dot
      obtain ⟨front, hfront⟩ := List.getLast?_eq_some_iff.1 hlast
      have last_mem : last ∈ namingSegments path.toList := List.mem_of_getLast? hlast
      refine ⟨front, hfront, not_isIdle_of_getLast?_trimIdle hlast, by simpa using not_up, ?_⟩
      exact slash_not_mem_segment (mem_of_mem_trimIdle last_mem)

theorem slash_not_mem_naming {cs segment : List Char} (h : segment ∈ namingSegments cs) :
    '/' ∉ segment :=
  slash_not_mem_segment (mem_of_mem_trimIdle h)

theorem lead_namingSegments (place : Location) (cs : List Char) :
    lead place (namingSegments cs) = lead place (segmentsOf cs) := by
  rw [namingSegments, lead_trimIdle, lead_drop_anchor]

/-- The path above one with a file name. -/
theorem parent?_of_naming {path : String} {front : List (List Char)} {last : List Char}
    (h : namingSegments path.toList = front ++ [last]) :
    parent? path =
      some (String.ofList (anchorOf path.toList ++ ofSegments (trimIdle front))) := by
  rw [parent?, ancestors, h, above, dif_neg (by simp)]
  show some (String.ofList
    (anchorOf path.toList ++ ofSegments (trimIdle (front ++ [last]).dropLast))) = _
  rw [List.dropLast_concat]

theorem anchorOf_cases (cs : List Char) :
    (∃ rest, cs = '/' :: rest ∧ anchorOf cs = ['/']) ∨ cs = ['.'] ∨
      (∃ rest, cs = '.' :: '/' :: rest ∧ anchorOf cs = ['.']) ∨
      cs.head? ≠ some '/' ∧ anchorOf cs = [] := by
  unfold anchorOf
  split
  · exact .inl ⟨_, rfl, rfl⟩
  · exact .inr (.inl rfl)
  · exact .inr (.inr (.inl ⟨_, rfl, rfl⟩))
  · rename_i not_slash _ _
    refine .inr (.inr (.inr ⟨?_, rfl⟩))
    intro hhead
    obtain ⟨rest, rfl⟩ := List.head?_eq_some_iff.1 hhead
    exact not_slash rest rfl

theorem head?_trimIdle {segments : List (List Char)} (h : trimIdle segments ≠ []) :
    (trimIdle segments).head? = segments.head? := by
  obtain ⟨idle, hsplit, -⟩ := trimIdle_spec segments
  obtain ⟨s, rest, htrim⟩ := List.exists_cons_of_ne_nil h
  rw [htrim] at hsplit ⊢
  rw [hsplit]
  rfl

/-- What stands in front of a file name starts as the path does after its anchor. -/
theorem head?_front {cs : List Char} {front : List (List Char)} {last : List Char}
    (h : namingSegments cs = front ++ [last]) (hne : trimIdle front ≠ []) :
    (trimIdle front).head? = (segmentsOf (cs.drop (anchorOf cs).length)).head? := by
  have naming_ne : trimIdle (segmentsOf (cs.drop (anchorOf cs).length)) ≠ [] := by
    rw [← namingSegments, h]
    simp
  have front_ne : front ≠ [] := by
    rintro rfl
    exact hne rfl
  -- nothing is dropped at the front, neither with the file name nor without it
  rw [head?_trimIdle hne, ← head?_trimIdle naming_ne, ← namingSegments, h]
  obtain ⟨s, rest, rfl⟩ := List.exists_cons_of_ne_nil front_ne
  rfl

theorem slash_not_mem_front {cs : List Char} {front : List (List Char)} {last : List Char}
    (h : namingSegments cs = front ++ [last]) : ∀ s ∈ trimIdle front, '/' ∉ s := by
  intro s hs
  apply slash_not_mem_naming
  rw [h]
  exact List.mem_append_left _ (mem_of_mem_trimIdle hs)

/-- The path in front of a file name leads where its segments lead. -/
theorem lead_front {cs : List Char} {front : List (List Char)} {last : List Char}
    (h : namingSegments cs = front ++ [last]) (place : Location) :
    lead place (segmentsOf (ofSegments (trimIdle front))) = lead place front := by
  rw [lead_ofSegments (slash_not_mem_front h), lead_trimIdle]

theorem head?_ofSegments {c : Char} {s : List Char} {rest : List (List Char)} :
    (ofSegments ((c :: s) :: rest)).head? = some c := by
  cases rest <;> simp [ofSegments, List.intercalate_cons_cons]

theorem isAbsolute_of_slash_not_mem {name : String} (h : '/' ∉ name.toList) :
    isAbsolute name = false := by
  unfold isAbsolute
  cases hletters : name.toList with
  | nil => rfl
  | cons c cs =>
    have not_slash : c ≠ '/' := by
      rintro rfl
      exact h (by simp [hletters])
    simpa using not_slash

end Path

namespace World

variable (w : World)

/-- The place that a path leads to. -/
def destination (path : String) : Location :=
  Path.lead (w.startOf path) (Path.segmentsOf path.toList)

theorem startOf_eq_of_head? {path path' : String}
    (h : path.toList.head? = path'.toList.head?) : w.startOf path = w.startOf path' := by
  rw [startOf, startOf, Path.isAbsolute, Path.isAbsolute, h]

/-- A name after a path leads one step further. -/
theorem destination_join {base name : String} (hbase : base ≠ "") (hname : '/' ∉ name.toList) :
    w.destination (Path.join base name) = Path.advance (w.destination base) name.toList := by
  have name_segments := Path.segmentsOf_of_not_mem hname
  have base_ne : base.toList ≠ [] := by simpa using hbase
  have same_start : ∀ more : String, w.startOf (base ++ more) = w.startOf base := by
    intro more
    apply startOf_eq_of_head?
    obtain ⟨c, cs, hletters⟩ := List.exists_cons_of_ne_nil base_ne
    rw [String.toList_append, hletters]
    rfl
  have not_absolute := Path.isAbsolute_of_slash_not_mem hname
  have not_empty : base.isEmpty = false := by simpa using hbase
  unfold destination Path.join
  rw [not_absolute, not_empty]
  cases hslash : Path.endsWithSlash base with
  | true =>
    -- the empty segment after the last slash of the base leads nowhere
    have last_slash : base.toList.getLast? = some '/' := by simpa [Path.endsWithSlash] using hslash
    obtain ⟨front, hfront⟩ := List.getLast?_eq_some_iff.1 last_slash
    have joined : (base ++ name).toList = front ++ '/' :: name.toList := by
      simp [String.toList_append, hfront]
    show Path.lead (w.startOf (base ++ name)) (Path.segmentsOf (base ++ name).toList) = _
    rw [same_start, joined, hfront, Path.segmentsOf_append_slash, Path.segmentsOf_append_slash,
      name_segments, Path.lead_append, Path.lead_append]
    rfl
  | false =>
    have joined : (base ++ "/" ++ name).toList = base.toList ++ '/' :: name.toList := by
      simp [String.toList_append]
    show Path.lead (w.startOf (base ++ "/" ++ name))
      (Path.segmentsOf (base ++ "/" ++ name).toList) = _
    rw [String.append_assoc, same_start, ← String.append_assoc, joined,
      Path.segmentsOf_append_slash, name_segments, Path.lead_append]
    rfl

theorem destination_of_naming {path : String} {front : List (List Char)} {name : String}
    (hnaming : Path.namingSegments path.toList = front ++ [name.toList])
    (hidle : Path.isIdle name.toList = false) (hup : name.toList ≠ ['.', '.']) :
    w.destination path = Path.lead (w.startOf path) front ++ [name] := by
  rw [destination, ← Path.lead_namingSegments, hnaming, Path.lead_append, Path.lead_cons,
    Path.lead_nil, Path.advance_name hidle hup, String.ofList_toList]

/-- A file lies in a place by its name. -/
theorem destination_of_fileName? {path name : String} (h : Path.fileName? path = some name) :
    w.destination path = (w.destination path).dropLast ++ [name] := by
  obtain ⟨front, hnaming, hidle, hup, -⟩ := Path.namingSegments_of_fileName? h
  rw [destination_of_naming w hnaming hidle hup, List.dropLast_concat]

/-- The path above one with a file name leads to the place that the file lies in. -/
theorem destination_parent {path parent : String} {front : List (List Char)} {last : List Char}
    (hnaming : Path.namingSegments path.toList = front ++ [last])
    (hparent : Path.parent? path = some parent) (hne : parent ≠ "") :
    w.destination parent = Path.lead (w.startOf path) front := by
  have parent_eq := Path.parent?_of_naming hnaming
  rw [hparent] at parent_eq
  have letters : parent.toList =
      Path.anchorOf path.toList ++ Path.ofSegments (Path.trimIdle front) := by
    rw [Option.some.inj parent_eq, String.toList_ofList]
  have along := Path.lead_front hnaming
  have starts := Path.head?_front hnaming
  -- the two paths start alike, so only the segments after the anchor are left to compare
  rcases Path.anchorOf_cases path.toList with ⟨rest, hpath, hanchor⟩ | hpath |
    ⟨rest, hpath, hanchor⟩ | ⟨hhead, hanchor⟩
  · -- both are absolute
    rw [hanchor] at letters
    have same_start : w.startOf parent = w.startOf path := by
      apply startOf_eq_of_head?
      rw [letters, hpath]
      rfl
    rw [destination, same_start, letters]
    exact along _
  · -- a lone dot has no file name
    rw [hpath] at hnaming
    have no_segments : Path.namingSegments ['.'] = [] := by decide
    simp [no_segments] at hnaming
  · -- the dot at the front stays where it is
    rw [hanchor] at letters
    have same_start : w.startOf parent = w.startOf path := by
      apply startOf_eq_of_head?
      rw [letters, hpath]
      rfl
    have empty_first :
        (Path.segmentsOf (Path.ofSegments (Path.trimIdle front))).head? = some [] := by
      by_cases htrim : Path.trimIdle front = []
      · rw [htrim]
        rfl
      · rw [Path.segmentsOf_ofSegments htrim (Path.slash_not_mem_front hnaming), starts htrim,
          hanchor, hpath]
        rfl
    rw [destination, same_start, letters, List.singleton_append, Path.lead_dot_cons empty_first]
    exact along _
  · -- both start with the same name
    rw [hanchor, List.nil_append] at letters
    have trim_ne : Path.trimIdle front ≠ [] := by
      intro htrim
      rw [htrim] at letters
      exact hne (String.toList_injective letters)
    have same_head : parent.toList.head? = path.toList.head? := by
      have first_eq := starts trim_ne
      rw [hanchor, List.length_nil, List.drop_zero] at first_eq
      cases hpath : path.toList with
      | nil =>
        rw [hpath] at hnaming
        have no_segments : Path.namingSegments [] = [] := by decide
        simp [no_segments] at hnaming
      | cons c cs =>
        have not_slash : c ≠ '/' := by
          rintro rfl
          exact hhead (by rw [hpath]; rfl)
        obtain ⟨first, more, hcs⟩ := List.exists_cons_of_ne_nil (Path.segmentsOf_ne_nil cs)
        rw [hpath, Path.segmentsOf_cons not_slash hcs] at first_eq
        obtain ⟨others, htrim⟩ := List.head?_eq_some_iff.1 first_eq
        rw [letters, htrim, Path.head?_ofSegments]
        rfl
    rw [destination, startOf_eq_of_head? w same_head, letters]
    exact along _

/-- Outputs lie beside the input where no other directory is given. -/
theorem destination_directoryFor {input name : String} (h : Path.fileName? input = some name) :
    w.destination (Outputs.directoryFor input none) = (w.destination input).dropLast := by
  obtain ⟨front, hnaming, hidle, hup, -⟩ := Path.namingSegments_of_fileName? h
  rw [destination_of_naming w hnaming hidle hup, List.dropLast_concat]
  have hparent := Path.parent?_of_naming hnaming
  unfold Outputs.directoryFor
  rw [hparent, Option.none_or]
  dsimp only
  split
  · rename_i empty
    -- an empty path stands for the working directory
    have nothing : Path.anchorOf input.toList ++ Path.ofSegments (Path.trimIdle front) = [] := by
      simpa using empty
    obtain ⟨no_anchor, no_segments⟩ := List.append_eq_nil_iff.1 nothing
    have relative : w.startOf input = w.workingDirectory := by
      rcases Path.anchorOf_cases input.toList with ⟨_, _, hanchor⟩ | hpath | ⟨_, _, hanchor⟩ |
        ⟨hhead, _⟩
      · rw [hanchor] at no_anchor
        cases no_anchor
      · rw [hpath] at no_anchor
        cases no_anchor
      · rw [hanchor] at no_anchor
        cases no_anchor
      · rw [startOf, Path.isAbsolute, if_neg (by simpa using hhead)]
    have stays := Path.lead_front hnaming (w.startOf input)
    rw [no_segments] at stays
    rw [← stays, relative]
    rfl
  · rename_i not_empty
    exact destination_parent w hnaming hparent (by simpa using not_empty)

end World

end ForeignBindings
