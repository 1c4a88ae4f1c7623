/-!
# Paths

Paths as text, with slashes between their segments. Empty segments and single dots name nothing,
except for a dot at the very start.

* `Path.fileName?` is the last segment that names something, if it is not a double dot.
* `Path.stem?` is the file name without its last extension.
* `Path.parent?` is the path up to the last segment that names something, spelled as it was.
* `Path.join` goes down from one path by another.
-/

namespace ForeignBindings.Path

/-- Cuts a text at its slashes. -/
def segmentsOf : List Char → List (List Char)
  | [] => [[]]
  | '/' :: cs => [] :: segmentsOf cs
  | c :: cs =>
    match segmentsOf cs with
    | [] => [[c]]
    | s :: ss => (c :: s) :: ss

/-- Puts slashes between segments. -/
def ofSegments (segments : List (List Char)) : List Char :=
  List.intercalate ['/'] segments

/-- The start of a path that is no segment: the slash of an absolute path, or the dot of a path
that starts at the working directory by name. -/
def anchorOf : List Char → List Char
  | '/' :: _ => ['/']
  | ['.'] => ['.']
  | '.' :: '/' :: _ => ['.']
  | _ => []

/-- The segment names nothing. -/
def isIdle (segment : List Char) : Bool :=
  segment.isEmpty || segment == ['.']

/-- Drops the segments at the end that name nothing. -/
def trimIdle (segments : List (List Char)) : List (List Char) :=
  (segments.reverse.dropWhile isIdle).reverse

theorem length_trimIdle_le (segments : List (List Char)) :
    (trimIdle segments).length ≤ segments.length := by
  have := (segments.reverse.dropWhile_sublist isIdle).length_le
  simpa [trimIdle] using this

/-- The segments after the anchor, up to the last one that names something. -/
def namingSegments (path : List Char) : List (List Char) :=
  trimIdle (segmentsOf (path.drop (anchorOf path).length))

/-- The last segment that names something, if it is not a double dot. -/
def fileName? (path : String) : Option String :=
  match (namingSegments path.toList).getLast? with
  | none => none
  | some name => if name == ['.', '.'] then none else some (String.ofList name)

/-- What stands before the last dot of a name, or the whole name if nothing does. -/
def withoutExtension (name : List Char) : List Char :=
  match (name.reverse.dropWhile (· != '.')).drop 1 with
  | [] => name
  | front => front.reverse

/-- The file name without its last extension. A dot at its start begins no extension. -/
def stem? (path : String) : Option String :=
  (fileName? path).map fun name => String.ofList (withoutExtension name.toList)

theorem length_trimIdle_dropLast_lt {segments : List (List Char)} (h : segments ≠ []) :
    (trimIdle segments.dropLast).length < segments.length := by
  have := length_trimIdle_le segments.dropLast
  have := List.length_pos_iff.2 h
  simp only [List.length_dropLast] at *
  omega

/-- The paths above one that consists of an anchor and some segments, the nearest first. -/
def above (anchor : List Char) (segments : List (List Char)) : List (List Char) :=
  if h : segments = [] then (if anchor == ['.'] then [[]] else [])
  else
    have := length_trimIdle_dropLast_lt h
    (anchor ++ ofSegments (trimIdle segments.dropLast)) ::
      above anchor (trimIdle segments.dropLast)
termination_by segments.length

/-- The paths above a path, the nearest first. -/
def ancestors (path : String) : List String :=
  (above (anchorOf path.toList) (namingSegments path.toList)).map String.ofList

/-- The path that a path lies in. -/
def parent? (path : String) : Option String :=
  (ancestors path).head?

/-- The path starts at the root. -/
def isAbsolute (path : String) : Bool :=
  path.toList.head? == some '/'

/-- The path ends with a slash. -/
def endsWithSlash (path : String) : Bool :=
  path.toList.getLast? == some '/'

/-- The path that another path leads to from this one. -/
def join (base : String) (path : String) : String :=
  if isAbsolute path then path
  else if base.isEmpty || endsWithSlash base then base ++ path
  else base ++ "/" ++ path

/-- The steps that a path takes: its segments that are not empty, dots and double dots included. -/
def steps (path : String) : List String :=
  ((segmentsOf path.toList).filter fun s => !s.isEmpty).map String.ofList

end ForeignBindings.Path
