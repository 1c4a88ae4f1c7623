/-!
# Blank characters

White space in the sense of the Unicode property `White_Space`, and the two ways the library cuts
text at it: into words, and off the end of a line.
-/

namespace ForeignBindings.Text

/-- The 25 characters with the Unicode property `White_Space`. -/
def isBlank (c : Char) : Bool :=
  ('\t' ≤ c && c ≤ '\r') || c == ' ' || c == '\u0085' || c == '\u00a0' || c == '\u1680' ||
  ('\u2000' ≤ c && c ≤ '\u200a') || c == '\u2028' || c == '\u2029' || c == '\u202f' ||
  c == '\u205f' || c == '\u3000'

/-- The maximal runs of characters that are not blank, in order. -/
def wordsOf : List Char → List (List Char)
  | [] => []
  | c :: cs =>
    if isBlank c then wordsOf cs
    else match cs, wordsOf cs with
      | [], _ => [[c]]
      | d :: _, ws => if isBlank d then [c] :: ws else
        match ws with
        | [] => [[c]]
        | w :: rest => (c :: w) :: rest

/-- The words of a text: what stands between its blanks. -/
def words (s : String) : List String :=
  (wordsOf s.toList).map String.ofList

/-- The characters up to the last one that is not blank. -/
def trimEnd (cs : List Char) : List Char :=
  (cs.reverse.dropWhile isBlank).reverse

end ForeignBindings.Text
