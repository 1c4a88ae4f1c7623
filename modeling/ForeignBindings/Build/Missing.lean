import ForeignBindings.Bindings.ProbeOutput
import ForeignBindings.Text.Blank

/-!
# Missing definitions

A probe reports each required definition that it does not find in a line of its own
(`ProbeOutput.missingLine`). Here the names are read back from everything that it has printed.
-/

namespace ForeignBindings.Missing

/-- What a line about a missing definition starts with. -/
def notice : String := "cgrovel: missing-definition: "

/-- What follows some characters at the start of others. -/
def dropFront? : List Char → List Char → Option (List Char)
  | [], cs => some cs
  | _ :: _, [] => none
  | p :: ps, c :: cs => if p == c then dropFront? ps cs else none

/-- The name that a line reports as missing. Blanks at its end do not count. -/
def nameOf? (line : List Char) : Option (List Char) :=
  dropFront? notice.toList (Text.trimEnd line)

/-- The names that a text reports as missing, in order. -/
def names (text : String) : List String :=
  ((Text.linesOf text.toList).filterMap nameOf?).map String.ofList

end ForeignBindings.Missing
