import ForeignBindings.Source.Line

/-!
# Lines for items of the bindings

The lines of C that print a constant, a type, a record or an enumeration.

* `candidateLines` is the chain of conditionals that takes the first candidate that is defined,
  and reports the name if none is and it is required.
* `Constant.lines`, `Alias.lines`, `Record.lines` and `Enumeration.lines` are the lines of each
  item.
-/

namespace ForeignBindings

/-- The first conditional of a chain is an `#if`, every other one an `#elif`. -/
def branchLines (call : String → ProbeCall) (first : Bool) : List String → List SourceLine
  | [] => []
  | candidate :: rest =>
    .conditional (if first then .ifDefined candidate else .elifDefined candidate) ::
      .call (call candidate) :: branchLines call false rest

/-- A call for the first candidate that is defined. If none is, an item that is not optional is
reported as missing. -/
def candidateLines (candidates : List String) (optional : Bool) (missingName : String)
    (call : String → ProbeCall) : List SourceLine :=
  branchLines call true candidates ++
    (if optional then []
      else [.conditional .otherwise, .call (.missing missingName)]) ++
    [.conditional .endif]

/-- The lines that print a constant. -/
def Constant.lines (c : Constant) : List SourceLine :=
  candidateLines c.candidates c.optional c.name fun native =>
    .constant c.type c.name native c.documentation

/-- The line that prints a type. -/
def Alias.lines (a : Alias) : List SourceLine :=
  [.call (.intAlias a.name a.native a.documentation)]

/-- The lines that print a record, inside the module `current` or at the root. -/
def Record.lines (r : Record) (current : Option String) : List SourceLine :=
  .call (.recordBegin r.kind r.name r.native r.documentation) ::
    r.slots.map (fun s =>
      .call (.slot r.kind r.native s.native s.name (s.type.path current) s.count)) ++
    [.call .recordEnd]

/-- The lines that print a member of an enumeration of plain enumerators. An optional one is
printed only where its name is defined as a macro. -/
def Member.plainLines (m : Member) : List SourceLine :=
  match m.native? with
  | none => []
  | some native =>
    let line := SourceLine.call (.enumMember m.name native m.documentation)
    if m.optional then [.conditional (.ifdef native), line, .conditional .endif] else [line]

/-- The lines that print a member of an enumeration of macros. -/
def Member.candidateLines (m : Member) (enumeration : String) : List SourceLine :=
  ForeignBindings.candidateLines m.candidates m.optional (enumeration ++ "::" ++ m.name)
    fun native => .enumMember m.name native m.documentation

/-- The lines that print a member of the given enumeration. -/
def Enumeration.memberLines (e : Enumeration) (m : Member) : List SourceLine :=
  if e.macroMembers then m.candidateLines e.name else m.plainLines

/-- A member as a constant. It is optional, since the enumeration reports it if it is missing. -/
def Member.asConstant (m : Member) : Constant :=
  { name := m.name, candidates := m.candidates, documentation := m.documentation,
    optional := true, type := .integer }

/-- The lines that print an enumeration, inside the module `current` or at the root. -/
def Enumeration.lines (e : Enumeration) (current : Option String) : List SourceLine :=
  .call (.enumBegin e.name (e.base.path current) e.documentation) ::
    e.members.flatMap e.memberLines ++
    .call .enumEnd ::
    if e.defineConstants then e.members.flatMap fun m => m.asConstant.lines else []

end ForeignBindings
