import ForeignBindings.Source.Draft

/-!
# Generated programs

The C program for a specification, with the flags it is compiled with and the declarations of its
bindings.

* `Generated.probe` is a program that prints the bindings. The text of header entries stands in
  front of its `main`, and everything else inside.
* `Generated.wrapper` is the source of a library of wrapper functions, in the order of the
  specification.
-/

namespace ForeignBindings

/-- A generated program. -/
structure Generated where
  lines : List SourceLine
  flags : List String
  declarations : List Declaration
deriving Repr, DecidableEq

namespace Generated

/-- The text of the program. -/
def source (g : Generated) : String :=
  SourceLine.render g.lines

/-- The first lines of every generated program. -/
def banner : List SourceLine :=
  [.plain "/* This file has been automatically generated by cgrovel.",
    .plain " * Do not edit it by hand. */",
    .plain ""]

/-- The start of the `main` of a probe, which opens the output. -/
def opening : List SourceLine :=
  [.plain "#include <cgrovel.h>",
    .plain "",
    .plain "int main(int argc, char **argv)",
    .plain "\x7b",
    .plain "  FILE *output = argc > 1 ? fopen(argv[1], \"w\") : stdout;",
    .plain "  if (output == NULL) \x7b",
    .plain "    perror(argv[1]);",
    .plain "    return 1;",
    .plain "  \x7d",
    .plain "  cgrovel_banner(output);"]

/-- The end of the `main` of a probe, which closes the output. -/
def closing : List SourceLine :=
  [.plain "if (output != stdout)",
    .plain "    fclose(output);",
    .plain "  return 0;",
    .plain "\x7d"]

/-- What a draft has collected. -/
def ofDraft (s : Draft) : Generated :=
  { lines := s.lines, flags := s.flags, declarations := s.declarations }

/-- Takes entries into a draft, and fails where one of them does. -/
def collect (s : Draft) (entries : List Placed) : Action GenerationError Draft := do
  let (outcome, s) ← s.acceptAll entries
  match outcome with
  | .ok () => return s
  | .error e => throw e

/-- The entries that the directives stand for in a mode. -/
def entries (mode : Mode) (directives : List Spec.Directive) :
    Except GenerationError (List Placed) :=
  ((Dialect.ofMode mode).interpretAll directives).mapError .interpret

/-- The program that prints the bindings for some directives. -/
def probe (directives : List Spec.Directive) : Action GenerationError Generated := do
  let all ← entries .probe directives
  let (header, body) := all.partition fun p => p.kind.isHeader
  let s := (Draft.start .probe).write banner
  let s ← collect s header
  let s ← collect (s.write (.plain "" :: opening)) body
  return ofDraft (s.closeModule.write closing)

/-- The library of wrapper functions for some directives. -/
def wrapper (directives : List Spec.Directive) : Action GenerationError Generated := do
  let all ← entries .wrapper directives
  let s ← collect ((Draft.start .wrapper).write banner) all
  return ofDraft s

/-- The program for some directives in a mode. -/
def ofDirectives : Mode → List Spec.Directive → Action GenerationError Generated
  | .probe => probe
  | .wrapper => wrapper

end Generated

end ForeignBindings
