import ForeignBindings.Entry.Shape

/-!
# Dialects

A dialect says which kinds of directives are understood, and as what. There are two of them: one
for probes and one for wrappers. Others can be put together by `Dialect.assign`.

* `Dialect.interpret` gives the entry of one directive.
* `Dialect.interpretAll` gives the entries of a whole specification, or the first error.
-/

namespace ForeignBindings

open Spec

/-- What is made from a specification. -/
inductive Mode where
  /-- A program that prints the bindings when it is run on the target. -/
  | probe
  /-- A library of C functions, and bindings that declare them. -/
  | wrapper
deriving Repr, DecidableEq, Inhabited

/-- The kinds of directives that both modes understand. -/
def sharedKinds : List Kind :=
  [.verbatim, .header, .define, .typedef, .flag, .compilerFlags, .packageFlags, .inNamespace]

/-- The kinds of directives that only one mode understands. -/
def Mode.ownKinds : Mode → List Kind
  | probe => [.constant, .ctype, .struct, .union, .enum, .constantEnum]
  | wrapper => [.wrapper, .wrapperWithBody]

/-- Why a tag cannot be given a shape. -/
inductive RegistrationError where
  | unknownTag (tag : String)
  | duplicate (tag : String)
deriving Repr, DecidableEq

/-- The wording of a registration error. -/
def RegistrationError.message : RegistrationError → String
  | unknownTag tag => "cannot register unknown directive tag `" ++ tag ++ "`"
  | duplicate tag => "directive tag `" ++ tag ++ "` registered twice"

/-- Why a directive stands for no entry. -/
inductive InterpretError where
  | shape (e : ShapeError)
  /-- A tag of no kind, or of a kind that the dialect does not understand. -/
  | unknownDirective (tag : String) (line : Nat)
deriving Repr, Inhabited

/-- The wording of an interpretation error. -/
def InterpretError.message : InterpretError → String
  | shape e => e.message
  | unknownDirective tag line =>
    "line " ++ toString line ++ ": unknown directive `" ++ tag ++ "`"

/-- The shapes by which kinds of directives are understood. -/
structure Dialect where
  shape? : Kind → Option Shape

namespace Dialect

/-- The dialect that understands nothing. -/
def empty : Dialect := ⟨fun _ => none⟩

/-- Understands a kind by a shape, whatever it was understood by before. -/
def insert (d : Dialect) (kind : Kind) (shape : Shape) : Dialect :=
  ⟨fun k => if k = kind then some shape else d.shape? k⟩

/-- Gives a tag a shape. A second shape for the same tag is an error, and yet it is the one in
force afterwards. -/
def assign (d : Dialect) (tag : String) (shape : Shape) :
    Except RegistrationError Unit × Dialect :=
  match Kind.ofTag? tag with
  | none => (.error (.unknownTag tag), d)
  | some kind =>
    let outcome := if (d.shape? kind).isSome then .error (.duplicate tag) else .ok ()
    (outcome, d.insert kind shape)

/-- The dialect of a mode: each kind it understands by its own shape. -/
def ofMode (mode : Mode) : Dialect :=
  (sharedKinds ++ mode.ownKinds).foldl (fun d k => (d.assign k.tag k.shape).2) empty

/-- The entry that a directive stands for. -/
def interpret (d : Dialect) (directive : Directive) : Except InterpretError Placed :=
  match (Kind.ofTag? directive.tag).bind fun k => (d.shape? k).map fun s => (k, s) with
  | none => .error (.unknownDirective directive.tag directive.line)
  | some (kind, shape) =>
    match shape directive.arguments with
    | .ok entry => .ok ⟨kind, directive.line, entry⟩
    | .error fault => .error (.shape ⟨directive.line, directive.tag, fault⟩)

/-- The entries that the directives of a specification stand for, or the first error. -/
def interpretAll (d : Dialect) (directives : List Directive) :
    Except InterpretError (List Placed) :=
  directives.mapM d.interpret

end Dialect

end ForeignBindings
