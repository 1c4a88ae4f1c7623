import ForeignBindings.Entry.Fault

/-!
# Options

Pairs of a keyword and a value that may follow the other arguments of a directive or of one of its
parts. A key may stand only once, and only the keys that belong to the place may stand at all, so
no written option is ever ignored.
-/

namespace ForeignBindings

open Spec

/-- The options given at one place, in the order they are written. -/
structure Options where
  pairs : List (String × Form)

namespace Options

/-- The value given for a key. -/
def get? (o : Options) (key : String) : Option Form :=
  o.pairs.lookup key

/-- The key has been given a value. -/
def has (o : Options) (key : String) : Bool :=
  (o.get? key).isSome

/-- Reads what is left of some options after those already read. -/
def readFrom (allowed : List String) (o : Options) : List Form → Except ShapeFault Options
  | [] => .ok o
  | [.keyword key] =>
    if !allowed.contains key then .error (.unknownOption key)
    else if o.has key then .error (.repeatedOption key)
    else .error (.optionWithoutValue key)
  | .keyword key :: value :: rest =>
    if !allowed.contains key then .error (.unknownOption key)
    else if o.has key then .error (.repeatedOption key)
    else readFrom allowed ⟨o.pairs ++ [(key, value)]⟩ rest
  | found :: _ => .error (.notAnOption found)

/-- Reads options of which only the given keys may stand. -/
def read (allowed : List String) (forms : List Form) : Except ShapeFault Options :=
  readFrom allowed ⟨[]⟩ forms

/-- The text given for a key. -/
def string (o : Options) (key : String) : Except ShapeFault (Option String) :=
  match o.get? key with
  | none => .ok none
  | some (.string text) => .ok (some text)
  | some found => .error (.optionNotAString key found)

/-- The truth value given for a key, false if none is given. The namespace of the word does not
matter. -/
def flag (o : Options) (key : String) : Except ShapeFault Bool :=
  match o.get? key with
  | none => .ok false
  | some (.symbol s) =>
    if s.name == "true" then .ok true
    else if s.name == "false" then .ok false
    else .error (.optionNotAFlag key (.symbol s))
  | some found => .error (.optionNotAFlag key found)

/-- The name given for a key, as a plain word or a keyword. -/
def word (o : Options) (key : String) : Except ShapeFault (Option String) :=
  match o.get? key with
  | none => .ok none
  | some (.symbol s) => .ok (some s.name)
  | some (.keyword name) => .ok (some name)
  | some found => .error (.optionNotAName key found)

end Options

/-- Whether a form is a keyword, which starts the options after other arguments. -/
def Spec.Form.isKeyword (f : Form) : Bool :=
  f.keyword?.isSome

/-- The arguments before the first keyword, and the options from there on. -/
def splitAtOptions (forms : List Form) : List Form × List Form :=
  forms.span fun f => !f.isKeyword

end ForeignBindings
