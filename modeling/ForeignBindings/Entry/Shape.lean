import ForeignBindings.Entry.Basic
import ForeignBindings.Entry.Options

/-!
# Shapes

One shape for each kind of directive: what its arguments must look like, and the entry they stand
for. Where several things are wrong, the order of the checks decides which one is reported.

The main definitions are the twelve shapes at the end, from `verbatimShape` to
`wrapperWithBodyShape`; before them stand the parts they share: lists of strings, declared names,
slots, members, wrapper heads and parameters.
-/

namespace ForeignBindings

open Spec

/-- What a kind of directive asks of its arguments. -/
abbrev Shape := List Form → Except ShapeFault Entry

/-! ## Parts that shapes share -/

/-- Arguments that must all be strings. -/
def stringArguments (what : Listed) (forms : List Form) : Except ShapeFault (List String) :=
  forms.mapM fun f =>
    match f.string? with
    | some text => .ok text
    | none => .error (.notAString what f)

/-- Arguments that must be strings, at least one. -/
def stringList (what : Listed) (forms : List Form) : Except ShapeFault (List String) :=
  if forms.isEmpty then .error (.emptyList what) else stringArguments what forms

/-- Arguments that must be strings that C accepts as identifiers. -/
def identifierArguments (what : Listed) (forms : List Form) : Except ShapeFault (List String) := do
  let names ← stringArguments what forms
  match names.find? fun n => !Identifier.isIdentifier n with
  | some bad => .error (.notCIdentifier bad)
  | none => .ok names

/-- The text of an argument that stands for one token of C. -/
def bareToken? : Form → Option String
  | .symbol s => some s.name
  | .string text => some text
  | .integer n => some n.spelling
  | _ => none

/-- A name that the bindings can declare. The written name is for the message. -/
def declarable (name : String) (written : String) : Except ShapeFault String :=
  if !Identifier.isIdentifier name then .error (.unusableName written)
  else if Identifier.isKeyword name then .error (.keywordName written)
  else .ok name

/-- The name that a symbol declares, by the given rule for such names. -/
def declaredName (rule : String → String) (form : Form) : Except ShapeFault String :=
  match form.symbol? with
  | some s => declarable (rule s.name) s.name
  | none => .error (.notAName form)

/-- The type that an argument refers to. -/
def typeArgument (form : Form) : Except ShapeFault ForeignType :=
  (ForeignType.ofForm form).mapError .notAType

/-- Text in front of other arguments, as documentation. -/
def leadingText : List Form → Option String × List Form
  | .string text :: rest => (some text, rest)
  | forms => (none, forms)

/-- Reads a list of parts that must have different names. -/
def distinctParts {α : Type} (read : Form → Except ShapeFault α) (name : α → String)
    (repeated : String → ShapeFault) : List String → List Form → Except ShapeFault (List α)
  | _, [] => .ok []
  | seen, form :: rest => do
    let part ← read form
    if seen.contains (name part) then throw (repeated (name part))
    let others ← distinctParts read name repeated (name part :: seen) rest
    return part :: others

/-! ## Slots and members -/

/-- The number of elements that a slot asks for. -/
def elementCount (native : String) : Option Form → Except ShapeFault ElementCount
  | none => .ok (.fixed 1)
  | some (.string expression) => .ok (.named expression)
  | some (.symbol s) => .ok (.named s.name)
  | some (.keyword name) =>
    if name == "auto" then .ok .auto else .error (.slotCountInvalid native (.keyword name))
  | some (.integer n) =>
    if n.value ≤ 0 then .error (.slotCountInvalid native (.integer n))
    else if n.value < Word.count then .ok (.fixed n.value.toNat)
    else .error (.slotCountTooLarge native n.spelling)
  | some found => .error (.slotCountInvalid native found)

/-- A slot: a name, the native name, and options of which the type must be given. -/
def slotArgument (form : Form) : Except ShapeFault Slot :=
  match form.list? with
  | some (name :: native :: rest) => do
    let some native := native.string? | throw .slotNativeNotAString
    let options ← Options.read ["type", "count"] rest
    let some type := options.get? "type" | throw (.slotWithoutType native)
    let count ← elementCount native (options.get? "count")
    let name ← declaredName Identifier.constantName name
    let type ← typeArgument type
    return { name, native, type, count }
  | _ => .error .slotShape

/-- A member of an enumeration: a name, its native names, and options. Only macros may have more
than one native name. -/
def memberArgument (macros : Bool) (form : Form) : Except ShapeFault Member :=
  match form.list? with
  | some (name :: rest) => do
    let (candidates, options) := splitAtOptions rest
    if candidates.isEmpty then throw .memberWithoutNative
    if candidates.length > 1 && !macros then throw .memberManyNatives
    let options ← Options.read ["documentation", "optional"] options
    let name ← declaredName Identifier.constantName name
    let candidates ← identifierArguments .memberNames candidates
    let documentation ← options.string "documentation"
    let optional ← options.flag "optional"
    return { name, candidates, documentation, optional }
  | _ => .error .memberShape

/-! ## Wrapper signatures -/

/-- What a wrapper is called and how. -/
structure Heading where
  name : String
  native : String
  convention : CallingConvention
  documentation : Option String

/-- The parts of a wrapper head: the native name, the other name if one is given, and options. -/
def headingParts : Form → Except ShapeFault (String × Option Form × List Form)
  | .string native => .ok (native, none, [])
  | .list (.string native :: .symbol s :: options) => .ok (native, some (.symbol s), options)
  | .list (.string native :: options) => .ok (native, none, options)
  | .list _ => .error .wrapperHeadShape
  | found => .error (.wrapperHeadNotAName found)

/-- A wrapper head: a native function name, alone or in a list with more. -/
def headingArgument (form : Form) : Except ShapeFault Heading := do
  let (native, name, options) ← headingParts form
  if !Identifier.isIdentifier native then throw (.notAFunctionName native)
  let name ← match name with
    | some form => declaredName Identifier.typeName form
    | none => declarable native native
  let options ← Options.read ["convention", "documentation"] options
  let convention ← match ← options.word "convention" with
    | none | some "c" => pure .c
    | some "system" => pure .system
    | some other => throw (.unknownConvention other)
  let documentation ← options.string "documentation"
  return { name, native, convention, documentation }

/-- The parameters of a wrapper: lists of a name and a type with values. -/
def parameterArguments (seen : List String) :
    List Form → Except ShapeFault (List (String × ForeignType))
  | [] => .ok []
  | .list [name, type] :: rest => do
    let name ← declaredName Identifier.typeName name
    if seen.contains name then throw (.repeatedParameter name)
    let type ← typeArgument type
    if type.isVoid then throw (.voidParameter name)
    let others ← parameterArguments (name :: seen) rest
    return (name, type) :: others
  | found :: _ => .error (.parameterShape found)

/-! ## The shapes -/

/-- Lines of C text. -/
def verbatimShape : Shape := fun forms =>
  Entry.verbatim <$> stringList .cText forms

/-- Names of headers. -/
def headerShape : Shape := fun forms =>
  Entry.headers <$> stringList .headerNames forms

/-- A macro and perhaps its value. -/
def defineShape : Shape := fun forms =>
  match forms with
  | [name] =>
    match bareToken? name with
    | some name => .ok (.define name none)
    | none => .error .defineName
  | [name, value] =>
    match bareToken? name, bareToken? value with
    | none, _ => .error .defineName
    | some _, none => .error .defineValue
    | some name, some value => .ok (.define name (some value))
  | _ => .error .defineShape

/-- A type and another name for it. -/
def typedefShape : Shape := fun forms =>
  match forms with
  | [.string base, .string name] => .ok (.typedef base name)
  | _ => .error .typedefShape

/-- Flags for the compiler. -/
def flagsShape : Shape := fun forms =>
  Entry.flags <$> stringList .compilerFlags forms

/-- Names of packages and options. -/
def packagesShape : Shape := fun forms => do
  let (names, options) := splitAtOptions forms
  if names.isEmpty then throw .noPackages
  let names ← stringArguments .packageNames names
  let options ← Options.read ["optional"] options
  let optional ← options.flag "optional"
  return .packages names optional

/-- The name of a namespace. -/
def namespaceShape : Shape := fun forms =>
  match forms with
  | [name] => Entry.inNamespace <$> declaredName Identifier.typeName name
  | _ => .error .namespaceShape

/-- A list of a name and macros, and options. -/
def constantShape : Shape := fun forms =>
  match forms with
  | [] => .error .constantShape
  | .list [] :: _ => .error .constantEmptyHead
  | .list (name :: candidates) :: rest => do
    let name ← declaredName Identifier.constantName name
    if candidates.isEmpty then throw .noCandidates
    let candidates ← identifierArguments .candidateMacros candidates
    let options ← Options.read ["documentation", "optional", "type"] rest
    let type ← match ← options.word "type" with
      | none | some "integer" => pure .integer
      | some "double" => pure .double
      | some other => throw (.unknownConstantType other)
    let documentation ← options.string "documentation"
    let optional ← options.flag "optional"
    return .constant { name, candidates, documentation, optional, type }
  | _ => .error .constantHead

/-- A name, a native type, and options. -/
def ctypeShape : Shape := fun forms =>
  match forms with
  | name :: native :: rest => do
    let some native := native.string? | throw .nativeTypeNotAString
    let options ← Options.read ["documentation"] rest
    let name ← declaredName Identifier.typeName name
    let documentation ← options.string "documentation"
    return .intAlias { name, native, documentation }
  | _ => .error .ctypeShape

/-- A name, a native type, perhaps documentation, and slots with different names. -/
def recordShape (kind : Layout) : Shape := fun forms =>
  match forms with
  | name :: native :: rest => do
    let name ← declaredName Identifier.typeName name
    let some native := native.string? | throw .nativeTypeNotAString
    let (documentation, slots) := leadingText rest
    let slots ← distinctParts slotArgument Slot.name .repeatedSlot [] slots
    return .record { kind, name, native, documentation, slots }
  | _ => .error .recordShape

/-- The name and the options of an enumeration. -/
def enumHead : Form → Except ShapeFault (Form × List Form)
  | .list [] => .error .enumEmptyHead
  | .list (name :: options) => .ok (name, options)
  | name => .ok (name, [])

/-- A name with options, perhaps documentation, and members with different names. Only an
enumeration of macros can ask for constants. -/
def enumShape (macros : Bool) : Shape := fun forms =>
  match forms with
  | [] => .error .enumShape
  | head :: rest => do
    let (name, options) ← enumHead head
    let allowed := if macros then ["base-type", "define-constants"] else ["base-type"]
    let options ← Options.read allowed options
    let base ← match options.get? "base-type" with
      | some type => typeArgument type
      | none => pure (.primitive .int)
    let (documentation, members) := leadingText rest
    if members.isEmpty then throw .noMembers
    let members ← distinctParts (memberArgument macros) Member.name .repeatedMember [] members
    let name ← declaredName Identifier.typeName name
    let defineConstants ← options.flag "define-constants"
    return .enumeration
      { name, base, documentation, macroMembers := macros, defineConstants, members }

/-- A head, the type of the result, and parameters. -/
def wrapperShape : Shape := fun forms =>
  match forms with
  | head :: result :: rest => do
    let head ← headingArgument head
    let result ← typeArgument result
    let parameters ← parameterArguments [] rest
    return .wrapper
      { name := head.name, native := head.native, convention := head.convention,
        documentation := head.documentation, result, parameters, body := .forward }
  | _ => .error .wrapperShape

/-- A head, the type of the result, a list of parameters, and C statements. -/
def wrapperWithBodyShape : Shape := fun forms =>
  match forms with
  | head :: result :: .list params :: body => do
    if body.isEmpty then throw .noStatements
    let head ← headingArgument head
    let result ← typeArgument result
    let parameters ← parameterArguments [] params
    let body ← stringArguments .statements body
    return .wrapper
      { name := head.name, native := head.native, convention := head.convention,
        documentation := head.documentation, result, parameters, body := .statements body }
  | _ => .error .wrapperWithBodyShape

/-- The shape that a kind of directive asks for. -/
def Spec.Kind.shape : Kind → Shape
  | verbatim => verbatimShape
  | header => headerShape
  | define => defineShape
  | typedef => typedefShape
  | flag | compilerFlags => flagsShape
  | packageFlags => packagesShape
  | inNamespace => namespaceShape
  | constant => constantShape
  | ctype => ctypeShape
  | struct => recordShape .struct
  | union => recordShape .union
  | enum => enumShape false
  | constantEnum => enumShape true
  | wrapper => wrapperShape
  | wrapperWithBody => wrapperWithBodyShape

end ForeignBindings
