import ForeignBindings.ForeignType

/-!
# Shape faults

Why the arguments of a directive do not have the shape that its kind asks for, and the wording of
each fault.
-/

namespace ForeignBindings

open Spec

/-- Lists of strings that a directive may ask for. -/
inductive Listed where
  | cText
  | headerNames
  | compilerFlags
  | packageNames
  | candidateMacros
  | memberNames
  | statements
deriving Repr, DecidableEq

/-- What a message calls the elements of such a list. -/
def Listed.phrase : Listed → String
  | cText => "C text"
  | headerNames => "header names"
  | compilerFlags => "compiler flags"
  | packageNames => "package names"
  | candidateMacros => "candidate macros"
  | memberNames => "native member names"
  | statements => "C statements"

/-- Why some arguments do not have the right shape. -/
inductive ShapeFault where
  /-- An element of a list of strings is something else. -/
  | notAString (what : Listed) (found : Form)
  | emptyList (what : Listed)
  | notCIdentifier (name : String)
  | notAName (found : Form)
  | unusableName (written : String)
  | keywordName (written : String)
  | notAType (fault : TypeFault)
  | notAnOption (found : Form)
  | unknownOption (key : String)
  | repeatedOption (key : String)
  | optionWithoutValue (key : String)
  | optionNotAString (key : String) (found : Form)
  | optionNotAFlag (key : String) (found : Form)
  | optionNotAName (key : String) (found : Form)
  | defineShape
  | defineName
  | defineValue
  | typedefShape
  | noPackages
  | namespaceShape
  | constantShape
  | constantHead
  | constantEmptyHead
  | noCandidates
  | unknownConstantType (name : String)
  | ctypeShape
  | nativeTypeNotAString
  | recordShape
  | slotShape
  | slotNativeNotAString
  | slotWithoutType (native : String)
  | slotCountTooLarge (native : String) (spelling : String)
  | slotCountInvalid (native : String) (found : Form)
  | repeatedSlot (name : String)
  | enumShape
  | enumEmptyHead
  | noMembers
  | repeatedMember (name : String)
  | memberShape
  | memberWithoutNative
  | memberManyNatives
  | wrapperShape
  | wrapperWithBodyShape
  | noStatements
  | wrapperHeadShape
  | wrapperHeadNotAName (found : Form)
  | notAFunctionName (native : String)
  | unknownConvention (name : String)
  | parameterShape (found : Form)
  | repeatedParameter (name : String)
  | voidParameter (name : String)
deriving Repr, Inhabited

/-- The wording of a shape fault. -/
def ShapeFault.message : ShapeFault → String
  | notAString what found => what.phrase ++ " must be strings, found " ++ found.description
  | emptyList what => "expected at least one " ++ what.phrase
  | notCIdentifier name => "`" ++ name ++ "` is not a C identifier"
  | notAName found => "expected a name, found " ++ found.description
  | unusableName written => "`" ++ written ++ "` is not usable as a Rust name"
  | keywordName written =>
    "`" ++ written ++ "` is a Rust keyword; give the binding another name"
  | notAType fault => fault.message
  | notAnOption found => "expected an option keyword, found " ++ found.description
  | unknownOption key => "unknown option `:" ++ key ++ "`"
  | repeatedOption key => "option `:" ++ key ++ "` given twice"
  | optionWithoutValue key => "option `:" ++ key ++ "` has no value"
  | optionNotAString key found => "`:" ++ key ++ "` wants a string, found " ++ found.description
  | optionNotAFlag key found => "`:" ++ key ++ "` wants true or false, found " ++ found.description
  | optionNotAName key found => "`:" ++ key ++ "` wants a name, found " ++ found.description
  | defineShape => "expected a macro name and an optional value"
  | defineName => "macro name must be a symbol or string"
  | defineValue => "macro value must be an atom"
  | typedefShape => "expected a base type string and an alias string"
  | noPackages => "expected at least one package name"
  | namespaceShape => "expected exactly one namespace name"
  | constantShape => "expected (NAME \"MACRO\"...)"
  | constantHead => "first argument must be a list (NAME \"MACRO\"...)"
  | constantEmptyHead => "empty name list"
  | noCandidates => "at least one candidate macro is required"
  | unknownConstantType name => "unknown constant type `" ++ name ++ "`"
  | ctypeShape => "expected NAME \"native type\""
  | nativeTypeNotAString => "native type must be a string"
  | recordShape => "expected NAME \"native type\" SLOT..."
  | slotShape => "slot must look like (NAME \"c_name\" :type TYPE [:count N])"
  | slotNativeNotAString => "slot native name must be a string"
  | slotWithoutType field => "slot `" ++ field ++ "` needs a :type"
  | slotCountTooLarge field spelling =>
    "slot `" ++ field ++ "` count " ++ spelling ++ " is too large"
  | slotCountInvalid field found =>
    "slot `" ++ field ++ "` has an invalid :count (" ++ found.description ++ ")"
  | repeatedSlot name => "slot `" ++ name ++ "` declared twice"
  | enumShape => "expected NAME or (NAME :base-type TYPE ...)"
  | enumEmptyHead => "empty enum name list"
  | noMembers => "an enum needs at least one member"
  | repeatedMember name => "member `" ++ name ++ "` declared twice"
  | memberShape => "member must look like (NAME \"C_NAME\" [:optional true])"
  | memberWithoutNative => "member needs a native name"
  | memberManyNatives => "cenum members take exactly one native name"
  | wrapperShape => "expected NAME RETURN-TYPE (PARAM TYPE)..."
  | wrapperWithBodyShape => "expected NAME RETURN-TYPE ((PARAM TYPE)...) \"statement\"..."
  | noStatements => "expected at least one C statement"
  | wrapperHeadShape => "expected (\"native\" [name] [:convention c|system])"
  | wrapperHeadNotAName found => "expected a native name, found " ++ found.description
  | notAFunctionName name => "`" ++ name ++ "` is not a valid C function name"
  | unknownConvention name => "unknown calling convention `" ++ name ++ "`"
  | parameterShape found => "parameter must be (NAME TYPE), found " ++ found.description
  | repeatedParameter name => "parameter `" ++ name ++ "` declared twice"
  | voidParameter name => "parameter `" ++ name ++ "` cannot be :void"

/-- A shape fault and the directive it was found in. -/
structure ShapeError where
  line : Nat
  tag : String
  fault : ShapeFault
deriving Repr, Inhabited

/-- The wording of a shape error. -/
def ShapeError.message (e : ShapeError) : String :=
  malformed e.line e.tag e.fault.message

end ForeignBindings
