import ForeignBindings.Build.Pipeline

/-!
# What the user sees

The text of log messages and of the error that ends a run.

* A log message stands behind its level and its origin, and its later lines are indented.
* An error is shown with what the program was doing and with its causes, which are numbered if
  there is more than one. Later lines of a cause are indented as far as its first.
-/

namespace ForeignBindings.Report

/-- Puts one text for every newline of another. -/
def replaceNewlines (replacement : String) (text : String) : String :=
  String.join (text.toList.map fun c => if c == '\n' then replacement else String.ofList [c])

/-! ## Log messages -/

/-- The name of a level, in five columns. -/
def levelName : Level → String
  | .error => "ERROR"
  | .warn => "WARN "
  | .info => "INFO "
  | .debug => "DEBUG"
  | .trace => "TRACE"

/-- A log message as it is shown. -/
def logLine (entry : LogEntry) : String :=
  "[" ++ levelName entry.level ++ " " ++ entry.origin ++ "] " ++
    replaceNewlines "\n    " entry.message ++ "\n"

/-- The messages of a log that are shown. -/
def logText (shown : List Level) (log : List LogEntry) : String :=
  String.join ((log.filter fun entry => shown.contains entry.level).map logLine)

/-! ## Errors -/

/-- A cause that is the only one. -/
def loneCause (text : String) : String :=
  "    " ++ replaceNewlines "\n    " text

/-- A cause with its number. -/
def numberedCause (number : Nat) (text : String) : String :=
  let digits := toString number
  "".pushn ' ' (5 - digits.length) ++ digits ++ ": " ++ replaceNewlines "\n       " text

/-- Some causes with their numbers, from the given one on. -/
def numberedCauses (number : Nat) : List String → List String
  | [] => []
  | text :: rest => numberedCause number text :: numberedCauses (number + 1) rest

/-- The lines of the causes of an error. -/
def causeLines : List String → List String
  | [text] => [loneCause text]
  | texts => numberedCauses 0 texts

/-- An error as it is shown: what the program was doing, and the causes. -/
def errorText (context : String) (causes : List String) : String :=
  "Error: " ++ context ++ "\n\nCaused by:\n" ++ "\n".intercalate (causeLines causes) ++ "\n"

end ForeignBindings.Report

namespace ForeignBindings

/-- The texts of a build error and of what lies behind it. -/
def CommandError.causes (e : CommandError) : List String :=
  match e with
  | spawn _ cause => [e.message, cause.message]
  | failed .. => [e.message]

/-- The texts of a run error and of what lies behind it. -/
def RunError.causes (e : RunError) : List String :=
  match e with
  | host _ cause => [e.message, cause.message]
  | read _ cause => [e.message, cause.message]
  | generate _ => [e.message]
  | build cause => cause.causes

/-- The texts of a configuration error and of what lies behind it. -/
def ConfigurationError.causes (e : ConfigurationError) : List String :=
  match e with
  | unreadable _ cause => [e.message, cause.message]
  | malformed _ fault => [e.message, fault.name]

end ForeignBindings
