/-!
# Errors of the host

Why the host refuses to read, write or start something, in the words of a Linux system.
-/

namespace ForeignBindings

/-- Why the host refuses. -/
inductive HostError where
  | notFound
  | permissionDenied
  | alreadyExists
  | notADirectory
  | isADirectory
  | nameTooLong
  /-- The bytes of a file are no text. -/
  | notText
  /-- A path with a NUL character, which no file has. -/
  | nulInPath
  /-- An argument with a NUL character, which no program can be given. -/
  | nulInArgument
  /-- A path that names no file to derive others from. -/
  | noFileName
  /-- A directory that has no parent to be created in. -/
  | noParent
deriving Repr, DecidableEq

/-- The wording of a host error. -/
def HostError.message : HostError → String
  | notFound => "No such file or directory (os error 2)"
  | permissionDenied => "Permission denied (os error 13)"
  | alreadyExists => "File exists (os error 17)"
  | notADirectory => "Not a directory (os error 20)"
  | isADirectory => "Is a directory (os error 21)"
  | nameTooLong => "File name too long (os error 36)"
  | notText => "stream did not contain valid UTF-8"
  | nulInPath => "file name contained an unexpected NUL byte"
  | nulInArgument => "nul byte found in provided data"
  | noFileName => "input has no file name"
  | noParent => "failed to create whole tree"

end ForeignBindings
