/-!
# File failures

Why an act on a file failed, with the wording and the number that the operating system gives it.
-/

namespace ServiceRegistry

inductive FileFailure
  | noEntry
  | permissionDenied
  | alreadyExists
  | notDirectory
  | isDirectory
  | nameTooLong
  /-- The path holds a NUL character, so no file can have it. -/
  | unusableName
  /-- Any other failure, in the system's words. -/
  | other (text : String)
deriving DecidableEq, Repr, Inhabited

def FileFailure.message : FileFailure → String
  | .noEntry => "No such file or directory (os error 2)"
  | .permissionDenied => "Permission denied (os error 13)"
  | .alreadyExists => "File exists (os error 17)"
  | .notDirectory => "Not a directory (os error 20)"
  | .isDirectory => "Is a directory (os error 21)"
  | .nameTooLong => "File name too long (os error 36)"
  | .unusableName => "file name contained an unexpected NUL byte"
  | .other text => text

end ServiceRegistry
