import ServiceRegistry.Files.Failure
import ServiceRegistry.Files.Path

/-!
# Hosts

What the library needs of the machine that it runs on: a wall clock, environment variables, two
output streams and files.  All that it does with them is written over any host.
-/

namespace ServiceRegistry

/-- A machine whose acts are of type `m`. -/
structure Host (m : Type → Type) where
  /-- The wall clock, in milliseconds since the epoch. -/
  now : m Int
  environment (name : String) : m (Option String)
  /-- The absolute path of the working directory. -/
  workingDirectory : m String
  isDirectory (path : String) : m Bool
  makeDirectory (path : String) : m (Except FileFailure Unit)
  read (path : String) : m (Except FileFailure ByteArray)
  /-- Replaces the content of a file, which is made if it is not there. -/
  write (path : String) (content : ByteArray) : m (Except FileFailure Unit)
  /-- Adds to the end of a file, which is made if it is not there. -/
  append (path : String) (more : ByteArray) : m (Except FileFailure Unit)
  /-- Writes a line to the standard output. -/
  say (line : String) : m Unit
  /-- Writes a line to the standard error output. -/
  complain (line : String) : m Unit

namespace Host

variable {m : Type → Type} [Monad m] (host : Host m)

/-- Makes a directory unless it is there; what to do when the directory around it is missing is for
`retry` to say. -/
def makeDirectoryOr (path : String) (retry : m (Except FileFailure Unit)) :
    m (Except FileFailure Unit) := do
  match ← host.makeDirectory path with
  | .ok () => return .ok ()
  | .error .noEntry => retry
  | .error failure => return if ← host.isDirectory path then .ok () else .error failure

/-- Makes a directory and all those around it that are missing.  The steps that lead to it are
given with the innermost one first. -/
def makeDirectories (absolute : Bool) : (steps : List String) → m (Except FileFailure Unit)
  | [] => return .ok ()
  | step :: around => do
    let path := Path.ofSteps absolute (step :: around).reverse
    host.makeDirectoryOr path do
      match ← makeDirectories absolute around with
      | .error failure => return .error failure
      | .ok () => host.makeDirectoryOr path (return .error .noEntry)

end Host

end ServiceRegistry
