import ServiceRegistry.Files.Failure
import ServiceRegistry.Files.Path

/-!
# Disks

A disk is a tree of directories and files, with a working directory from which relative paths
start.  A path is followed part by part; every part but the last has to lead to a directory, and a
slash at the end asks this of the last one too.

A place is given by the names that lead to it from the root, the innermost one first.
-/

namespace ServiceRegistry

/-- A place on a disk: the names that lead to it, the innermost one first. -/
abbrev Place : Type := List String

def Place.path (place : Place) : String := Path.ofSteps true place.reverse

inductive DiskEntry
  | directory
  | file (content : ByteArray)
deriving Inhabited

/-- A tree of directories and files.  The root is always there and has no entry. -/
structure Disk where
  entries : List (Place × DiskEntry) := []
  current : Place := []
deriving Inhabited

namespace Disk

/-- The length, in bytes, beyond which no path can be followed. -/
def maxFollowed : Nat := 4095

def entry? (disk : Disk) : Place → Option DiskEntry
  | [] => some .directory
  | place => disk.entries.lookup place

def put (disk : Disk) (place : Place) (entry : DiskEntry) : Disk :=
  { disk with entries := (place, entry) :: disk.entries.filter fun old => old.1 != place }

/-! ## Following paths -/

/-- The place to which one part of a path leads from a directory. -/
def child (disk : Disk) (place : Place) (part : String) : Except FileFailure Place :=
  match disk.entry? place with
  | none => .error .noEntry
  | some (.file _) => .error .notDirectory
  | some .directory =>
    if part = "" ∨ part = "." then .ok place
    else if part = ".." then .ok place.tail
    else if Path.maxPartLength < part.utf8ByteSize then .error .nameTooLong
    else .ok (part :: place)

/-- The place at which a path starts. -/
def origin (disk : Disk) (path : String) : Except FileFailure Place :=
  if path.toList.contains '\x00' then .error .unusableName
  else if path = "" then .error .noEntry
  else if maxFollowed < path.utf8ByteSize then .error .nameTooLong
  else .ok (if Path.isAbsolute path then [] else disk.current)

/-- The place to which a path leads; nothing need lie there. -/
def locate (disk : Disk) (path : String) : Except FileFailure Place := do
  (Path.parts path).foldlM disk.child (← disk.origin path)

def find (disk : Disk) (path : String) : Except FileFailure DiskEntry := do
  match disk.entry? (← disk.locate path) with
  | some entry => .ok entry
  | none => .error .noEntry

def holds (disk : Disk) (path : String) : Bool := (disk.find path).toBool

def isDirectory (disk : Disk) (path : String) : Bool :=
  match disk.find path with
  | .ok .directory => true
  | _ => false

/-! ## Reading and writing -/

def read (disk : Disk) (path : String) : Except FileFailure ByteArray := do
  match ← disk.find path with
  | .file content => .ok content
  | .directory => .error .isDirectory

/-- Makes a directory where nothing lies yet. -/
def makeDirectory (disk : Disk) (path : String) : Except FileFailure Disk := do
  let place ← disk.locate path
  match disk.entry? place with
  | some _ => .error .alreadyExists
  | none => .ok (disk.put place .directory)

/-- The place of a file that may have to be made.  A path that can only lead to a directory is
refused. -/
def locateFile (disk : Disk) (path : String) : Except FileFailure Place := do
  let origin ← disk.origin path
  match (Path.parts path).reverse.dropWhile (· == "") with
  | [] => .error .isDirectory
  | last :: before =>
    let place ← disk.child (← before.reverse.foldlM disk.child origin) last
    if path.endsWith "/" ∨ last = "." ∨ last = ".." then .error .isDirectory else .ok place

/-- Gives a file new content that depends on the old one; a file that is not there yet is made. -/
def modify (disk : Disk) (path : String) (change : ByteArray → ByteArray) :
    Except FileFailure Disk := do
  let place ← disk.locateFile path
  match disk.entry? place with
  | some .directory => .error .isDirectory
  | some (.file content) => .ok (disk.put place (.file (change content)))
  | none => .ok (disk.put place (.file (change .empty)))

/-- Replaces the content of a file, which is made if it is not there. -/
def write (disk : Disk) (path : String) (content : ByteArray) : Except FileFailure Disk :=
  disk.modify path fun _ => content

/-- Adds to the end of a file, which is made if it is not there. -/
def append (disk : Disk) (path : String) (more : ByteArray) : Except FileFailure Disk :=
  disk.modify path fun content => content ++ more

end Disk

end ServiceRegistry
