import ServiceRegistry.Host
import ServiceRegistry.Storage.Archive
import ServiceRegistry.Storage.DatabaseSettings

/-!
# Opening a database

A database is opened at the path of its settings; the directories around it are made as needed, and
so is its file.  The path is checked before anything is made.

* `DatabaseSettings.pathFault?` is the check of the path's text.
* The engine follows the path by its text alone: a part of two dots takes back the part before it
  (`engineSteps?`).  It keeps a journal beside the file, so there has to be room for the journal's
  path before the file is opened and for its name when it is first written.
* One path stands for a database in memory, which has no file.
-/

namespace ServiceRegistry

inductive OpeningFault
  | database (fault : DatabaseFault)
  | timeoutTooLong
deriving DecidableEq, Repr, Inhabited

def OpeningFault.message : OpeningFault → String
  | .database fault => fault.message
  | .timeoutTooLong => "too big"

/-- An open database, and the path of its file if it has one. -/
structure OpenDatabase where
  file : Option String
  tables : Database
deriving Repr, Inhabited

namespace DatabaseSettings

/-- The longest time, in milliseconds, that the engine can wait for a lock. -/
def maxBusyTimeout : Nat := 2147483647

def pathFault? (path : String) : Option DatabaseFault :=
  if path = "" then some ⟨.invalid, "store path must not be empty"⟩
  else if Path.isLong path then some ⟨.invalid, "store path exceeds length limit"⟩
  else if Path.hasLongPart path then
    some ⟨.invalid, "store path contains an overlong component"⟩
  else none

/-- Whether settings meet all that opening asks of them whatever lies on the disk. -/
def Sound (s : DatabaseSettings) : Prop :=
  pathFault? s.path = none ∧ s.busyTimeout ≤ maxBusyTimeout

end DatabaseSettings

namespace Database

def transientPath : String := ":memory:"

/-- The room, in bytes, for a path while the engine follows it. -/
def maxFollowedLength : Nat := 511

/-- The room, in bytes, for the path of a journal. -/
def maxJournalLength : Nat := 512

def journalEnding : String := "-journal"

/-- Adds a part to the steps that lead to a place, the innermost one first, unless there is no room
for it. -/
def engineStep? (steps : List String) (part : String) : Option (List String) :=
  if part = "" ∨ part = "." then some steps
  else if part = ".." then some steps.tail
  else
    let longer := part :: steps
    if (Path.ofSteps true longer.reverse).utf8ByteSize ≤ maxFollowedLength then some longer
    else none

/-- The steps from the root to the file that the engine opens, the innermost one first; the root
itself is no file. -/
def engineSteps? (workingDirectory path : String) : Option (List String) := do
  let start := if Path.isAbsolute path then [] else (Path.steps workingDirectory).reverse
  let steps ← (Path.parts path).foldlM engineStep? start
  let journal := Path.ofSteps true steps.reverse ++ journalEnding
  if steps = [] ∨ maxJournalLength < journal.utf8ByteSize then none else some steps

/-- Whether the file at the end of these steps can have a journal beside it. -/
def canHaveJournal (steps : List String) : Bool :=
  (steps.headD "" ++ journalEnding).utf8ByteSize ≤ Path.maxPartLength

/-- A failure of the engine while it opens a file. -/
def engineFault (detail : String) : OpeningFault := .database ⟨.engine, detail⟩

/-- Reads the tables of a file; a file that is not there yet is made. -/
def readFile {m : Type → Type} [Monad m] (host : Host m) (file : String) :
    m (Except OpeningFault Database) := do
  let content ← match ← host.read file with
    | .error .noEntry =>
      match ← host.write file .empty with
      | .ok () => pure (.ok .empty)
      | .error failure => pure (.error failure)
    | result => pure result
  match content with
  | .error failure => return .error (engineFault failure.message)
  | .ok content =>
    match ofBytes? content with
    | none => return .error (engineFault "file is not a database")
    | some tables => return .ok tables

/-- Makes the tables of a file ready for use. -/
def start (settings : DatabaseSettings) (tables : Database) : Except OpeningFault Database :=
  if DatabaseSettings.maxBusyTimeout < settings.busyTimeout then .error .timeoutTooLong
  else
    match tables.prepare with
    | (.ok (), tables) => .ok tables
    | (.error fault, _) => .error (.database fault)

def save {m : Type → Type} [Monad m] (host : Host m) (db : OpenDatabase) :
    m (Except FileFailure Unit) :=
  match db.file with
  | none => return .ok ()
  | some file => host.write file db.tables.toBytes

/-- Opens the file to which the engine follows a path, and makes it ready. -/
def openFile {m : Type → Type} [Monad m] (host : Host m) (settings : DatabaseSettings) :
    m (Except OpeningFault OpenDatabase) := do
  match engineSteps? (← host.workingDirectory) settings.path with
  | none => return .error (engineFault "unable to open database file")
  | some steps =>
    let file := Path.ofSteps true steps.reverse
    match ← readFile host file with
    | .error fault => return .error fault
    | .ok tables =>
      if !canHaveJournal steps then
        return .error (engineFault "unable to open database file")
      match start settings tables with
      | .error fault => return .error fault
      | .ok tables =>
        let db : OpenDatabase := ⟨some file, tables⟩
        match ← save host db with
        | .error failure => return .error (engineFault failure.message)
        | .ok () => return .ok db

def openAt {m : Type → Type} [Monad m] (host : Host m) (settings : DatabaseSettings) :
    m (Except OpeningFault OpenDatabase) := do
  let path := settings.path
  match DatabaseSettings.pathFault? path with
  | some fault => return .error (.database fault)
  | none =>
    if ← host.isDirectory path then
      return .error (.database ⟨.invalid, "store path must be a file, not a directory"⟩)
    match ← host.makeDirectories (Path.isAbsolute path) (Path.steps path).reverse.tail with
    | .error failure => return .error (.database ⟨.io, failure.message⟩)
    | .ok () =>
      if path = transientPath then return (start settings {}).map (⟨none, ·⟩)
      else if path.toList.contains '\x00' then
        return .error (engineFault "nul byte found in provided data")
      else openFile host settings

end Database

end ServiceRegistry
