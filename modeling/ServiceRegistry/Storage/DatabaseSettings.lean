import ServiceRegistry.Json.Shape

/-!
# Settings of a database

Where a database file lies and how it is written.  The settings change no answer of the store; only
the path is required of whoever gives them.
-/

namespace ServiceRegistry

/-- How a database keeps what a transaction needs to be undone. -/
inductive JournalMode
  | wal
  | delete
deriving DecidableEq, Repr, Inhabited

namespace JournalMode

def label : JournalMode → String
  | .wal => "wal"
  | .delete => "delete"

def ofLabel? : String → Option JournalMode
  | "wal" => some .wal
  | "delete" => some .delete
  | _ => none

end JournalMode

/-- How eagerly a database is written through to the disk. -/
inductive SyncMode
  | full
  | normal
deriving DecidableEq, Repr, Inhabited

namespace SyncMode

def label : SyncMode → String
  | .full => "full"
  | .normal => "normal"

def ofLabel? : String → Option SyncMode
  | "full" => some .full
  | "normal" => some .normal
  | _ => none

end SyncMode

/-- Where a database lies and how it is written. -/
structure DatabaseSettings where
  path : String
  /-- How long to wait for a lock, in milliseconds. -/
  busyTimeout : Nat := 5000
  journalMode : JournalMode := .wal
  syncMode : SyncMode := .full
deriving DecidableEq, Repr, Inhabited

namespace DatabaseSettings

def toJson (s : DatabaseSettings) : Json :=
  .ofFields [("path", .text s.path), ("busy_timeout_ms", .natural s.busyTimeout),
    ("journal_mode", .text s.journalMode.label), ("sync_mode", .text s.syncMode.label)]

/-- Reads a value if it is given, and takes the default if it is not. -/
def given? (read? : Json → Option α) (default : α) : Option Json → Option α
  | some value => read? value
  | none => some default

/-- Only the path is required; unknown keys are refused. -/
def ofJson? (value : Json) : Option DatabaseSettings := do
  match ← value.columns? true ["path", "busy_timeout_ms", "journal_mode", "sync_mode"] with
  | [some path, busyTimeout, journalMode, syncMode] =>
    return ⟨← path.text?, ← given? Json.word? 5000 busyTimeout,
      ← given? (fun v => v.choice?.bind JournalMode.ofLabel?) .wal journalMode,
      ← given? (fun v => v.choice?.bind SyncMode.ofLabel?) .full syncMode⟩
  | _ => none

end DatabaseSettings

end ServiceRegistry
