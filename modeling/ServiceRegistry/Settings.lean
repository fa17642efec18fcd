import ServiceRegistry.Files.Path
import ServiceRegistry.Refresh.Engine
import ServiceRegistry.Settings.Fault
import ServiceRegistry.Storage.DatabaseSettings
import ServiceRegistry.Text.Blank

/-!
# Settings

What can be set about a catalog, in four sections: where it keeps its records, how its sorted view
is refreshed, how large pages are, and where its events go.  Every setting has a default.

`Settings.check` says which settings go together: sections are checked in their order and the first
fault is reported.
-/

namespace ServiceRegistry

inductive StoreKind
  | database
  | memory
deriving DecidableEq, Repr, Inhabited

structure StoreSettings where
  kind : StoreKind := .database
  database : DatabaseSettings := { path := "service-catalog.db" }
deriving DecidableEq, Repr, Inhabited

/-- How the sorted view is refreshed; spans are in milliseconds. -/
structure SyncSettings where
  scheduledInterval : Nat := 1800000
  dirtyCheckInterval : Nat := 2000
  retryAttempts : Nat := 3
  retryBaseDelay : Nat := 1000
deriving DecidableEq, Repr, Inhabited

structure PageSettings where
  defaultSize : Nat := 10
  maxSize : Nat := 1000
deriving DecidableEq, Repr, Inhabited

inductive SinkKind
  | stderr
  | file
  | none
deriving DecidableEq, Repr, Inhabited

structure LogSettings where
  sink : SinkKind := .stderr
  path : Option String := Option.none
deriving DecidableEq, Repr, Inhabited

structure Settings where
  store : StoreSettings := {}
  sync : SyncSettings := {}
  pages : PageSettings := {}
  log : LogSettings := {}
deriving DecidableEq, Repr, Inhabited

/-! ## Names of alternatives -/

namespace StoreKind

def label : StoreKind → String
  | .database => "sqlite"
  | .memory => "memory"

def ofLabel? : String → Option StoreKind
  | "sqlite" => some .database
  | "memory" => some .memory
  | _ => none

end StoreKind

namespace SinkKind

def label : SinkKind → String
  | .stderr => "stderr"
  | .file => "file"
  | .none => "none"

def ofLabel? : String → Option SinkKind
  | "stderr" => some .stderr
  | "file" => some .file
  | "none" => some .none
  | _ => Option.none

end SinkKind

/-! ## Checks -/

def requireSetting (condition : Prop) [Decidable condition] (detail : String) :
    Except SettingsFault Unit :=
  if condition then .ok () else .error (.invalid detail)

/-- Checks the text of a path without the blanks around it. -/
def checkPath (setting path : String) : Except SettingsFault Unit := do
  let path := Text.trim path
  requireSetting (path ≠ "") (setting ++ " must be non-empty")
  requireSetting (¬Path.isLong path) (setting ++ " exceeds max length")
  requireSetting (¬Path.hasLongPart path) (setting ++ " path component too long")

namespace StoreSettings

/-- A store in memory needs no database, so the settings of one may be anything. -/
def check (s : StoreSettings) : Except SettingsFault Unit :=
  match s.kind with
  | .memory => .ok ()
  | .database => do
    checkPath "store.path" s.database.path
    requireSetting (0 < s.database.busyTimeout) "store.busy_timeout_ms must be greater than zero"

def database? (s : StoreSettings) : Option DatabaseSettings :=
  match s.kind with
  | .memory => none
  | .database => some s.database

end StoreSettings

namespace SyncSettings

def maxAttempts : Nat := 10

/-- The longest first pause, in milliseconds. -/
def maxBaseDelay : Nat := 60000

def check (s : SyncSettings) : Except SettingsFault Unit := do
  requireSetting (0 < s.scheduledInterval) "sync.scheduled_interval_ms must be greater than zero"
  requireSetting (0 < s.dirtyCheckInterval) "sync.dirty_check_interval_ms must be greater than zero"
  requireSetting (s.dirtyCheckInterval ≤ s.scheduledInterval)
    "sync.dirty_check_interval_ms must not exceed sync.scheduled_interval_ms"
  requireSetting (1 ≤ s.retryAttempts ∧ s.retryAttempts ≤ maxAttempts)
    ("sync.retry_attempts must be between 1 and " ++ toString maxAttempts)
  requireSetting (s.retryBaseDelay ≤ maxBaseDelay)
    ("sync.retry_base_delay_ms must not exceed " ++ toString maxBaseDelay)

/-- The plan of an engine with these settings.  Its clock outlasts every interval that is a word of
milliseconds, so no end of it is given. -/
def plan (s : SyncSettings) : Refresh.Plan where
  scheduledEvery := .ofMillis s.scheduledInterval
  dirtyCheckEvery := .ofMillis s.dirtyCheckInterval
  retry := ⟨s.retryAttempts, .ofMillis s.retryBaseDelay⟩

end SyncSettings

namespace PageSettings

def check (s : PageSettings) : Except SettingsFault Unit := do
  requireSetting (0 < s.maxSize) "pagination.max_page_size must be greater than zero"
  requireSetting (1 ≤ s.defaultSize ∧ s.defaultSize ≤ s.maxSize)
    "pagination.default_page_size must be between 1 and pagination.max_page_size"

/-- The size of a page for which a size may have been asked. -/
def sizeFor (s : PageSettings) (requested : Option Nat) : Nat :=
  min (requested.getD s.defaultSize) s.maxSize

end PageSettings

namespace LogSettings

/-- A file needs a path, and nothing else may have one. -/
def check (s : LogSettings) : Except SettingsFault Unit :=
  match s.sink, s.path with
  | .file, some path => checkPath "logging.path" path
  | .file, none => .error (.invalid "logging.sink = \"file\" requires logging.path")
  | _, some _ => .error (.invalid "logging.path is only valid with logging.sink = \"file\"")
  | _, none => .ok ()

end LogSettings

def Settings.check (s : Settings) : Except SettingsFault Unit := do
  s.store.check
  s.sync.check
  s.pages.check
  s.log.check

end ServiceRegistry
