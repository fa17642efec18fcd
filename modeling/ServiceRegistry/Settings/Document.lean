import ServiceRegistry.Settings
import ServiceRegistry.Toml.Document
import ServiceRegistry.Toml.Shape

/-!
# Settings documents

Settings are written in TOML, with a section for each group of them.  Whatever a document does not
say has its default, and whatever is not a setting makes the document unusable.
-/

namespace ServiceRegistry

namespace StoreSettings

def ofToml? (value : Toml) : Option StoreSettings := do
  let default : StoreSettings := {}
  match ← value.columns? ["type", "path", "busy_timeout_ms", "journal_mode", "sync_mode"] with
  | [kind, path, busyTimeout, journalMode, syncMode] =>
    return ⟨← Toml.given? (·.choice?.bind StoreKind.ofLabel?) default.kind kind,
      ← Toml.given? Toml.text? default.database.path path,
      ← Toml.given? Toml.word? default.database.busyTimeout busyTimeout,
      ← Toml.given? (·.choice?.bind JournalMode.ofLabel?) default.database.journalMode journalMode,
      ← Toml.given? (·.choice?.bind SyncMode.ofLabel?) default.database.syncMode syncMode⟩
  | _ => none

end StoreSettings

namespace SyncSettings

def ofToml? (value : Toml) : Option SyncSettings := do
  let default : SyncSettings := {}
  match ← value.columns? ["scheduled_interval_ms", "dirty_check_interval_ms", "retry_attempts",
      "retry_base_delay_ms"] with
  | [scheduledInterval, dirtyCheckInterval, retryAttempts, retryBaseDelay] =>
    return ⟨← Toml.given? Toml.word? default.scheduledInterval scheduledInterval,
      ← Toml.given? Toml.word? default.dirtyCheckInterval dirtyCheckInterval,
      ← Toml.given? Toml.halfWord? default.retryAttempts retryAttempts,
      ← Toml.given? Toml.word? default.retryBaseDelay retryBaseDelay⟩
  | _ => none

end SyncSettings

namespace PageSettings

def ofToml? (value : Toml) : Option PageSettings := do
  let default : PageSettings := {}
  match ← value.columns? ["default_page_size", "max_page_size"] with
  | [defaultSize, maxSize] =>
    return ⟨← Toml.given? Toml.word? default.defaultSize defaultSize,
      ← Toml.given? Toml.word? default.maxSize maxSize⟩
  | _ => none

end PageSettings

namespace LogSettings

def ofToml? (value : Toml) : Option LogSettings := do
  let default : LogSettings := {}
  match ← value.columns? ["sink", "path"] with
  | [sink, path] =>
    return ⟨← Toml.given? (·.choice?.bind SinkKind.ofLabel?) default.sink sink,
      ← Toml.given? (·.text?.map some) default.path path⟩
  | _ => none

end LogSettings

namespace Settings

/-- The settings that a document spells, checked or not. -/
def ofToml? (document : Toml) : Option Settings := do
  let default : Settings := {}
  match ← document.columns? ["store", "sync", "pagination", "logging"] with
  | [store, sync, pages, log] =>
    return ⟨← Toml.given? StoreSettings.ofToml? default.store store,
      ← Toml.given? SyncSettings.ofToml? default.sync sync,
      ← Toml.given? PageSettings.ofToml? default.pages pages,
      ← Toml.given? LogSettings.ofToml? default.log log⟩
  | _ => none

/-- The settings of a document, if they go together. -/
def ofText (text : String) : Except SettingsFault Settings := do
  match (Toml.ofText? text).bind fun entries => ofToml? (.table entries) with
  | none => .error .form
  | some settings =>
    settings.check
    return settings

end Settings

end ServiceRegistry
