import ServiceRegistry.Host
import ServiceRegistry.Settings.Document

/-!
# Where settings are found

Settings are read from a file: the one that is asked for, else the one that an environment variable
names, else one with a fixed name in the working directory.  Long paths, long files and files that
are no text are refused.
-/

namespace ServiceRegistry.Settings

def locationVariable : String := "SERVICE_CATALOG_CONFIG"

def defaultLocation : String := "service-catalog.toml"

/-- The greatest size of a file, in bytes. -/
def maxFileSize : Nat := 1048576

/-- Refuses a path that is too long as a whole or in a part. -/
def checkLocation (path : String) : Except SettingsFault Unit := do
  requireSetting (¬Path.isLong path) "config path exceeds max length"
  requireSetting (¬Path.hasLongPart path) "config path component too long"

def ofBytes (content : ByteArray) : Except SettingsFault Settings := do
  requireSetting (content.size ≤ maxFileSize) "config file exceeds size limit"
  match String.fromUTF8? content with
  | some text => ofText text
  | none => .error (.invalid "config file must be utf-8")

/-- Finds and reads the settings of a catalog. -/
def load {m : Type → Type} [Monad m] (host : Host m) (asked : Option String) :
    m (Except SettingsFault Settings) := do
  let named ← host.environment locationVariable
  let path := (asked <|> named).getD defaultLocation
  match checkLocation path with
  | .error fault => return .error fault
  | .ok () =>
    match ← host.read path with
    | .error failure => return .error (.file failure)
    | .ok content => return ofBytes content

end ServiceRegistry.Settings
