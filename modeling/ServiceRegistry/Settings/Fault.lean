import ServiceRegistry.Files.Failure

/-!
# Faults of settings

Why settings could not be had: their file could not be read, their text is not what settings look
like, or their values do not go together.
-/

namespace ServiceRegistry

inductive SettingsFault
  | file (failure : FileFailure)
  /-- The text is no TOML, or not the tables and values that settings are made of. -/
  | form
  | invalid (detail : String)
deriving DecidableEq, Repr, Inhabited

def SettingsFault.message : SettingsFault → String
  | .file failure => "config io error: " ++ failure.message
  | .form => "config parse error: not a settings document"
  | .invalid detail => "invalid config: " ++ detail

end ServiceRegistry
