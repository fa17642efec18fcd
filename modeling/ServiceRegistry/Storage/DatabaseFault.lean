import ServiceRegistry.Storage.Fault

/-!
# Faults of a database file

What can go wrong with a database file, with its wording, and the storage fault as which the
catalog sees it: a failure of the engine becomes a fault without a kind of its own, all others keep
theirs.
-/

namespace ServiceRegistry

inductive DatabaseFault.Kind
  | io
  | engine
  | corrupt
  | versionMismatch
  | invalid
  | conflict
deriving DecidableEq, Repr, Inhabited

/-- A fault of a database file: its kind and a text about the particular case. -/
structure DatabaseFault where
  kind : DatabaseFault.Kind
  detail : String
deriving DecidableEq, Repr, Inhabited

namespace DatabaseFault

def Kind.preamble : Kind → String
  | .io => "sqlite store io error: "
  | .engine => "sqlite store db error: "
  | .corrupt => "sqlite store corruption: "
  | .versionMismatch => "sqlite store version mismatch: "
  | .invalid => "sqlite store invalid data: "
  | .conflict => "sqlite store conflict: "

def message (fault : DatabaseFault) : String := fault.kind.preamble ++ fault.detail

/-- The kind of storage fault as which a fault is reported to callers of the store. -/
def Kind.reported : Kind → Fault.Kind
  | .io => .io
  | .engine => .other
  | .corrupt => .corrupt
  | .versionMismatch => .versionMismatch
  | .invalid => .invalid
  | .conflict => .conflict

/-- The storage fault as which a fault is reported to callers of the store. -/
def reported (fault : DatabaseFault) : Fault := ⟨fault.kind.reported, fault.detail⟩

end DatabaseFault

end ServiceRegistry
