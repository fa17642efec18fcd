/-!
# Storage faults

What a store answers when it cannot do a call.  A fault is a cause with a detail text;
`Fault.message` is the one place where its wording is fixed.
-/

namespace ServiceRegistry

inductive Fault.Kind
  | io
  | corrupt
  | versionMismatch
  | invalid
  | conflict
  | other
deriving DecidableEq, Repr, Inhabited

/-- A storage fault: its kind and a text about the particular case. -/
structure Fault where
  kind : Fault.Kind
  detail : String
deriving DecidableEq, Repr, Inhabited

namespace Fault

def Kind.preamble : Kind → String
  | .io => "catalog store io error: "
  | .corrupt => "catalog store corruption: "
  | .versionMismatch => "catalog store version mismatch: "
  | .invalid => "catalog store invalid data: "
  | .conflict => "catalog store conflict: "
  | .other => "catalog store error: "

def message (fault : Fault) : String := fault.kind.preamble ++ fault.detail

end Fault

end ServiceRegistry
