/-!
# Refusals

Why an operation on the catalog was refused.  A refusal is a cause; `Refusal.message` words it.
Faults of the store are not shown to the caller: they all become `internal`.
-/

namespace ServiceRegistry

inductive Refusal
  | serviceExists (name : String)
  | serviceMissing (id : Nat)
  | versionExists (serviceId : Nat) (tag : String)
  | versionMissing (serviceId : Nat) (tag : String)
  | invalidInput (detail : String)
  | internal
deriving DecidableEq, Repr, Inhabited

def Refusal.message : Refusal → String
  | .serviceExists name => "service " ++ name ++ " already exists"
  | .serviceMissing id => "service " ++ toString id ++ " does not exist"
  | .versionExists id tag => "version " ++ tag ++ " already exists for service " ++ toString id
  | .versionMissing id tag => "version " ++ tag ++ " does not exist for service " ++ toString id
  | .invalidInput detail => "invalid input: " ++ detail
  | .internal => "internal error"

end ServiceRegistry
