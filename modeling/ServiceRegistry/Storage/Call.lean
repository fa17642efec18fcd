import ServiceRegistry.Listing
import ServiceRegistry.Storage.Fault

/-!
# Calls on a store

The catalog keeps its records in a store that it knows only through fourteen calls.  Each call has
a method, the method fixes the type of the answer, and a store answers with it or with a fault.

* `Call` is a call with its arguments, `Method.Answer` the type of its answer;
* `Backend σ` is any store with states in `σ`.
-/

namespace ServiceRegistry

inductive Method
  | refreshView
  | countServices
  | scanServices
  | getService
  | countServicesNamed
  | insertService
  | updateService
  | deleteService
  | getVersion
  | insertVersion
  | updateVersion
  | deleteVersion
  | countVersions
  | scanVersions
deriving DecidableEq, Repr, Inhabited

def Method.label : Method → String
  | .refreshView => "refresh_view"
  | .countServices => "count_services"
  | .scanServices => "scan_services"
  | .getService => "get_service"
  | .countServicesNamed => "count_services_named"
  | .insertService => "insert_service"
  | .updateService => "update_service"
  | .deleteService => "delete_service"
  | .getVersion => "get_version"
  | .insertVersion => "insert_version"
  | .updateVersion => "update_version"
  | .deleteVersion => "delete_version"
  | .countVersions => "count_versions"
  | .scanVersions => "scan_versions"

abbrev Method.Answer : Method → Type
  | .refreshView => Unit
  | .countServices => Nat
  | .scanServices => List Service
  | .getService => Option Service
  | .countServicesNamed => Nat
  | .insertService => Service
  | .updateService => Option Service
  | .deleteService => Bool
  | .getVersion => Option Version
  | .insertVersion => Version
  | .updateVersion => Option Version
  | .deleteVersion => Bool
  | .countVersions => Nat
  | .scanVersions => List Version

inductive Call
  /-- Take a new snapshot of the table, sorted by name. -/
  | refreshView
  | countServices (filter : NameFilter) (source : Source)
  | scanServices (filter : NameFilter) (source : Source) (range : ScanRange)
  | getService (id : Nat)
  /-- The number of services of a name, one service aside. -/
  | countServicesNamed (name : String) (excluding : Option Nat)
  | insertService (name description : String)
  | updateService (id : Nat) (name description : String)
  /-- Delete a service with all its versions. -/
  | deleteService (id : Nat)
  | getVersion (serviceId : Nat) (tag : String)
  | insertVersion (serviceId : Nat) (tag info : String)
  | updateVersion (serviceId : Nat) (tag info : String)
  | deleteVersion (serviceId : Nat) (tag : String)
  | countVersions (serviceId : Nat)
  /-- A range of the versions of a service, in the order of their creation. -/
  | scanVersions (serviceId : Nat) (range : ScanRange)
deriving DecidableEq, Repr, Inhabited

namespace Call

abbrev method : Call → Method
  | .refreshView => .refreshView
  | .countServices .. => .countServices
  | .scanServices .. => .scanServices
  | .getService .. => .getService
  | .countServicesNamed .. => .countServicesNamed
  | .insertService .. => .insertService
  | .updateService .. => .updateService
  | .deleteService .. => .deleteService
  | .getVersion .. => .getVersion
  | .insertVersion .. => .insertVersion
  | .updateVersion .. => .updateVersion
  | .deleteVersion .. => .deleteVersion
  | .countVersions .. => .countVersions
  | .scanVersions .. => .scanVersions

abbrev Answer (call : Call) : Type := call.method.Answer

/-- A call as a line of a log: its method and the arguments that choose rows. -/
def label (call : Call) : String :=
  match call with
  | .countServices _ source => call.method.label ++ ":" ++ source.label
  | .scanServices _ source range =>
    call.method.label ++ ":" ++ source.label ++ ":" ++ toString range.offset ++ ":" ++
      toString range.limit
  | .scanVersions _ range =>
    call.method.label ++ ":" ++ toString range.offset ++ ":" ++ toString range.limit
  | .countServicesNamed _ (some id) => call.method.label ++ ":" ++ toString id
  | _ => call.method.label

end Call

abbrev Reply (method : Method) : Type := Except Fault method.Answer

/-- A store with states in `σ`: it answers every call and goes on in a new state. -/
abbrev Backend (σ : Type) : Type := (call : Call) → σ → Reply call.method × σ

end ServiceRegistry
