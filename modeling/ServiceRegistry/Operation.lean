import ServiceRegistry.Paging
import ServiceRegistry.Procedure
import ServiceRegistry.Refusal
import ServiceRegistry.Text.Blank

/-!
# Operations on the catalog

The twelve operations, as procedures over any store.  Each checks its arguments, makes its calls in
a fixed order and ends with a value or a refusal.

* A fault of the store ends the operation: it is recorded once, under the operation's name, and the
  caller is told of an internal error.  A conflict or an invalid owner reported by a late write is a
  refusal of its own, since another caller may have come first.
* A write that the sorted view has to follow marks that a refresh is owed, as its last act.  The
  info of a version is no column of the view, so changing it marks nothing.
-/

namespace ServiceRegistry

/-- An operation that answers with a value of `α`. -/
abbrev Operation (α : Type) : Type := ExceptT Refusal Procedure α

namespace Operation

/-- Records a fault of the store and refuses. -/
def fail (operation : String) (fault : Fault) : Operation α := do
  Procedure.record (.storeFailure operation fault.message)
  throw .internal

/-- Makes a call; what `refusal?` names as a refusal is refused, any other fault is a failure. -/
def callOr (operation : String) (call : Call) (refusal? : Fault.Kind → Option Refusal) :
    Operation call.Answer := do
  match ← Procedure.call call with
  | .ok answer => return answer
  | .error fault =>
    match refusal? fault.kind with
    | some refusal => throw refusal
    | none => fail operation fault

/-- Makes a call of which every fault is a failure. -/
def call (operation : String) (call : Call) : Operation call.Answer :=
  callOr operation call fun _ => none

def require (value : Option α) (refusal : Refusal) : Operation α :=
  match value with
  | some value => return value
  | none => throw refusal

def check (condition : Bool) (refusal : Refusal) : Operation Unit :=
  if condition then return () else throw refusal

def checkNotBlank (what text : String) : Operation Unit :=
  check (!Text.blank text) (.invalidInput (what ++ " is empty"))

/-- Refuses a name that a service has, one service aside. -/
def checkNameFree (operation name : String) (excluding : Option Nat) : Operation Unit := do
  let taken ← call operation (.countServicesNamed name excluding)
  check (taken == 0) (.serviceExists name)

def nameConflict (name : String) : Fault.Kind → Option Refusal
  | .conflict => some (.serviceExists name)
  | _ => none

/-- A conflict between tags, or an owner that is gone. -/
def versionConflict (serviceId : Nat) (tag : String) : Fault.Kind → Option Refusal
  | .conflict => some (.versionExists serviceId tag)
  | .invalid => some (.serviceMissing serviceId)
  | _ => none

/-! ## Looking up -/

def serviceExists (id : Nat) : Operation Bool := do
  return (← call "service_exists" (.getService id)).isSome

def versionExists (serviceId : Nat) (tag : String) : Operation Bool := do
  return (← call "version_exists" (.getVersion serviceId tag)).isSome

def getService (id : Nat) : Operation Service := do
  require (← call "get_service" (.getService id)) (.serviceMissing id)

def getVersion (serviceId : Nat) (tag : String) : Operation Version := do
  require (← call "get_version" (.getVersion serviceId tag)) (.versionMissing serviceId tag)

def checkService (id : Nat) : Operation Unit := do
  check (← serviceExists id) (.serviceMissing id)

def checkVersion (serviceId : Nat) (tag : String) : Operation Unit := do
  check (← versionExists serviceId tag) (.versionMissing serviceId tag)

/-! ## Services -/

def createService (name description : String) : Operation Service := do
  checkNotBlank "service name" name
  checkNameFree "create_service" name none
  let service ← callOr "create_service" (.insertService name description) (nameConflict name)
  Procedure.markOwed
  return service

def updateService (id : Nat) (name description : String) : Operation Service := do
  checkNotBlank "service name" name
  checkService id
  checkNameFree "update_service" name (some id)
  let updated ← callOr "update_service" (.updateService id name description) (nameConflict name)
  let service ← require updated (.serviceMissing id)
  Procedure.markOwed
  return service

def deleteService (id : Nat) : Operation Unit := do
  checkService id
  check (← call "delete_service" (.deleteService id)) (.serviceMissing id)
  Procedure.markOwed

/-! ## Versions -/

def createVersion (serviceId : Nat) (tag info : String) : Operation Version := do
  checkNotBlank "version tag" tag
  checkService serviceId
  check (!(← versionExists serviceId tag)) (.versionExists serviceId tag)
  let version ← callOr "create_version" (.insertVersion serviceId tag info)
    (versionConflict serviceId tag)
  Procedure.markOwed
  return version

def updateVersion (serviceId : Nat) (tag info : String) : Operation Version := do
  checkVersion serviceId tag
  let updated ← call "update_version" (.updateVersion serviceId tag info)
  require updated (.versionMissing serviceId tag)

def deleteVersion (serviceId : Nat) (tag : String) : Operation Unit := do
  checkVersion serviceId tag
  check (← call "delete_version" (.deleteVersion serviceId tag)) (.versionMissing serviceId tag)
  Procedure.markOwed

/-! ## Listings -/

/-- Fetches the rows of a page from a source of `total` rows and lays them out. -/
def fetchPage (request : PageRequest) (total : Nat) (scan : ScanRange → Operation (List α)) :
    Operation (Page α) := do
  let window := request.window total
  let rows ← if window.isEmpty then pure [] else scan window.scanRange
  return ⟨window.present rows, total, request.pageSize, request.currentPage⟩

def fetchServices (request : PageRequest) (filter : NameFilter) (sort : SortKey) :
    Operation (Page Service) := do
  let total ← call "fetch_services" (.countServices filter sort.source)
  fetchPage request total fun range =>
    call "fetch_services" (.scanServices filter sort.source range)

/-- One page of the versions of a service, the newest first. -/
def fetchVersions (serviceId currentPage pageSize : Nat) : Operation (Page Version) := do
  checkService serviceId
  let total ← call "fetch_versions" (.countVersions serviceId)
  fetchPage (.of currentPage pageSize true) total fun range =>
    call "fetch_versions" (.scanVersions serviceId range)

end Operation

/-! ## Requests -/

/-- A request to the catalog: one of the twelve operations with its arguments. -/
inductive Request
  | serviceExists (id : Nat)
  | versionExists (serviceId : Nat) (tag : String)
  | getService (id : Nat)
  | getVersion (serviceId : Nat) (tag : String)
  | createService (name description : String)
  | updateService (id : Nat) (name description : String)
  | deleteService (id : Nat)
  | createVersion (serviceId : Nat) (tag info : String)
  | updateVersion (serviceId : Nat) (tag info : String)
  | deleteVersion (serviceId : Nat) (tag : String)
  | fetchServices (request : PageRequest) (filter : NameFilter) (sort : SortKey)
  | fetchVersions (serviceId currentPage pageSize : Nat)
deriving DecidableEq, Repr, Inhabited

namespace Request

abbrev Answer : Request → Type
  | .serviceExists _ => Bool
  | .versionExists .. => Bool
  | .getService _ => Service
  | .getVersion .. => Version
  | .createService .. => Service
  | .updateService .. => Service
  | .deleteService _ => Unit
  | .createVersion .. => Version
  | .updateVersion .. => Version
  | .deleteVersion .. => Unit
  | .fetchServices .. => Page Service
  | .fetchVersions .. => Page Version

def operation : (request : Request) → Operation request.Answer
  | .serviceExists id => Operation.serviceExists id
  | .versionExists id tag => Operation.versionExists id tag
  | .getService id => Operation.getService id
  | .getVersion id tag => Operation.getVersion id tag
  | .createService name description => Operation.createService name description
  | .updateService id name description => Operation.updateService id name description
  | .deleteService id => Operation.deleteService id
  | .createVersion id tag info => Operation.createVersion id tag info
  | .updateVersion id tag info => Operation.updateVersion id tag info
  | .deleteVersion id tag => Operation.deleteVersion id tag
  | .fetchServices request filter sort => Operation.fetchServices request filter sort
  | .fetchVersions id page size => Operation.fetchVersions id page size

/-- The procedure that answers a request with a value or a refusal. -/
def procedure (request : Request) : Procedure (Except Refusal request.Answer) :=
  request.operation.run

end Request

end ServiceRegistry
