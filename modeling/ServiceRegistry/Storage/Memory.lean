import ServiceRegistry.Storage.Call

/-!
# The store in memory

A store that lives as long as the process.  Services are kept in the order of their ids, which is
the order of creation, and versions in the order of creation; the sorted view is a snapshot that
only `refreshView` takes.  Refreshes can be made to fail a given number of times, for rehearsals.

Each write says what it does to the three lists; reads leave the store as it is.
-/

namespace ServiceRegistry

structure Memory where
  /-- The id given last; ids are never given twice. -/
  lastId : Nat := 0
  services : List Service := []
  versions : List Version := []
  /-- The snapshot of the services, sorted by name. -/
  view : List Service := []
  /-- How many snapshots have been taken. -/
  refreshes : Nat := 0
  /-- How many refreshes are still to fail. -/
  pendingFailures : Nat := 0
deriving DecidableEq, Repr, Inhabited

namespace Memory

def sorted (services : List Service) : List Service :=
  services.mergeSort fun a b => listingOrder a.name a.id b.name b.id

def rows (m : Memory) : Source → List Service
  | .table => m.services
  | .sortedView => m.view

def matching (m : Memory) (filter : NameFilter) (source : Source) : List Service :=
  (m.rows source).filter fun s => filter.holds s.name

/-- The versions of a service, in the order of creation. -/
def versionsOf (m : Memory) (serviceId : Nat) : List Version :=
  m.versions.filter fun v => v.serviceId == serviceId

def service? (m : Memory) (id : Nat) : Option Service :=
  m.services.find? fun s => s.id == id

def isVersion (serviceId : Nat) (tag : String) (v : Version) : Bool :=
  v.serviceId == serviceId && v.tag == tag

def version? (m : Memory) (serviceId : Nat) (tag : String) : Option Version :=
  m.versions.find? (isVersion serviceId tag)

def changeService (m : Memory) (id : Nat) (change : Service → Service) : Memory :=
  { m with services := m.services.map fun s => if s.id == id then change s else s }

def nameTaken (name : String) : Fault :=
  ⟨.conflict, "service name " ++ name ++ " already exists"⟩

def failNext (m : Memory) (count : Nat) : Memory := { m with pendingFailures := count }

def refreshView (m : Memory) : Except Fault Unit × Memory :=
  if 0 < m.pendingFailures then
    (.error ⟨.other, "injected refresh failure"⟩,
      { m with pendingFailures := m.pendingFailures - 1 })
  else
    (.ok (), { m with view := sorted m.services, refreshes := m.refreshes + 1 })

def countServicesNamed (m : Memory) (name : String) (excluding : Option Nat) : Nat :=
  (m.services.filter fun s => s.name == name && some s.id != excluding).length

def insertService (m : Memory) (now : Int) (name description : String) :
    Except Fault Service × Memory :=
  if m.services.any fun s => s.name == name then
    (.error (nameTaken name), m)
  else
    let added : Service := ⟨m.lastId + 1, name, description, 0, now, now⟩
    (.ok added, { m with lastId := m.lastId + 1, services := m.services ++ [added] })

/-- A name that another service has is refused before the id is looked up. -/
def updateService (m : Memory) (now : Int) (id : Nat) (name description : String) :
    Except Fault (Option Service) × Memory :=
  if m.services.any fun s => s.name == name && s.id != id then
    (.error (nameTaken name), m)
  else
    let change (s : Service) : Service :=
      { s with name := name, description := description, updatedAt := now }
    (.ok ((m.service? id).map change), m.changeService id change)

def deleteService (m : Memory) (id : Nat) : Except Fault Bool × Memory :=
  match m.service? id with
  | none => (.ok false, m)
  | some _ =>
    (.ok true,
      { m with
        services := m.services.filter fun s => s.id != id
        versions := m.versions.filter fun v => v.serviceId != id })

def insertVersion (m : Memory) (now : Int) (serviceId : Nat) (tag info : String) :
    Except Fault Version × Memory :=
  match m.service? serviceId, m.version? serviceId tag with
  | none, _ => (.error ⟨.invalid, "service " ++ toString serviceId ++ " does not exist"⟩, m)
  | some _, some _ =>
    (.error ⟨.conflict,
      "version " ++ tag ++ " already exists for service " ++ toString serviceId⟩, m)
  | some _, none =>
    let added : Version := ⟨serviceId, tag, info, now, now⟩
    let bumped := m.changeService serviceId fun s =>
      { s with versionCount := s.versionCount + 1, updatedAt := now }
    (.ok added, { bumped with versions := m.versions ++ [added] })

def updateVersion (m : Memory) (now : Int) (serviceId : Nat) (tag info : String) :
    Except Fault (Option Version) × Memory :=
  let change (v : Version) : Version := { v with info := info, updatedAt := now }
  (.ok ((m.version? serviceId tag).map change),
    { m with
      versions := m.versions.map fun v => if isVersion serviceId tag v then change v else v })

def deleteVersion (m : Memory) (now : Int) (serviceId : Nat) (tag : String) :
    Except Fault Bool × Memory :=
  match m.version? serviceId tag with
  | none => (.ok false, m)
  | some _ =>
    let lowered := m.changeService serviceId fun s =>
      { s with versionCount := s.versionCount - 1, updatedAt := now }
    (.ok true, { lowered with versions := m.versions.filter fun v => !isVersion serviceId tag v })

def answer (now : Int) : Backend Memory
  | .refreshView, m => m.refreshView
  | .countServices filter source, m => (.ok (m.matching filter source).length, m)
  | .scanServices filter source range, m => (.ok (range.pick (m.matching filter source)), m)
  | .getService id, m => (.ok (m.service? id), m)
  | .countServicesNamed name excluding, m => (.ok (m.countServicesNamed name excluding), m)
  | .insertService name description, m => m.insertService now name description
  | .updateService id name description, m => m.updateService now id name description
  | .deleteService id, m => m.deleteService id
  | .getVersion serviceId tag, m => (.ok (m.version? serviceId tag), m)
  | .insertVersion serviceId tag info, m => m.insertVersion now serviceId tag info
  | .updateVersion serviceId tag info, m => m.updateVersion now serviceId tag info
  | .deleteVersion serviceId tag, m => m.deleteVersion now serviceId tag
  | .countVersions serviceId, m => (.ok (m.versionsOf serviceId).length, m)
  | .scanVersions serviceId range, m => (.ok (range.pick (m.versionsOf serviceId)), m)

end Memory

end ServiceRegistry
