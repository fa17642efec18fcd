import Mathlib.Logic.Function.Basic
import ServiceRegistry.Operation

/-!
# The abstract catalog

What the twelve requests mean, without a store: services by their ids, the versions of each id in the
order of their creation, and the sorted view as it stands.  A request is answered at one instant, by
its refusals in their order and else by one change.

* `Catalog.respond` is the meaning of a request.
* `Catalog.WellFormed` says which catalogs there are.
-/

namespace ServiceRegistry

/-- A catalog without its store. -/
structure Catalog where
  lastId : Nat
  service : Nat → Option Service
  /-- The versions of each service, in the order of creation. -/
  versions : Nat → List Version
  view : List Service

namespace Catalog

/-- Every service has its own id and name, and counts its versions; every version has an owner, and a
tag of its own there. -/
structure WellFormed (c : Catalog) : Prop where
  given : ∀ id s, c.service id = some s → s.id = id ∧ 0 < id ∧ id ≤ c.lastId
  names : ∀ id s other t, c.service id = some s → c.service other = some t → s.name = t.name →
    id = other
  counted : ∀ id s, c.service id = some s → s.versionCount = (c.versions id).length
  owned : ∀ id, ∀ v ∈ c.versions id, v.serviceId = id ∧ (c.service id).isSome
  tags : ∀ id, ((c.versions id).map (·.tag)).Nodup

/-- Some service has the name, one id aside. -/
def Named (c : Catalog) (name : String) (excluding : Option Nat) : Prop :=
  ∃ id s, c.service id = some s ∧ s.name = name ∧ some id ≠ excluding

def version (c : Catalog) (id : Nat) (tag : String) : Option Version :=
  (c.versions id).find? fun v => v.tag == tag

/-- The services of a source that pass a filter: those of the table in the order of their ids. -/
def listing (c : Catalog) (filter : NameFilter) : Source → List Service
  | .table => ((List.range (c.lastId + 1)).filterMap c.service).filter fun s => filter.holds s.name
  | .sortedView => c.view.filter fun s => filter.holds s.name

/-- The page of a list that a request asks for. -/
def page (request : PageRequest) (rows : List α) : Page α :=
  ⟨(request.window rows.length).rows rows, rows.length, request.pageSize, request.currentPage⟩

/-- Changes the service with an id, if there is one, and no other. -/
def changeService (c : Catalog) (id : Nat) (change : Service → Service) : Catalog :=
  { c with service := Function.update c.service id ((c.service id).map change) }

def setVersions (c : Catalog) (id : Nat) (versions : List Version) : Catalog :=
  { c with versions := Function.update c.versions id versions }

/-! ## Writes -/

open Classical in
noncomputable def createService (c : Catalog) (now : Int) (name description : String) :
    Except Refusal Service × Catalog :=
  if Text.blank name then (.error (.invalidInput "service name is empty"), c)
  else if c.Named name none then (.error (.serviceExists name), c)
  else
    let added : Service := ⟨c.lastId + 1, name, description, 0, now, now⟩
    (.ok added,
      { c with
        lastId := c.lastId + 1
        service := Function.update c.service (c.lastId + 1) (some added) })

open Classical in
noncomputable def updateService (c : Catalog) (now : Int) (id : Nat) (name description : String) :
    Except Refusal Service × Catalog :=
  if Text.blank name then (.error (.invalidInput "service name is empty"), c)
  else
    match c.service id with
    | none => (.error (.serviceMissing id), c)
    | some s =>
      if c.Named name (some id) then (.error (.serviceExists name), c)
      else
        let change (s : Service) : Service :=
          { s with name := name, description := description, updatedAt := now }
        (.ok (change s), c.changeService id change)

def deleteService (c : Catalog) (id : Nat) : Except Refusal Unit × Catalog :=
  match c.service id with
  | none => (.error (.serviceMissing id), c)
  | some _ =>
    (.ok (), { c with service := Function.update c.service id none }.setVersions id [])

def createVersion (c : Catalog) (now : Int) (id : Nat) (tag info : String) :
    Except Refusal Version × Catalog :=
  if Text.blank tag then (.error (.invalidInput "version tag is empty"), c)
  else
    match c.service id, c.version id tag with
    | none, _ => (.error (.serviceMissing id), c)
    | some _, some _ => (.error (.versionExists id tag), c)
    | some _, none =>
      let added : Version := ⟨id, tag, info, now, now⟩
      let bump (s : Service) : Service :=
        { s with versionCount := s.versionCount + 1, updatedAt := now }
      (.ok added, (c.changeService id bump).setVersions id (c.versions id ++ [added]))

def updateVersion (c : Catalog) (now : Int) (id : Nat) (tag info : String) :
    Except Refusal Version × Catalog :=
  match c.version id tag with
  | none => (.error (.versionMissing id tag), c)
  | some v =>
    let change (v : Version) : Version := { v with info := info, updatedAt := now }
    (.ok (change v),
      c.setVersions id ((c.versions id).map fun v => if v.tag == tag then change v else v))

def deleteVersion (c : Catalog) (now : Int) (id : Nat) (tag : String) :
    Except Refusal Unit × Catalog :=
  match c.version id tag with
  | none => (.error (.versionMissing id tag), c)
  | some _ =>
    let lower (s : Service) : Service :=
      { s with versionCount := s.versionCount - 1, updatedAt := now }
    (.ok (), (c.changeService id lower).setVersions id ((c.versions id).filter fun v => v.tag != tag))

/-! ## Requests -/

/-- The result of a request at an instant, and the catalog after it. -/
noncomputable def respond (now : Int) :
    (request : Request) → Catalog → Except Refusal request.Answer × Catalog
  | .serviceExists id, c => (.ok (c.service id).isSome, c)
  | .versionExists id tag, c => (.ok (c.version id tag).isSome, c)
  | .getService id, c =>
    match c.service id with
    | none => (.error (.serviceMissing id), c)
    | some s => (.ok s, c)
  | .getVersion id tag, c =>
    match c.version id tag with
    | none => (.error (.versionMissing id tag), c)
    | some v => (.ok v, c)
  | .createService name description, c => c.createService now name description
  | .updateService id name description, c => c.updateService now id name description
  | .deleteService id, c => c.deleteService id
  | .createVersion id tag info, c => c.createVersion now id tag info
  | .updateVersion id tag info, c => c.updateVersion now id tag info
  | .deleteVersion id tag, c => c.deleteVersion now id tag
  | .fetchServices request filter sort, c =>
    (.ok (page request (c.listing filter sort.source)), c)
  | .fetchVersions id currentPage pageSize, c =>
    match c.service id with
    | none => (.error (.serviceMissing id), c)
    | some _ => (.ok (page (.of currentPage pageSize true) (c.versions id)), c)

end Catalog

end ServiceRegistry
