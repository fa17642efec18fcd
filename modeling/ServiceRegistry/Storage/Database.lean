import ServiceRegistry.Storage.Call
import ServiceRegistry.Storage.DatabaseFault
import ServiceRegistry.Word

/-!
# The store in a database

A durable store made of three tables: services, versions, and the sorted view.  Columns of numbers
hold signed words, so a row edited from outside may carry an id or a count that no service can have;
such a row is reported when it is read, and only then.

* Row ids are handed out in ascending order and never twice: `nextRowId` is past both the greatest
  row id present and the greatest ever given.  It is found before a row is checked against the others.
* A count that has left the signed words is kept but can no longer be read (`ServiceRow.readable`).
* Ids, offsets and limits reach the tables as signed words, by saturation.
-/

namespace ServiceRegistry

/-- A row of the service table or of the sorted view. -/
structure ServiceRow where
  id : Int
  name : String
  description : String
  versionCount : Int
  createdAt : Int
  updatedAt : Int
deriving DecidableEq, Repr, Inhabited

structure VersionRow where
  rowId : Int
  serviceId : Int
  tag : String
  info : String
  createdAt : Int
  updatedAt : Int
deriving DecidableEq, Repr, Inhabited

structure Database where
  /-- The layout version that the file says it has; a new file says none. -/
  layout : Option Int := none
  /-- The service table, in the order of its ids. -/
  services : List ServiceRow := []
  /-- The greatest id given to a service so far. -/
  lastServiceId : Int := 0
  /-- The version table, in the order of its row ids. -/
  versions : List VersionRow := []
  /-- The greatest row id given to a version so far. -/
  lastVersionRow : Int := 0
  /-- The sorted view, in the order of its positions. -/
  view : List ServiceRow := []
deriving DecidableEq, Repr, Inhabited

/-! ## Rows as records -/

/-- A stored number as an id or count; negative numbers are damage. -/
def readNatural (what : String) (n : Int) : Except DatabaseFault Nat :=
  if n < 0 then .error ⟨.corrupt, "negative " ++ what ++ ": " ++ toString n⟩ else .ok n.toNat

/-- Whether the columns of a row can be read as signed words. -/
def ServiceRow.readable (row : ServiceRow) : Bool := row.versionCount ≤ maxSigned

def unreadableCount : DatabaseFault :=
  ⟨.engine, "Invalid column type Real at index: 3, name: version_count"⟩

/-- The service that a row holds; its id is looked at before its count. -/
def ServiceRow.toService (row : ServiceRow) : Except DatabaseFault Service := do
  let id ← readNatural "service id" row.id
  let count ← readNatural "version count" row.versionCount
  return ⟨id, row.name, row.description, count, row.createdAt, row.updatedAt⟩

/-- The services that rows hold: all columns are read before any row is looked at. -/
def readServices (rows : List ServiceRow) : Except DatabaseFault (List Service) :=
  if rows.all ServiceRow.readable then rows.mapM ServiceRow.toService else .error unreadableCount

def VersionRow.toVersion (row : VersionRow) : Except DatabaseFault Version := do
  let serviceId ← readNatural "service id" row.serviceId
  return ⟨serviceId, row.tag, row.info, row.createdAt, row.updatedAt⟩

/-- A range of rows, with its ends as signed words. -/
def ScanRange.pickRows (range : ScanRange) (rows : List α) : List α :=
  (rows.drop (toSigned range.offset).toNat).take (toSigned range.limit).toNat

/-- The greatest of the row ids present and of those ever given, in a table without rows 0 at least. -/
def greatestRowId (present : List Int) (last : Int) : Int :=
  if present.isEmpty then max last 0 else present.foldl max last

/-- The row id that follows the greatest one so far; there is none after the largest signed word. -/
def nextRowId (present : List Int) (last : Int) : Except DatabaseFault Int :=
  let greatest := greatestRowId present last
  if greatest < maxSigned then .ok (greatest + 1)
  else .error ⟨.engine, "database or disk is full"⟩

/-- A count after one more version; one that has left the signed words stays where it is. -/
def raiseCount (n : Int) : Int := if n ≤ maxSigned then n + 1 else n

/-- A count after one version less, never below zero; one that has left the signed words stays where
it is. -/
def lowerCount (n : Int) : Int := if n ≤ maxSigned then max (n - 1) 0 else n

namespace Database

/-! ## Looking up -/

def rows (db : Database) : Source → List ServiceRow
  | .table => db.services
  | .sortedView => db.view

def matching (db : Database) (filter : NameFilter) (source : Source) : List ServiceRow :=
  (db.rows source).filter fun row => filter.holds row.name

/-- The versions of a service, in the order of creation. -/
def versionsOf (db : Database) (serviceId : Nat) : List VersionRow :=
  db.versions.filter fun row => row.serviceId == toSigned serviceId

def serviceRow? (db : Database) (id : Nat) : Option ServiceRow :=
  db.services.find? fun row => row.id == toSigned id

def isVersion (serviceId : Nat) (tag : String) (row : VersionRow) : Bool :=
  row.serviceId == toSigned serviceId && row.tag == tag

def versionRow? (db : Database) (serviceId : Nat) (tag : String) : Option VersionRow :=
  db.versions.find? (isVersion serviceId tag)

def loadService (db : Database) (id : Nat) : Except DatabaseFault (Option Service) :=
  match db.serviceRow? id with
  | none => .ok none
  | some row => (readServices [row]).map List.head?

def loadVersion (db : Database) (serviceId : Nat) (tag : String) :
    Except DatabaseFault (Option Version) :=
  match db.versionRow? serviceId tag with
  | none => .ok none
  | some row => row.toVersion.map some

def scanServices (db : Database) (filter : NameFilter) (source : Source) (range : ScanRange) :
    Except DatabaseFault (List Service) :=
  readServices (range.pickRows (db.matching filter source))

def scanVersions (db : Database) (serviceId : Nat) (range : ScanRange) :
    Except DatabaseFault (List Version) :=
  (range.pickRows (db.versionsOf serviceId)).mapM VersionRow.toVersion

def countServicesNamed (db : Database) (name : String) (excluding : Option Nat) : Nat :=
  (db.services.filter fun row =>
    row.name == name && some row.id != excluding.map toSigned).length

/-! ## Writing -/

/-- The rows of the service table in the order of the sorted view. -/
def sorted (rows : List ServiceRow) : List ServiceRow :=
  rows.mergeSort fun a b => listingOrder a.name a.id b.name b.id

/-- Takes a new snapshot; damaged rows are copied as they are. -/
def refreshView (db : Database) : Except DatabaseFault Unit × Database :=
  (.ok (), { db with view := sorted db.services })

def changeService (db : Database) (id : Nat) (change : ServiceRow → ServiceRow) : Database :=
  { db with
    services := db.services.map fun row => if row.id == toSigned id then change row else row }

def nameTaken (name : String) : DatabaseFault :=
  ⟨.conflict, "service name " ++ name ++ " already exists"⟩

/-- Adds the row first and looks at its id afterwards. -/
def insertService (db : Database) (now : Int) (name description : String) :
    Except DatabaseFault Service × Database :=
  match nextRowId (db.services.map (·.id)) db.lastServiceId with
  | .error fault => (.error fault, db)
  | .ok rowId =>
    if db.services.any fun row => row.name == name then (.error (nameTaken name), db)
    else
      ((readNatural "service id" rowId).map fun id => ⟨id, name, description, 0, now, now⟩,
        { db with
          services := db.services ++ [⟨rowId, name, description, 0, now, now⟩]
          lastServiceId := rowId })

/-- Changes the row first and reads it back afterwards. -/
def updateService (db : Database) (now : Int) (id : Nat) (name description : String) :
    Except DatabaseFault (Option Service) × Database :=
  match db.serviceRow? id with
  | none => (.ok none, db)
  | some _ =>
    if db.services.any fun row => row.name == name && row.id != toSigned id then
      (.error (nameTaken name), db)
    else
      let db := db.changeService id fun row =>
        { row with name := name, description := description, updatedAt := now }
      (db.loadService id, db)

def deleteService (db : Database) (id : Nat) : Except DatabaseFault Bool × Database :=
  match db.serviceRow? id with
  | none => (.ok false, db)
  | some _ =>
    (.ok true,
      { db with
        services := db.services.filter fun row => row.id != toSigned id
        versions := db.versions.filter fun row => row.serviceId != toSigned id })

/-- Raises the owner's count, then adds the row; if the row cannot be added the count is as
before. -/
def insertVersion (db : Database) (now : Int) (serviceId : Nat) (tag info : String) :
    Except DatabaseFault Version × Database :=
  match db.serviceRow? serviceId with
  | none => (.error ⟨.invalid, "service " ++ toString serviceId ++ " does not exist"⟩, db)
  | some _ =>
    let raised := db.changeService serviceId fun row =>
      { row with versionCount := raiseCount row.versionCount, updatedAt := now }
    match nextRowId (raised.versions.map (·.rowId)) raised.lastVersionRow with
    | .error fault => (.error fault, db)
    | .ok rowId =>
      match raised.versionRow? serviceId tag with
      | some _ =>
        (.error ⟨.conflict,
          "version " ++ tag ++ " already exists for service " ++ toString serviceId⟩, db)
      | none =>
        (.ok ⟨serviceId, tag, info, now, now⟩,
          { raised with
            versions := raised.versions ++ [⟨rowId, toSigned serviceId, tag, info, now, now⟩]
            lastVersionRow := rowId })

def updateVersion (db : Database) (now : Int) (serviceId : Nat) (tag info : String) :
    Except DatabaseFault (Option Version) × Database :=
  let db := { db with
    versions := db.versions.map fun row =>
      if isVersion serviceId tag row then { row with info := info, updatedAt := now } else row }
  (db.loadVersion serviceId tag, db)

def deleteVersion (db : Database) (now : Int) (serviceId : Nat) (tag : String) :
    Except DatabaseFault Bool × Database :=
  match db.versionRow? serviceId tag with
  | none => (.ok false, db)
  | some _ =>
    let lowered := db.changeService serviceId fun row =>
      { row with versionCount := lowerCount row.versionCount, updatedAt := now }
    (.ok true,
      { lowered with versions := lowered.versions.filter fun row => !isVersion serviceId tag row })

/-- The answer to a call at an instant as the database itself words it, and the database after
it. -/
def respond (now : Int) :
    (call : Call) → Database → Except DatabaseFault call.Answer × Database
  | .refreshView, db => db.refreshView
  | .countServices filter source, db => (.ok (db.matching filter source).length, db)
  | .scanServices filter source range, db => (db.scanServices filter source range, db)
  | .getService id, db => (db.loadService id, db)
  | .countServicesNamed name excluding, db => (.ok (db.countServicesNamed name excluding), db)
  | .insertService name description, db => db.insertService now name description
  | .updateService id name description, db => db.updateService now id name description
  | .deleteService id, db => db.deleteService id
  | .getVersion serviceId tag, db => (db.loadVersion serviceId tag, db)
  | .insertVersion serviceId tag info, db => db.insertVersion now serviceId tag info
  | .updateVersion serviceId tag info, db => db.updateVersion now serviceId tag info
  | .deleteVersion serviceId tag, db => db.deleteVersion now serviceId tag
  | .countVersions serviceId, db => (.ok (db.versionsOf serviceId).length, db)
  | .scanVersions serviceId range, db => (db.scanVersions serviceId range, db)

def answer (now : Int) : Backend Database := fun call db =>
  let (reply, db) := db.respond now call
  (reply.mapError DatabaseFault.reported, db)

/-! ## The layout -/

/-- The layout version that the library reads and writes. -/
def currentLayout : Int := 1

/-- Makes a database ready for use: a file that names no layout is given the current one, and one
of another layout is refused as it is. -/
def prepare (db : Database) : Except DatabaseFault Unit × Database :=
  match db.layout with
  | none => (.ok (), { db with layout := some currentLayout })
  | some version =>
    if version = currentLayout then (.ok (), db)
    else (.error ⟨.versionMismatch, "unsupported schema version: " ++ toString version⟩, db)

end Database

end ServiceRegistry
