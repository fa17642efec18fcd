import ServiceRegistry.Json.Record
import ServiceRegistry.Refresh.OnDemand
import ServiceRegistry.Settings
import ServiceRegistry.Storage.Opening
import ServiceRegistry.Storage.RecordStore

/-!
# Deployments

A deployment is a catalog at work on a host: its settings, its store and the flag that a refresh of
the sorted view is owed.  The store is opened first and the place for events second.

`Deployment.perform` does a procedure on a deployment: the tables of a database are read from its
file before and written back after it, and events go where the settings say, each stamped with the
wall clock.
-/

namespace ServiceRegistry

/-- Why events cannot go where the settings say. -/
inductive SinkFault
  /-- They are to go to a file, and none is named. -/
  | unplaced
  | file (failure : FileFailure)
deriving DecidableEq, Repr, Inhabited

def SinkFault.message : SinkFault → String
  | .unplaced => "file sink requires a path"
  | .file failure => failure.message

/-- Why a deployment could not be started, or not be brought up to date. -/
inductive DeploymentFault
  | store (fault : OpeningFault)
  | events (fault : SinkFault)
  | refresh (fault : Fault)
deriving DecidableEq, Repr, Inhabited

def DeploymentFault.message : DeploymentFault → String
  | .store fault => "store init failed: " ++ fault.message
  | .events fault => "event sink init failed: " ++ fault.message
  | .refresh fault => "view refresh failed: " ++ fault.message

structure Deployment where
  settings : Settings
  store : RecordStore
  file : Option String := none
  owed : Bool := false
deriving Inhabited

namespace Deployment

variable {m : Type → Type} [Monad m]

def openStore (host : Host m) (settings : StoreSettings) :
    m (Except OpeningFault (RecordStore × Option String)) := do
  match settings.database? with
  | none => return .ok (.memory {}, none)
  | some settings => return (← Database.openAt host settings).map fun db => (.database db.tables, db.file)

/-- Makes sure that events can go where the settings say. -/
def openEvents (host : Host m) (settings : LogSettings) : m (Except SinkFault Unit) :=
  match settings.sink, settings.path with
  | .file, some path => return (← host.append path .empty).mapError .file
  | .file, none => return .error .unplaced
  | _, _ => return .ok ()

def launch (host : Host m) (settings : Settings) : m (Except DeploymentFault Deployment) := do
  match ← openStore host settings.store with
  | .error fault => return .error (.store fault)
  | .ok (store, file) =>
    match ← openEvents host settings.log with
    | .error fault => return .error (.events fault)
    | .ok () => return .ok { settings := settings, store := store, file := file }

/-- Lets an event go where the settings say. -/
def emit (host : Host m) (settings : LogSettings) (event : StampedEvent) : m Unit :=
  match settings.sink, settings.path with
  | .stderr, _ => host.complain event.toJson.toText
  | .file, some path => discard (host.append path event.line.toUTF8)
  | _, _ => return ()

/-- Takes the tables of a database from their file, where others may have written meanwhile.  While
the file cannot be read the tables stay as they are. -/
def reload (host : Host m) (d : Deployment) : m Deployment := do
  match d.store, d.file with
  | .database tables, some file =>
    match ← host.read file with
    | .ok content => return { d with store := .database ((Database.ofBytes? content).getD tables) }
    | .error _ => return d
  | _, _ => return d

/-- Writes the tables of a database back to their file. -/
def save (host : Host m) (d : Deployment) : m Unit :=
  match d.store with
  | .memory _ => return ()
  | .database tables => do
    match ← Database.save host ⟨d.file, tables⟩ with
    | .ok () => return ()
    | .error failure => host.complain ("store not saved: " ++ failure.message)

/-- Goes on with another store, which is saved if it differs. -/
def withStore (host : Host m) (d : Deployment) (store : RecordStore) : m Deployment := do
  let changed : Deployment := { d with store := store }
  if store ≠ d.store then changed.save host
  return changed

def perform (host : Host m) (d : Deployment) (work : Procedure α) : m (α × Deployment) := do
  let d ← d.reload host
  let now ← host.now
  let (value, world) := work.run (RecordStore.answer now) { store := d.store, owed := d.owed }
  world.events.forM fun event => emit host d.settings.log ⟨now, event⟩
  let d ← d.withStore host world.store
  return (value, { d with owed := world.owed })

/-- Refreshes the sorted view if that is owed. -/
def flush : Procedure (Except DeploymentFault Bool) := do
  return (← Refresh.ifOwed).mapError .refresh

end Deployment

end ServiceRegistry
