import ServiceRegistry.Files.Disk
import ServiceRegistry.Host
import ServiceRegistry.Timing.WallClock

/-!
# Machines in memory

A host whose disk, clock, environment and outputs are values, so that whatever the library does on a
host can be rehearsed and reasoned about.
-/

namespace ServiceRegistry

structure Machine where
  disk : Disk := {}
  clock : WallClock := ⟨0, 0⟩
  environment : List (String × String) := []
  /-- The lines of the standard output. -/
  said : Array String := #[]
  /-- The lines of the standard error output. -/
  complained : Array String := #[]
deriving Inhabited

namespace Machine

/-- Changes the disk, or leaves it as it is on failure. -/
def changeDisk (change : Disk → Except FileFailure Disk) :
    StateM Machine (Except FileFailure Unit) := fun machine =>
  match change machine.disk with
  | .ok disk => (.ok (), { machine with disk := disk })
  | .error failure => (.error failure, machine)

def host : Host (StateM Machine) where
  now := return (← get).clock.millis
  environment name := return (← get).environment.lookup name
  workingDirectory := return (← get).disk.current.path
  isDirectory path := return (← get).disk.isDirectory path
  makeDirectory path := changeDisk (·.makeDirectory path)
  read path := return (← get).disk.read path
  write path content := changeDisk (·.write path content)
  append path more := changeDisk (·.append path more)
  say line := modify fun machine => { machine with said := machine.said.push line }
  complain line := modify fun machine => { machine with complained := machine.complained.push line }

/-- Makes a directory and those around it. -/
def addDirectory (path : String) : StateM Machine (Except FileFailure Unit) :=
  host.makeDirectories (Path.isAbsolute path) (Path.steps path).reverse

/-- Makes a file and the directories around it. -/
def addFile (path : String) (content : ByteArray) : StateM Machine (Except FileFailure Unit) := do
  match ← host.makeDirectories (Path.isAbsolute path) (Path.steps path).reverse.tail with
  | .ok () => host.write path content
  | .error failure => return .error failure

end Machine

end ServiceRegistry
