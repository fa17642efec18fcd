import ServiceRegistry.Deployment
import ServiceRegistry.Json.Record
import ServiceRegistry.Operation

/-!
# Commands

A command on the records of a catalog makes one request and prints what it was answered.  A command
that may leave the sorted view behind flushes it before it ends; if that fails the command has been
carried out all the same, and only a warning is printed.

`RecordCommand.procedure` is all that such a command does to a catalog.
-/

namespace ServiceRegistry

inductive RecordCommand
  | addService (name description : String)
  | updateService (id : Nat) (name description : String)
  | removeService (id : Nat)
  | getService (id : Nat)
  | listServices (page : Nat) (size : Option Nat) (sort : SortKey) (inverted : Bool) (term : String)
  | addVersion (serviceId : Nat) (tag info : String)
  | updateVersion (serviceId : Nat) (tag info : String)
  | removeVersion (serviceId : Nat) (tag : String)
  | listVersions (serviceId : Nat) (page : Nat) (size : Option Nat)
deriving DecidableEq, Repr, Inhabited

/-- What can be asked of the program. -/
inductive Command
  /-- Keep the sorted view current until stopped. -/
  | serve
  | checkSettings
  | records (command : RecordCommand)
deriving DecidableEq, Repr, Inhabited

/-- What a command prints, and the number with which it ends. -/
structure Output where
  exit : Nat := 0
  said : List String := []
  complained : List String := []
deriving DecidableEq, Repr, Inhabited

def Output.failure (message : String) : Output := { exit := 1, complained := [message] }

namespace RecordCommand

def request (pages : PageSettings) : RecordCommand → Request
  | addService name description => .createService name description
  | updateService id name description => .updateService id name description
  | removeService id => .deleteService id
  | getService id => .getService id
  | listServices page size sort inverted term =>
    .fetchServices (.of page (pages.sizeFor size) inverted) ⟨term⟩ sort
  | addVersion serviceId tag info => .createVersion serviceId tag info
  | updateVersion serviceId tag info => .updateVersion serviceId tag info
  | removeVersion serviceId tag => .deleteVersion serviceId tag
  | listVersions serviceId page size => .fetchVersions serviceId page (pages.sizeFor size)

/-- What a command prints of the answer to its request. -/
def render (pages : PageSettings) : (command : RecordCommand) → (command.request pages).Answer → Json
  | addService .., service => Service.toJson service
  | updateService .., service => Service.toJson service
  | removeService id, _ => .ofFields [("removed", .natural id)]
  | getService _, service => Service.toJson service
  | listServices .., page => Page.toJson Service.toJson page
  | addVersion .., version => Version.toJson version
  | updateVersion .., version => Version.toJson version
  | removeVersion serviceId tag, _ =>
    .ofFields [("removed", .text tag), ("serviceId", .natural serviceId)]
  | listVersions .., page => Page.toJson Version.toJson page

def flushes : RecordCommand → Bool
  | addService .. => true
  | updateService .. => true
  | removeService _ => true
  | addVersion .. => true
  | removeVersion .. => true
  | _ => false

def procedure (pages : PageSettings) (command : RecordCommand) : Procedure Output := do
  match ← (command.request pages).procedure with
  | .error refusal => return .failure refusal.message
  | .ok answer =>
    let output : Output := { said := [(command.render pages answer).toText] }
    if command.flushes then
      match ← Deployment.flush with
      | .ok _ => return output
      | .error fault => return { output with complained := ["warning: " ++ fault.message] }
    else return output

end RecordCommand

end ServiceRegistry
