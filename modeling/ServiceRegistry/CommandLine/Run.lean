import ServiceRegistry.CommandLine.Arguments
import ServiceRegistry.Settings.Location

/-!
# Running commands

A run reads its words, loads the settings, starts the catalog and carries out the command.  All but
serving is done in one go; `run` hands a deployment that is to be served back to its caller, who has
the timers.
-/

namespace ServiceRegistry.CommandLine

def versionLine : String := "service-catalog 0.1.0"

def usageLines : List String :=
  ["Usage: service-catalog [--config PATH] COMMAND",
    "",
    "Commands:",
    "  serve",
    "  config validate",
    "  service add --name NAME [--description TEXT]",
    "  service update --id ID --name NAME [--description TEXT]",
    "  service remove --id ID",
    "  service get --id ID",
    "  service list [--page N] [--page-size N] [--sort-by date|name] [--inverted] [--name TERM]",
    "  version add --service-id ID --tag TAG [--info TEXT]",
    "  version update --service-id ID --tag TAG [--info TEXT]",
    "  version remove --service-id ID --tag TAG",
    "  version list --service-id ID [--page N] [--page-size N]"]

def servingLine : String := "service catalog started; press Ctrl-C to stop"

/-- What is printed for words that are no command. -/
def detourOutput : Arguments.Detour → Output
  | .misuse => { exit := 2, complained := usageLines }
  | .help => { said := usageLines }
  | .version => { said := [versionLine] }

/-- How a run goes on. -/
inductive Next
  /-- The run is over and ends with this number. -/
  | ended (exit : Nat)
  /-- The catalog is to be served. -/
  | serving (deployment : Deployment)

variable {m : Type → Type} [Monad m]

/-- Prints an output and ends. -/
def print (host : Host m) (output : Output) : m Nat := do
  output.said.forM host.say
  output.complained.forM host.complain
  return output.exit

def carryOut (host : Host m) (settings : Settings) (command : Command) : m Next := do
  match command with
  | .checkSettings => return .ended (← print host { said := ["config ok"] })
  | .serve =>
    match ← Deployment.launch host settings with
    | .error fault => return .ended (← print host (.failure fault.message))
    | .ok deployment =>
      host.complain servingLine
      return .serving deployment
  | .records command =>
    match ← Deployment.launch host settings with
    | .error fault => return .ended (← print host (.failure fault.message))
    | .ok deployment =>
      let (output, _) ← deployment.perform host (command.procedure settings.pages)
      return .ended (← print host output)

/-- Runs the command that words spell, up to the point where a catalog is to be served. -/
def run (host : Host m) (words : List String) : m Next := do
  match Arguments.read words with
  | .error detour => return .ended (← print host (detourOutput detour))
  | .ok (path, command) =>
    match ← Settings.load host path with
    | .error fault => return .ended (← print host (.failure ("failed to load config: " ++ fault.message)))
    | .ok settings => carryOut host settings command

def servedOutput : Except RefreshFailure Unit → Output
  | .ok () => {}
  | .error failure => .failure ("view sync engine stopped: " ++ failure.message)

end ServiceRegistry.CommandLine
