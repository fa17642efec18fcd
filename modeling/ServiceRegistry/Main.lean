import ServiceRegistry.CommandLine.Run
import ServiceRegistry.Timing.WallClock
import Std.Async.Signal
import Std.Time

/-!
# The program

Runs commands on the machine at hand, and serves a catalog in real time until it is interrupted.
-/

namespace ServiceRegistry.Main

/-- The number of a system error and its words. -/
def numbered : IO.Error → Option (UInt32 × String)
  | .alreadyExists _ code text => some (code, text)
  | .otherError code text => some (code, text)
  | .resourceBusy code text => some (code, text)
  | .resourceVanished code text => some (code, text)
  | .unsupportedOperation code text => some (code, text)
  | .hardwareFault code text => some (code, text)
  | .unsatisfiedConstraints code text => some (code, text)
  | .illegalOperation code text => some (code, text)
  | .protocolError code text => some (code, text)
  | .timeExpired code text => some (code, text)
  | .interrupted _ code text => some (code, text)
  | .noFileOrDirectory _ code text => some (code, text)
  | .invalidArgument _ code text => some (code, text)
  | .permissionDenied _ code text => some (code, text)
  | .resourceExhausted _ code text => some (code, text)
  | .inappropriateType _ code text => some (code, text)
  | .noSuchThing _ code text => some (code, text)
  | .unexpectedEof => none
  | .userError _ => none

/-- The number of a system error; part of the system gives it with a minus sign, as a word. -/
def systemNumber (code : UInt32) : Nat :=
  if code.toNat < 2147483648 then code.toNat else 4294967296 - code.toNat

def fileFailure (error : IO.Error) : FileFailure :=
  match (numbered error).map fun (code, text) => (systemNumber code, text) with
  | some (2, _) => .noEntry
  | some (13, _) => .permissionDenied
  | some (17, _) => .alreadyExists
  | some (20, _) => .notDirectory
  | some (21, _) => .isDirectory
  | some (36, _) => .nameTooLong
  | some (number, text) => .other (text ++ " (os error " ++ toString number ++ ")")
  | none => .other (toString error)

/-- Does an act on a file, unless no file can have its path. -/
def onFile (path : String) (act : IO α) : IO (Except FileFailure α) := do
  if path.toList.contains '\x00' then return .error .unusableName
  if path = "" then return .error .noEntry
  try
    return .ok (← act)
  catch error =>
    return .error (fileFailure error)

def isDirectory (path : String) : IO Bool := do
  if path = "" ∨ path.toList.contains '\x00' then return false
  ((← IO.currentDir) / path).isDir

def wallClock : IO WallClock := do
  let stamp ← Std.Time.Timestamp.now
  return ⟨stamp.val.second.val, stamp.val.nano.val.toNat⟩

/-- The machine at hand. -/
def host : Host IO where
  now := return (← wallClock).millis
  environment name := IO.getEnv name
  workingDirectory := return toString (← IO.currentDir)
  isDirectory := isDirectory
  makeDirectory path := onFile path (IO.FS.createDir path)
  read path := do
    if ← isDirectory path then return .error .isDirectory
    onFile path (IO.FS.readBinFile path)
  write path content := onFile path (IO.FS.writeBinFile path content)
  append path more := do
    if ← isDirectory path then return .error .isDirectory
    onFile path (IO.FS.withFile path .append (·.write more))
  say line := do
    let out ← IO.getStdout
    out.putStrLn line
    out.flush
  complain line := do
    let out ← IO.getStderr
    out.putStrLn line
    out.flush

/-- The longest sleep, in milliseconds, before a request to stop is looked for. -/
def longestSleep : Nat := 20

/-- Serves a catalog until its engine has ended.  A request to stop is heeded when startup is
over. -/
partial def serve (deployment : Deployment) (start : Nat) (stopRequested : BaseIO Bool)
    (phase : Refresh.Phase) : IO (Except RefreshFailure Unit) := do
  match phase.result? with
  | some result => return result
  | none =>
    let now := (← IO.monoMsNow) - start
    let stop := (← stopRequested) && !phase.startingUp
    if phase.ready now stop then
      let step := phase.step deployment.settings.sync.plan now stop
      let (phase, deployment) ← deployment.perform host step
      serve deployment start stopRequested phase
    else
      let pause := phase.wake?.getD now - now
      IO.sleep (UInt32.ofNat (min (max pause 1) longestSleep))
      serve deployment start stopRequested phase

/-- Watches for an interruption; where none can be watched for, there has been one. -/
def watchInterruption : IO (BaseIO Bool) := do
  try
    let waiter ← Std.Async.Signal.Waiter.mk .sigint false
    let interrupted ← waiter.wait
    return IO.hasFinished interrupted
  catch _ => return (pure true)

def serveUntilInterrupted (deployment : Deployment) : IO (Except RefreshFailure Unit) := do
  let stopRequested ← watchInterruption
  serve deployment (← IO.monoMsNow) stopRequested .start

end ServiceRegistry.Main

open ServiceRegistry in
def main (words : List String) : IO UInt32 := do
  match ← CommandLine.run Main.host words with
  | .ended exit => return UInt32.ofNat exit
  | .serving deployment =>
    let result ← Main.serveUntilInterrupted deployment
    return UInt32.ofNat (← CommandLine.print Main.host (CommandLine.servedOutput result))
