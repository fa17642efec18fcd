import ServiceRegistry.Refresh.Failure
import ServiceRegistry.Refresh.OnDemand
import ServiceRegistry.Retry
import ServiceRegistry.Timing.Ticker

/-!
# The refresh engine

The engine keeps the sorted view current.  It refreshes at startup, then on a schedule, both with
bounded retries, and between those whenever a refresh is owed.  A request to stop is heeded before
each attempt, during each pause, after the last pause of a sequence and while waiting; it ends the
engine cleanly, and only attempts used up before it are fatal.  Before the engine first waits it starts
its tickers, stop or no stop, and its task fails if the clock ends before one of them is first due.

The engine is a machine: `Phase.step` takes one step at an instant of the timer clock and says what
it does to the catalog as a procedure, `Phase.ready` says whether there is a step to take, and
`Phase.wake?` when there will be one.
-/

namespace ServiceRegistry.Refresh

/-- How often the view is refreshed, how failures are retried, and how far the clock goes. -/
structure Plan where
  scheduledEvery : Span := .ofSecs 1800
  dirtyCheckEvery : Span := .ofSecs 2
  retry : RetryPolicy := {}
  /-- The last nanosecond that the clock can name, unless it goes on without end. -/
  clockEnd : Option Nat := none
deriving DecidableEq, Repr, Inhabited

structure Timers where
  scheduled : Ticker
  dirtyCheck : Ticker
deriving DecidableEq, Repr, Inhabited

/-- Whether the clock reaches the first deadlines of tickers that are started now. -/
def Plan.fits (plan : Plan) (now : Nat) : Bool :=
  plan.clockEnd.all fun last =>
    Ticker.fits plan.scheduledEvery now last && Ticker.fits plan.dirtyCheckEvery now last

/-- The tickers of an engine that starts to wait now. -/
def Plan.timers (plan : Plan) (now : Nat) : Timers :=
  ⟨.start plan.scheduledEvery.timerMillis now, .start plan.dirtyCheckEvery.timerMillis now⟩

/-- What a sequence of attempts is for: startup, or a scheduled refresh from which the engine goes
back to its tickers. -/
inductive Purpose
  | startup
  | scheduled (timers : Timers)
deriving DecidableEq, Repr, Inhabited

def Purpose.cause : Purpose → RefreshCause
  | .startup => .startup
  | .scheduled _ => .scheduled

/-- How the engine fails when the attempts of a sequence are used up. -/
def Purpose.failure : Purpose → Nat → Fault → RefreshFailure
  | .startup => .startupExhausted
  | .scheduled _ => .scheduledExhausted

/-- Where the engine stands.  Attempts are counted from 0. -/
inductive Phase
  /-- About to make an attempt. -/
  | attempting (purpose : Purpose) (attempt : Nat)
  /-- The refresh of an attempt is in flight. -/
  | refreshing (purpose : Purpose) (attempt : Nat)
  /-- Pausing after a failed attempt. -/
  | pausing (purpose : Purpose) (attempt : Nat) (fault : Fault) (until_ : Nat)
  /-- Waiting for a ticker. -/
  | waiting (timers : Timers)
  /-- An owed refresh is in flight. -/
  | settling (timers : Timers)
  | ended (result : Except RefreshFailure Unit)
deriving Inhabited

namespace Phase

def start : Phase := attempting .startup 0

/-- Whether the engine has not got through its startup refresh yet. -/
def startingUp : Phase → Bool
  | attempting .startup _ => true
  | refreshing .startup _ => true
  | pausing .startup .. => true
  | _ => false

def result? : Phase → Option (Except RefreshFailure Unit)
  | ended result => some result
  | _ => none

/-- Whether there is a step to take at an instant. -/
def ready (now : Nat) (stop : Bool) : Phase → Bool
  | attempting .. => true
  | refreshing .. => true
  | pausing _ _ _ until_ => stop || until_ ≤ now
  | waiting timers => stop || timers.scheduled.due now || timers.dirtyCheck.due now
  | settling _ => true
  | ended _ => false

/-- The instant at which a pause or a wait is over by itself. -/
def wake? : Phase → Option Nat
  | pausing _ _ _ until_ => some until_
  | waiting timers => some (min timers.scheduled.deadline timers.dirtyCheck.deadline)
  | _ => none

/-- Goes on after a sequence that did not fail: startup leads to waiting, if the tickers can be
started, and a scheduled sequence back to it. -/
def carryOn (plan : Plan) (now : Nat) : Purpose → Phase
  | .startup =>
    if plan.fits now then waiting (plan.timers now) else ended (.error .clockOverflow)
  | .scheduled timers => waiting timers

/-- Ends a sequence because of a request to stop.  The event counts all attempts of the budget. -/
def cancel (plan : Plan) (now : Nat) (purpose : Purpose) : Procedure Phase := do
  Procedure.record (.refresh purpose.cause plan.retry.budget .cancelled none)
  return carryOn plan now purpose

/-- What a phase does at an instant at which it is ready. -/
def proceed (plan : Plan) (now : Nat) (stop : Bool) : Phase → Procedure Phase
  | attempting purpose attempt =>
    if stop then cancel plan now purpose else return refreshing purpose attempt
  | refreshing purpose attempt => do
    match ← Procedure.call .refreshView with
    | .ok () =>
      Procedure.record (.refresh purpose.cause (attempt + 1) .refreshed none)
      return carryOn plan now purpose
    | .error fault =>
      Procedure.record (.refresh purpose.cause (attempt + 1) .failed (some fault.message))
      let pause := plan.retry.delayAfter attempt
      return pausing purpose attempt fault (now + pause.timerMillis)
  | pausing purpose attempt fault _ =>
    if attempt + 1 < plan.retry.budget then return attempting purpose (attempt + 1)
    else if stop then cancel plan now purpose
    else do
      Procedure.record (.refresh purpose.cause (attempt + 1) .exhausted (some fault.message))
      return ended (.error (purpose.failure (attempt + 1) fault))
  | waiting timers =>
    if stop then return ended (.ok ())
    else if timers.scheduled.due now then
      return attempting (.scheduled { timers with scheduled := timers.scheduled.handled now }) 0
    else do
      let timers := { timers with dirtyCheck := timers.dirtyCheck.handled now }
      return if ← Procedure.consumeOwed then settling timers else waiting timers
  | settling timers => do
    let _ ← settle
    return waiting timers
  | ended result => return ended result

/-- One step at an instant, given whether the engine has been asked to stop; a phase that is not
ready stays as it is. -/
def step (plan : Plan) (now : Nat) (stop : Bool) (phase : Phase) : Procedure Phase :=
  if phase.ready now stop then phase.proceed plan now stop else return phase

end Phase

end ServiceRegistry.Refresh
