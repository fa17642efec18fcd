import ServiceRegistry.Refresh.Engine
import ServiceRegistry.Refresh.StopChannel

/-!
# The engine on a timer clock

A timeline is a run of the refresh engine on a clock of whole milliseconds that jumps from one due
instant to the next; calls on the store take no time.  Work that others do on the catalog is placed
on the timeline at its instant, before everything that the engine does at this instant.

* `Timeline.advance` lets the engine do all that is due before an instant;
* `Timeline.perform` does a piece of work now;
* `Timeline.pull` and `Timeline.dropTrigger` ask the engine to stop.
-/

namespace ServiceRegistry.Refresh

structure Timeline (σ : Type) where
  plan : Plan
  world : World σ
  /-- Whether a request to stop waits until startup is over. -/
  patient : Bool := false
  now : Nat := 0
  channel : StopChannel := {}
  phase : Phase := .start
  /-- The events so far, each with its instant. -/
  log : Array (Nat × Event) := #[]

namespace Timeline

def stopSeen (t : Timeline σ) : Bool :=
  t.channel.requested && !(t.patient && t.phase.startingUp)

def pull (t : Timeline σ) : Timeline σ := { t with channel := t.channel.pull }

/-- Gives up the trigger, which asks the engine to stop too. -/
def dropTrigger (t : Timeline σ) : Timeline σ := { t with channel := t.channel.dropTrigger }

def perform (backend : Backend σ) (t : Timeline σ) (work : Procedure α) : α × Timeline σ :=
  let (value, world) := work.run backend t.world
  (value, { t with
    world := { world with events := [] }
    log := world.events.foldl (fun log event => log.push (t.now, event)) t.log })

def step (backend : Backend σ) (t : Timeline σ) : Timeline σ :=
  let (phase, t) := t.perform backend (t.phase.step t.plan t.now t.stopSeen)
  { t with phase := phase }

/-- Steps and jumps of the engine before the instant `horizon`, at most `fuel` of them. -/
def advanceWithin (backend : Backend σ) (horizon : Nat) : (fuel : Nat) → Timeline σ → Timeline σ
  | 0, t => t
  | fuel + 1, t =>
    if t.now < horizon then
      if t.phase.ready t.now t.stopSeen then advanceWithin backend horizon fuel (t.step backend)
      else
        match t.phase.wake? with
        | some instant => advanceWithin backend horizon fuel { t with now := min instant horizon }
        | none => { t with now := horizon }
    else t

/-- More steps than the engine can take before an instant: at each instant each ticker is handled
at most `Ticker.grace + 1` times, and every tick leads to one sequence of attempts at most. -/
def stepBound (plan : Plan) (horizon : Nat) : Nat :=
  (horizon + 1) * (2 * (Ticker.grace + 2) * (3 * plan.retry.budget + 4))

/-- Lets the engine do all that is due before the instant `horizon`. -/
def advance (backend : Backend σ) (horizon : Nat) (t : Timeline σ) : Timeline σ :=
  t.advanceWithin backend horizon (stepBound t.plan horizon)

end Timeline

end ServiceRegistry.Refresh
