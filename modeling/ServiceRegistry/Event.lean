/-!
# Events

What the catalog reports about its own running: the attempts to refresh the sorted view, and the
storage faults that made an operation fail.
-/

namespace ServiceRegistry

inductive RefreshCause
  | startup
  | scheduled
  | dirty
deriving DecidableEq, Repr, Inhabited

def RefreshCause.label : RefreshCause → String
  | .startup => "startup"
  | .scheduled => "scheduled"
  | .dirty => "dirty"

/-- How an attempt to refresh, or a whole sequence of attempts, ended. -/
inductive RefreshOutcome
  | refreshed
  | failed
  | exhausted
  | cancelled
deriving DecidableEq, Repr, Inhabited

def RefreshOutcome.label : RefreshOutcome → String
  | .refreshed => "refreshed"
  | .failed => "failed"
  | .exhausted => "exhausted"
  | .cancelled => "cancelled"

inductive Event
  /-- An attempt to refresh, counted from 1, or the end of a sequence of attempts. -/
  | refresh (cause : RefreshCause) (attempt : Nat) (outcome : RefreshOutcome)
      (error : Option String)
  | storeFailure (operation : String) (error : String)
deriving DecidableEq, Repr, Inhabited

structure StampedEvent where
  instant : Int
  event : Event
deriving DecidableEq, Repr, Inhabited

end ServiceRegistry
