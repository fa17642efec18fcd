import ServiceRegistry.Storage.Fault

/-!
# Fatal refresh failures

What ends the refresh engine other than a request to stop: the attempts of a sequence were used up,
at startup or on schedule, or the engine's own task came to grief.
-/

namespace ServiceRegistry

inductive RefreshFailure
  | startupExhausted (attempts : Nat) (source : Fault)
  | scheduledExhausted (attempts : Nat) (source : Fault)
  | taskFailed (detail : String)
deriving DecidableEq, Repr, Inhabited

def RefreshFailure.message : RefreshFailure → String
  | .startupExhausted attempts source =>
    "initial view reconciliation failed after " ++ toString attempts ++ " attempts: " ++
      source.message
  | .scheduledExhausted attempts source =>
    "scheduled view refresh failed after " ++ toString attempts ++ " attempts: " ++ source.message
  | .taskFailed detail => "view sync task failed: " ++ detail

/-- The clock has no name for the instant at which a ticker would first be due.  The detail is the
task's last word, without the number that a runtime gives the task. -/
def RefreshFailure.clockOverflow : RefreshFailure :=
  .taskFailed "overflow when adding duration to instant"

end ServiceRegistry
