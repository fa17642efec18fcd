import ServiceRegistry.Word

/-!
# The wall clock

Records and events are stamped with milliseconds since the epoch.  A clock set before the epoch
reads zero, one set past the signed words reads the largest of them, and parts of a millisecond are
dropped.
-/

namespace ServiceRegistry

/-- A reading of the wall clock: seconds since the epoch and nanoseconds below a second. -/
structure WallClock where
  secs : Int
  nanos : Nat
deriving DecidableEq, Repr, Inhabited

/-- The milliseconds since the epoch at which records and events are stamped. -/
def WallClock.millis (clock : WallClock) : Int :=
  min (max (clock.secs * 1000 + (clock.nanos / 1000000 : Nat)) 0) maxSigned

/-- A stamp is a signed word and not negative. -/
theorem WallClock.millis_mem (clock : WallClock) : 0 ≤ clock.millis ∧ clock.millis ≤ maxSigned := by
  unfold WallClock.millis maxSigned
  omega

end ServiceRegistry
