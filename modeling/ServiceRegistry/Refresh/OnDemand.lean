import ServiceRegistry.Procedure

/-!
# Refreshing on demand

Writes only mark that a refresh of the sorted view is owed.  Settling the debt first consumes the
mark and then refreshes once; if that fails the refresh is marked as owed again, so no debt is lost
whatever happens in between.
-/

namespace ServiceRegistry.Refresh

/-- Refreshes once for a mark that has been consumed, and marks again on failure. -/
def settle : Procedure (Except Fault Unit) := do
  match ← Procedure.call .refreshView with
  | .ok () =>
    Procedure.record (.refresh .dirty 1 .refreshed none)
    return .ok ()
  | .error fault =>
    Procedure.markOwed
    Procedure.record (.refresh .dirty 1 .failed (some fault.message))
    return .error fault

/-- Refreshes if a refresh is owed; answers whether one was. -/
def ifOwed : Procedure (Except Fault Bool) := do
  if ← Procedure.consumeOwed then
    return (← settle).map fun () => true
  else
    return .ok false

end ServiceRegistry.Refresh
