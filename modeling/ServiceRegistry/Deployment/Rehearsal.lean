import ServiceRegistry.Deployment
import ServiceRegistry.Refresh.Timeline

/-!
# Rehearsed serving

A deployment is served on a timer clock that jumps from one due instant to the next, while the wall
clock of its host stands still.  The request to stop comes at a given instant and is heeded when
startup is over.
-/

namespace ServiceRegistry

namespace Deployment

/-- The timeline of a deployment that is about to be served. -/
def timeline (d : Deployment) : Refresh.Timeline RecordStore where
  plan := d.settings.sync.plan
  world := { store := d.store, owed := d.owed }
  patient := true

/-- Serves a deployment up to the instant `horizon`, with a request to stop at `stopAt`. -/
def serveWithin {m : Type → Type} [Monad m] (host : Host m) (d : Deployment)
    (stopAt horizon : Nat) : m (Option (Except RefreshFailure Unit) × Deployment) := do
  let d ← d.reload host
  let now ← host.now
  let backend := RecordStore.answer now
  let stopped := (d.timeline.advance backend stopAt).pull.advance backend horizon
  stopped.log.forM fun (_, event) => emit host d.settings.log ⟨now, event⟩
  let d ← d.withStore host stopped.world.store
  return (stopped.phase.result?, { d with owed := stopped.world.owed })

end Deployment

end ServiceRegistry
