import ServiceRegistry.Proofs.Storage.Frame
import ServiceRegistry.Procedure

/-!
# Stores whose calls may fail on the way

A plan says, call by call, which calls never reach the store and what fault is answered in their
place.  A call without an entry in the plan reaches the store.
-/

namespace ServiceRegistry

/-- A store with a plan of the faults that its next calls meet. -/
structure Unreliable (σ : Type) where
  inner : σ
  plan : List (Option Fault) := []

namespace Unreliable

variable {σ : Type}

/-- The answer to a call: the fault that the plan has for it, else the store's own. -/
def answer (backend : Backend σ) : Backend (Unreliable σ) := fun call store =>
  match store.plan with
  | some fault :: plan => (.error fault, { store with plan := plan })
  | plan =>
    let (reply, inner) := backend call store.inner
    (reply, ⟨inner, plan.tail⟩)

/-- A call fails and leaves the store as it is, or is answered by the store. -/
theorem answer_cases (backend : Backend σ) (call : Call) (store : Unreliable σ) :
    (∃ fault, (answer backend call store).1 = .error fault ∧
      (answer backend call store).2.inner = store.inner) ∨
    ((answer backend call store).1 = (backend call store.inner).1 ∧
      (answer backend call store).2.inner = (backend call store.inner).2) := by
  unfold answer
  split
  · exact Or.inl ⟨_, rfl, rfl⟩
  · exact Or.inr ⟨rfl, rfl⟩

/-- The world with a plan for the next calls. -/
def withPlan (plan : List (Option Fault)) (world : World (Unreliable σ)) : World (Unreliable σ) :=
  { world with store := { world.store with plan := plan } }

end Unreliable

end ServiceRegistry
