import ServiceRegistry.Operation
import ServiceRegistry.Refresh.OnDemand

/-!
# Deeds

What callers do to a catalog from start to end, one after another: requests and refreshes on demand.

* `Deed.done_preserves`: what every call keeps of the store, any sequence of deeds keeps.
-/

namespace ServiceRegistry

/-- What every call keeps of a store, a procedure keeps. -/
theorem Procedure.run_preserves {σ α : Type} {backend : Backend σ} (P : σ → Prop)
    (hcall : ∀ call store, P store → P (backend call store).2) {p : Procedure α} {world : World σ}
    (h : P world.store) : P (p.run backend world).2.store := by
  induction p generalizing world with
  | done value => exact h
  | act a next ih =>
    refine ih _ ?_
    cases a with
    | call call => exact hcall call world.store h
    | markOwed => exact h
    | consumeOwed => exact h
    | record event => exact h

/-- What a caller does: a request, or a refresh if one is owed. -/
inductive Deed
  | ask (request : Request)
  | refresh

namespace Deed

abbrev Result : Deed → Type
  | .ask request => Except Refusal request.Answer
  | .refresh => Except Fault Bool

def procedure : (deed : Deed) → Procedure deed.Result
  | .ask request => request.procedure
  | .refresh => Refresh.ifOwed

/-- The world after deeds, each at its instant. -/
def done {σ : Type} (answer : Int → Backend σ) (world : World σ) (history : List (Int × Deed)) :
    World σ :=
  history.foldl (fun world step => (step.2.procedure.run (answer step.1) world).2) world

theorem done_preserves {σ : Type} {answer : Int → Backend σ} (P : σ → Prop)
    (hcall : ∀ now call store, P store → P (answer now call store).2) {world : World σ}
    (h : P world.store) (history : List (Int × Deed)) : P (done answer world history).store := by
  induction history generalizing world with
  | nil => exact h
  | cons step rest ih => exact ih (Procedure.run_preserves P (hcall step.1) h)

end Deed

end ServiceRegistry
