import ServiceRegistry.Event
import ServiceRegistry.Storage.Call

/-!
# Procedures

A procedure is a piece of work on the catalog as a tree of its atomic acts: calls on the store,
marking and consuming the flag that a refresh of the sorted view is owed, and recording events.  It
is written without a store and can be run on any one, or interleaved with others act by act.

* `Procedure` is a monad, with `call`, `markOwed`, `consumeOwed` and `record` as its acts;
* `Procedure.run` runs one from start to end over a backend;
* `run_pure` and `run_bind` say what a run does act by act.
-/

namespace ServiceRegistry

/-- One atomic act. -/
inductive Act
  | call (c : Call)
  /-- Say that a refresh is owed. -/
  | markOwed
  /-- Ask whether a refresh is owed, and say that none is. -/
  | consumeOwed
  | record (event : Event)

abbrev Act.Response : Act → Type
  | .call c => Reply c.method
  | .markOwed => Unit
  | .consumeOwed => Bool
  | .record _ => Unit

/-- Work on the catalog that ends with a value of `α`. -/
inductive Procedure (α : Type) : Type
  | done (value : α)
  | act (act : Act) (next : act.Response → Procedure α)

/-- What procedures work on: a store, the flag that a refresh is owed, and the events recorded. -/
structure World (σ : Type) where
  store : σ
  owed : Bool := false
  events : List Event := []

def World.perform (backend : Backend σ) (world : World σ) : (act : Act) → act.Response × World σ
  | .call c =>
    let (reply, store) := backend c world.store
    (reply, { world with store := store })
  | .markOwed => ((), { world with owed := true })
  | .consumeOwed => (world.owed, { world with owed := false })
  | .record event => ((), { world with events := world.events ++ [event] })

namespace Procedure

def andThen : Procedure α → (α → Procedure β) → Procedure β
  | done value, next => next value
  | act a rest, next => act a fun response => (rest response).andThen next

instance : Monad Procedure where
  pure := done
  bind := andThen

def call (c : Call) : Procedure (Reply c.method) := act (.call c) done

def markOwed : Procedure Unit := act .markOwed done

def consumeOwed : Procedure Bool := act .consumeOwed done

def record (event : Event) : Procedure Unit := act (.record event) done

def run (backend : Backend σ) : Procedure α → World σ → α × World σ
  | done value, world => (value, world)
  | act a next, world =>
    let (response, world) := world.perform backend a
    (next response).run backend world

@[simp] theorem run_pure (backend : Backend σ) (value : α) (world : World σ) :
    (pure value : Procedure α).run backend world = (value, world) := rfl

@[simp] theorem run_bind (backend : Backend σ) (p : Procedure α) (q : α → Procedure β)
    (world : World σ) :
    (p >>= q).run backend world =
      (q (p.run backend world).1).run backend (p.run backend world).2 := by
  induction p generalizing world with
  | done value => rfl
  | act a next ih => exact ih _ _

end Procedure

end ServiceRegistry
