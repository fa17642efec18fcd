import ServiceRegistry.Storage.Call

/-!
# Stores with scripted replies

For rehearsals a store can be interposed: the calls made on it are logged, and replies queued for a
method answer the next calls of this method in place of the store, which then does not see them.
-/

namespace ServiceRegistry

/-- A reply that answers one future call of its method. -/
structure ScriptedReply where
  method : Method
  reply : Reply method

/-- A store behind a log of calls and a queue of scripted replies. -/
structure Interposed (σ : Type) where
  inner : σ
  script : List ScriptedReply := []
  calls : List Call := []

namespace Interposed

/-- The first queued reply for a method, and the queue without it. -/
def takeReply (method : Method) : List ScriptedReply → Option (Reply method × List ScriptedReply)
  | [] => none
  | scripted :: rest =>
    if h : scripted.method = method then some (h ▸ scripted.reply, rest)
    else (takeReply method rest).map fun (reply, rest) => (reply, scripted :: rest)

/-- Queues a reply for the next `count` calls of a method. -/
def queue (store : Interposed σ) (method : Method) (reply : Reply method) (count : Nat) :
    Interposed σ :=
  { store with script := store.script ++ List.replicate count ⟨method, reply⟩ }

/-- The answer to a call: a scripted reply if one is queued, else the store's own. -/
def answer (backend : Backend σ) : Backend (Interposed σ) := fun call store =>
  let logged := { store with calls := store.calls ++ [call] }
  match takeReply call.method store.script with
  | some (reply, script) => (reply, { logged with script := script })
  | none =>
    let (reply, inner) := backend call store.inner
    (reply, { logged with inner := inner })

/-- An answer of which the log takes no notice. -/
def answerUnlogged (backend : Backend σ) : Backend (Interposed σ) := fun call store =>
  let (reply, after) := answer backend call store
  (reply, { after with calls := store.calls })

end Interposed

end ServiceRegistry
