import ServiceRegistry.Timing.Span

/-!
# Bounded retries

An action that may fail is tried a bounded number of times.  Every failed attempt, the last one
too, is followed by a pause that doubles from one attempt to the next.

* `RetryPolicy.delayAfter` is the pause after an attempt, counted from 0.
* `RetryPolicy.attempt` runs the attempts over a function that gives each attempt's outcome, and
  keeps account of the calls and pauses made.
-/

namespace ServiceRegistry

/-- How often an action is tried, and the pause after its first failure. -/
structure RetryPolicy where
  attempts : Nat := 3
  baseDelay : Span := .ofSecs 1
deriving DecidableEq, Repr, Inhabited

/-- All attempts of a retry sequence failed. -/
structure RetryExhausted (ε : Type) where
  attempts : Nat
  lastError : ε
deriving DecidableEq, Repr

def RetryExhausted.message (e : RetryExhausted String) : String :=
  "gave up after " ++ toString e.attempts ++ " attempts: " ++ e.lastError

/-- What a retry sequence did: its result, the attempts made and the pauses between them. -/
structure RetryRun (ε α : Type) where
  result : Except (RetryExhausted ε) α
  calls : List Nat
  pauses : List Span

namespace RetryPolicy

/-- Attempts are at least one. -/
def budget (policy : RetryPolicy) : Nat := max policy.attempts 1

/-- The factor by which the pause has grown after an attempt: a power of two, as long as it is a
number of 32 bits. -/
def growth (attempt : Nat) : Nat := if attempt < 32 then Nat.pow 2 attempt else 4294967295

/-- The pause after a failed attempt, counted from 0. -/
def delayAfter (policy : RetryPolicy) (attempt : Nat) : Span :=
  policy.baseDelay.scale (growth attempt)

/-- The attempts from number `attempt` on, `remaining` of them after this one. -/
def attemptFrom (policy : RetryPolicy) (outcome : Nat → Except ε α) (attempt : Nat) :
    (remaining : Nat) → RetryRun ε α
  | 0 =>
    match outcome attempt with
    | .ok value => ⟨.ok value, [attempt], []⟩
    | .error e => ⟨.error ⟨attempt + 1, e⟩, [attempt], [policy.delayAfter attempt]⟩
  | remaining + 1 =>
    match outcome attempt with
    | .ok value => ⟨.ok value, [attempt], []⟩
    | .error _ =>
      let rest := attemptFrom policy outcome (attempt + 1) remaining
      ⟨rest.result, attempt :: rest.calls, policy.delayAfter attempt :: rest.pauses⟩

/-- Tries an action within the budget; `outcome k` is what attempt `k` gives. -/
def attempt (policy : RetryPolicy) (outcome : Nat → Except ε α) : RetryRun ε α :=
  policy.attemptFrom outcome 0 (policy.budget - 1)

end RetryPolicy

end ServiceRegistry
