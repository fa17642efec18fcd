import ServiceRegistry.Timing.Span

/-!
# Tickers

A ticker is due at a deadline and then once every period.  A tick that is handled on time, or at
most `Ticker.grace` milliseconds late, keeps the cadence; a later one moves it, and the next tick
is one period after the instant at which this one was handled.

A clock may have a last instant.  A ticker whose first deadline would be after it cannot be started
(`Ticker.fits`).  A tick that is put off past it would have to be handled in the second half of the
clock's range, and is not held against it.
-/

namespace ServiceRegistry

/-- A periodic timer, in milliseconds of the timer clock. -/
structure Ticker where
  period : Nat
  deadline : Nat
deriving DecidableEq, Repr, Inhabited

namespace Ticker

/-- How late a tick may be handled without moving the cadence. -/
def grace : Nat := 5

/-- Whether a clock that ends with the nanosecond `last` reaches one period past an instant. -/
def fits (period : Span) (now last : Nat) : Bool :=
  now * 1000000 + max period.totalNanos 1000000 ≤ last

theorem fits_of_le {period : Span} {now later last : Nat} (hle : now ≤ later)
    (h : fits period later last = true) : fits period now last = true := by
  unfold fits at h ⊢
  rw [decide_eq_true_eq] at h ⊢
  exact Nat.le_trans (Nat.add_le_add_right (Nat.mul_le_mul_right _ hle) _) h

/-- A ticker first due one period from now; a period is at least one millisecond. -/
def start (period now : Nat) : Ticker := ⟨max period 1, now + max period 1⟩

def due (ticker : Ticker) (now : Nat) : Bool := ticker.deadline ≤ now

def handled (ticker : Ticker) (now : Nat) : Ticker :=
  if ticker.deadline + grace < now then { ticker with deadline := now + ticker.period }
  else { ticker with deadline := ticker.deadline + ticker.period }

end Ticker

end ServiceRegistry
