import ServiceRegistry.Word

/-!
# Spans of time

A span counts whole seconds, at most `maxWord` of them, and the nanoseconds of a further second.
Operations that would leave this range stop at the longest span.

* `Span.ofNanos` takes a number of nanoseconds to a span, `Span.totalNanos` back; they are inverse
  up to saturation (`Span.totalNanos_ofNanos`).
* `Span.scale` multiplies by a whole factor, seconds and nanoseconds apart, as the exact product up to
  saturation (`Span.scale_eq_ofNanos`).
-/

namespace ServiceRegistry

/-- A span of time: seconds, and nanoseconds below a second. -/
structure Span where
  secs : Nat
  nanos : Nat
deriving DecidableEq, Repr, Inhabited

namespace Span

def nanosPerSecond : Nat := 1000000000

/-- The longest span in nanoseconds. -/
def maxNanos : Nat := maxWord * nanosPerSecond + 999999999

def longest : Span := ⟨maxWord, 999999999⟩

def totalNanos (span : Span) : Nat := span.secs * nanosPerSecond + span.nanos

/-- The span of that many nanoseconds, or the longest span. -/
def ofNanos (n : Nat) : Span :=
  let n := min n maxNanos
  ⟨n / nanosPerSecond, n % nanosPerSecond⟩

def ofMillis (n : Nat) : Span := ofNanos (n * 1000000)

def ofSecs (n : Nat) : Span := ofNanos (n * nanosPerSecond)

def millis (span : Span) : Nat := span.totalNanos / 1000000

/-- The milliseconds of a span as a timer counts them: a started millisecond is a whole one. -/
def timerMillis (span : Span) : Nat := (span.totalNanos + 999999) / 1000000

/-- A span taken `factor` times, or the longest span.  The whole seconds among the nanoseconds are
carried. -/
def scale (span : Span) (factor : Nat) : Span :=
  let nanos := span.nanos * factor
  let secs := span.secs * factor + nanos / nanosPerSecond
  if secs ≤ maxWord then ⟨secs, nanos % nanosPerSecond⟩ else longest

theorem totalNanos_ofNanos (n : Nat) : (ofNanos n).totalNanos = min n maxNanos := by
  simp only [ofNanos, totalNanos]
  exact Nat.div_add_mod' _ _

/-- Multiplying by parts loses nothing: the carry is right, and it leaves the words exactly when the
product does. -/
theorem scale_eq_ofNanos (span : Span) (factor : Nat) :
    span.scale factor = ofNanos (span.totalNanos * factor) := by
  have hproduct : span.totalNanos * factor =
      nanosPerSecond * (span.secs * factor) + span.nanos * factor := by
    rw [totalNanos, Nat.add_mul, Nat.mul_comm span.secs nanosPerSecond, Nat.mul_assoc]
  have hsecs : span.totalNanos * factor / nanosPerSecond =
      span.secs * factor + span.nanos * factor / nanosPerSecond := by
    rw [hproduct, Nat.mul_add_div (by decide)]
  have hnanos : span.totalNanos * factor % nanosPerSecond = span.nanos * factor % nanosPerSecond := by
    rw [hproduct, Nat.mul_add_mod]
  simp only [scale, ofNanos]
  rw [← hsecs, ← hnanos]
  split
  · rename_i hfits
    have hmin : min (span.totalNanos * factor) maxNanos = span.totalNanos * factor := by
      unfold maxNanos nanosPerSecond at *
      omega
    rw [hmin]
  · rename_i hlarge
    have hmin : min (span.totalNanos * factor) maxNanos = maxNanos := by
      unfold maxNanos nanosPerSecond at *
      omega
    rw [hmin]
    decide

theorem totalNanos_scale (span : Span) (factor : Nat) :
    (span.scale factor).totalNanos = min (span.totalNanos * factor) maxNanos := by
  rw [scale_eq_ofNanos, totalNanos_ofNanos]

end Span

end ServiceRegistry
