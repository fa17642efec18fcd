import Mathlib.Algebra.Ring.Nat
import ServiceRegistry.Retry

/-!
# How pauses grow

The factor of a pause saturates at 32 bits, and the pause itself at the longest span.  Both together
give what unbounded arithmetic gives, cut off once at each end.

* `RetryPolicy.growth_eq_min`, `RetryPolicy.totalNanos_delayAfter`: the closed forms of the factor and
  of the pause.
* `RetryPolicy.delay_closed_form`: the pause after every attempt, and what follows for the attempts and
  policies next to it.
-/

namespace ServiceRegistry

namespace Span

/-- The seconds are a word, and the nanoseconds are less than a second. -/
structure WellFormed (span : Span) : Prop where
  secs : span.secs ≤ maxWord
  nanos : span.nanos < nanosPerSecond

theorem wellFormed_ofNanos (n : Nat) : (ofNanos n).WellFormed := by
  constructor
  · change min n maxNanos / nanosPerSecond ≤ maxWord
    unfold maxNanos nanosPerSecond
    omega
  · exact Nat.mod_lt _ (by decide)

theorem wellFormed_scale (span : Span) (factor : Nat) : (span.scale factor).WellFormed :=
  scale_eq_ofNanos span factor ▸ wellFormed_ofNanos _

end Span

namespace RetryPolicy

/-- The factor is a power of two, cut off at the largest number of 32 bits. -/
theorem growth_eq_min (attempt : Nat) : growth attempt = min (2 ^ attempt) (2 ^ 32 - 1) := by
  unfold growth
  split
  · rename_i hsmall
    have hpow : 2 ^ attempt ≤ 2 ^ 31 := Nat.pow_le_pow_right (by decide) (by omega)
    change 2 ^ attempt = _
    omega
  · rename_i hlarge
    have hpow : 2 ^ 32 ≤ 2 ^ attempt := Nat.pow_le_pow_right (by decide) (by omega)
    omega

theorem growth_mono {earlier later : Nat} (h : earlier ≤ later) : growth earlier ≤ growth later := by
  have hpow : 2 ^ earlier ≤ 2 ^ later := Nat.pow_le_pow_right (by decide) h
  rw [growth_eq_min, growth_eq_min]
  omega

/-- Up to the last power of two that has 32 bits, the factor doubles. -/
theorem growth_succ {attempt : Nat} (h : attempt < 31) : growth (attempt + 1) = 2 * growth attempt := by
  have hpow : 2 ^ (attempt + 1) ≤ 2 ^ 31 := Nat.pow_le_pow_right (by decide) h
  rw [growth_eq_min, growth_eq_min]
  rw [Nat.pow_succ] at hpow ⊢
  omega

theorem growth_of_le {attempt : Nat} (h : 32 ≤ attempt) : growth attempt = 2 ^ 32 - 1 := by
  have hpow : 2 ^ 32 ≤ 2 ^ attempt := Nat.pow_le_pow_right (by decide) h
  rw [growth_eq_min]
  omega

theorem totalNanos_delayAfter (policy : RetryPolicy) (attempt : Nat) :
    (policy.delayAfter attempt).totalNanos =
      min (policy.baseDelay.totalNanos * growth attempt) Span.maxNanos :=
  Span.totalNanos_scale _ _

/-- The pause after an attempt is a well-formed span of exactly as many nanoseconds as unbounded
arithmetic gives, the factor and the product each cut off once.  It is no shorter after a later attempt
or with a longer base, it doubles as long as the factor does, unless it has reached the longest span,
and from attempt 32 on it stays as it is. -/
theorem delay_closed_form (policy : RetryPolicy) (attempt : Nat) :
    (policy.delayAfter attempt).WellFormed ∧
    (policy.delayAfter attempt).totalNanos =
      min (policy.baseDelay.totalNanos * min (2 ^ attempt) (2 ^ 32 - 1)) Span.maxNanos ∧
    (∀ later, attempt ≤ later →
      (policy.delayAfter attempt).totalNanos ≤ (policy.delayAfter later).totalNanos) ∧
    (∀ other : RetryPolicy, policy.baseDelay.totalNanos ≤ other.baseDelay.totalNanos →
      (policy.delayAfter attempt).totalNanos ≤ (other.delayAfter attempt).totalNanos) ∧
    (attempt < 31 → (policy.delayAfter (attempt + 1)).totalNanos =
      min (2 * (policy.delayAfter attempt).totalNanos) Span.maxNanos) ∧
    (32 ≤ attempt → policy.delayAfter attempt = policy.delayAfter 32) := by
  refine ⟨Span.wellFormed_scale _ _, ?_, fun later hlater => ?_, fun other hbase => ?_,
    fun hattempt => ?_, fun hattempt => ?_⟩
  · rw [totalNanos_delayAfter, growth_eq_min]
  · have hfactor := Nat.mul_le_mul_left policy.baseDelay.totalNanos (growth_mono hlater)
    rw [totalNanos_delayAfter, totalNanos_delayAfter]
    omega
  · have hproduct := Nat.mul_le_mul_right (growth attempt) hbase
    rw [totalNanos_delayAfter, totalNanos_delayAfter]
    omega
  · have hdouble : policy.baseDelay.totalNanos * growth (attempt + 1) =
        2 * (policy.baseDelay.totalNanos * growth attempt) := by
      rw [growth_succ hattempt, Nat.mul_left_comm]
    rw [totalNanos_delayAfter, totalNanos_delayAfter, hdouble]
    omega
  · rw [delayAfter, delayAfter, growth_of_le hattempt, growth_of_le le_rfl]

/-- Half a second more than 2^33 seconds: the carry is right up to attempt 30, and the next pause would
be of 2^64 seconds and more. -/
theorem delay_closed_form_at_carry :
    let policy : RetryPolicy := ⟨5, ⟨8589934592, 500000000⟩⟩
    policy.delayAfter 30 = ⟨9223372037391646720, 0⟩ ∧ policy.delayAfter 31 = Span.longest ∧
      (policy.delayAfter 31).totalNanos =
        min (2 * (policy.delayAfter 30).totalNanos) Span.maxNanos ∧
      policy.delayAfter 4294967295 = policy.delayAfter 32 := by
  intro policy
  have hlate := (delay_closed_form policy 4294967295).2.2.2.2.2 (by decide)
  exact ⟨by decide, by decide, (delay_closed_form policy 30).2.2.2.2.1 (by decide), hlate⟩

end RetryPolicy

end ServiceRegistry
