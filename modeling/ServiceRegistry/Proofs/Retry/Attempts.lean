import Mathlib.Data.List.Basic
import Mathlib.Logic.Function.Iterate
import ServiceRegistry.Retry

/-!
# What a sequence of attempts does

The attempts are numbered from 0 and made in order.  The first that succeeds ends them, and so does the
last of the budget; a pause follows every one that failed.

* `RetryPolicy.attemptFrom_of_ok`, `RetryPolicy.attemptFrom_of_failed`: the attempts from one on.
* `RetryPolicy.step` is one turn of the loop that makes them, its counter in a word of 32 bits, and
  `RetryPolicy.step_attemptFrom` says that it makes the same attempts and never leaves the word.
* `RetryPolicy.attempt_follows_policy`: whole sequences.
-/

namespace ServiceRegistry.RetryPolicy

variable {ε α : Type}

/-! ## The attempts from one on -/

/-- An attempt that succeeds after others that failed. -/
theorem attemptFrom_of_ok (policy : RetryPolicy) {outcome : Nat → Except ε α} {attempt k remaining : Nat}
    {value : α} (hk : k ≤ remaining) (hfailed : ∀ j < k, ∃ e, outcome (attempt + j) = .error e)
    (hok : outcome (attempt + k) = .ok value) :
    policy.attemptFrom outcome attempt remaining =
      ⟨.ok value, List.range' attempt (k + 1), (List.range' attempt k).map policy.delayAfter⟩ := by
  induction k generalizing attempt remaining with
  | zero => cases remaining <;> simp [attemptFrom, show outcome attempt = .ok value from hok]
  | succ k ih =>
    obtain ⟨e, he⟩ := hfailed 0 (Nat.succ_pos k)
    cases remaining with
    | zero => omega
    | succ remaining =>
      have hlater : ∀ j < k, ∃ e, outcome (attempt + 1 + j) = .error e := by
        intro j hj
        rw [Nat.add_assoc, Nat.add_comm 1 j]
        exact hfailed (j + 1) (Nat.succ_lt_succ hj)
      have hok' : outcome (attempt + 1 + k) = .ok value := by
        rw [Nat.add_assoc, Nat.add_comm 1 k]
        exact hok
      have hrest := ih (Nat.le_of_succ_le_succ hk) hlater hok'
      rw [attemptFrom, show outcome attempt = .error e from he]
      simp only [hrest, List.range'_succ, List.map_cons]

/-- No attempt succeeds. -/
theorem attemptFrom_of_failed (policy : RetryPolicy) {outcome : Nat → Except ε α}
    {attempt remaining : Nat} {last : ε} (hfailed : ∀ j < remaining, ∃ e, outcome (attempt + j) = .error e)
    (hlast : outcome (attempt + remaining) = .error last) :
    policy.attemptFrom outcome attempt remaining =
      ⟨.error ⟨attempt + remaining + 1, last⟩, List.range' attempt (remaining + 1),
        (List.range' attempt (remaining + 1)).map policy.delayAfter⟩ := by
  induction remaining generalizing attempt with
  | zero => simp [attemptFrom, show outcome attempt = .error last from hlast]
  | succ remaining ih =>
    obtain ⟨e, he⟩ := hfailed 0 (Nat.succ_pos remaining)
    have hnext : attempt + 1 + remaining = attempt + (remaining + 1) := by omega
    have hlater : ∀ j < remaining, ∃ e, outcome (attempt + 1 + j) = .error e := by
      intro j hj
      rw [Nat.add_assoc, Nat.add_comm 1 j]
      exact hfailed (j + 1) (Nat.succ_lt_succ hj)
    have hrest := ih hlater (hnext ▸ hlast)
    rw [attemptFrom, show outcome attempt = .error e from he]
    simp only [hrest, hnext, List.range'_succ, List.map_cons]

/-! ## The counter as a word of 32 bits -/

/-- Where a sequence stands whose attempts are counted in a word of 32 bits. -/
inductive Stage (ε α : Type)
  /-- An attempt is due after these calls and pauses. -/
  | due (counter : UInt32) (calls : List Nat) (pauses : List Span)
  | ended (run : RetryRun ε α)
  /-- The counter has left its word. -/
  | overflowed

/-- One turn of the loop: the attempt, the pause if it fails, and the look at the budget. -/
def step (policy : RetryPolicy) (outcome : Nat → Except ε α) : Stage ε α → Stage ε α
  | .due counter calls pauses =>
    let calls := calls ++ [counter.toNat]
    match outcome counter.toNat with
    | .ok value => .ended ⟨.ok value, calls, pauses⟩
    | .error e =>
      let pauses := pauses ++ [policy.delayAfter counter.toNat]
      if counter.toNat + 1 = UInt32.size then .overflowed
      else if policy.budget ≤ (counter + 1).toNat then
        .ended ⟨.error ⟨(counter + 1).toNat, e⟩, calls, pauses⟩
      else .due (counter + 1) calls pauses
  | stage => stage

theorem toNat_next {counter : UInt32} (h : counter.toNat + 1 < UInt32.size) :
    (counter + 1).toNat = counter.toNat + 1 := by
  rw [UInt32.toNat_add]
  exact Nat.mod_eq_of_lt h

/-- The loop makes the attempts that are left, in as many turns, and its counter stays in the word. -/
theorem step_attemptFrom {policy : RetryPolicy} (hbudget : policy.budget < UInt32.size)
    (outcome : Nat → Except ε α) {remaining : Nat} {counter : UInt32}
    (hleft : counter.toNat + remaining + 1 = policy.budget) (calls : List Nat) (pauses : List Span) :
    let run := policy.attemptFrom outcome counter.toNat remaining
    (policy.step outcome)^[run.calls.length] (.due counter calls pauses) =
      .ended ⟨run.result, calls ++ run.calls, pauses ++ run.pauses⟩ := by
  have hword : counter.toNat + 1 < UInt32.size := by omega
  have hne : counter.toNat + 1 ≠ UInt32.size := by omega
  have hnext := toNat_next hword
  induction remaining generalizing counter calls pauses with
  | zero =>
    have hspent : policy.budget ≤ counter.toNat + 1 := by omega
    cases hout : outcome counter.toNat with
    | ok value => simp [attemptFrom, step, hout]
    | error e => simp [attemptFrom, step, hout, hne, hspent, hnext]
  | succ remaining ih =>
    have hopen : ¬ policy.budget ≤ (counter + 1).toNat := by omega
    cases hout : outcome counter.toNat with
    | ok value => simp [attemptFrom, step, hout]
    | error e =>
      have hword' : (counter + 1).toNat + 1 < UInt32.size := by omega
      have hrest := ih (by omega) (calls ++ [counter.toNat])
        (pauses ++ [policy.delayAfter counter.toNat]) hword' (by omega) (toNat_next hword')
      have hturn : policy.step outcome (.due counter calls pauses) =
          .due (counter + 1) (calls ++ [counter.toNat])
            (pauses ++ [policy.delayAfter counter.toNat]) := by
        simp only [step, hout, if_neg hne, if_neg hopen]
      rw [hnext] at hrest
      simp only [attemptFrom, hout, List.length_cons, Function.iterate_succ_apply, hturn]
      simpa using hrest

/-! ## Whole sequences -/

/-- A sequence ends with its first success, or with the last attempt of the budget if there is none.  It
makes all attempts up to that one, in order, and pauses after every one that failed, the last of the
budget too.  The loop that counts the attempts in 32 bits does this in as many turns. -/
theorem attempt_follows_policy (policy : RetryPolicy) (hattempts : policy.attempts < UInt32.size)
    (outcome : Nat → Except ε α) :
    let n := max policy.attempts 1
    let run := policy.attempt outcome
    (∀ k < n, ∀ value, outcome k = .ok value → (∀ j < k, ∃ e, outcome j = .error e) →
      run = ⟨.ok value, List.range (k + 1), (List.range k).map policy.delayAfter⟩) ∧
    ((∀ j < n, ∃ e, outcome j = .error e) → ∃ last, outcome (n - 1) = .error last ∧
      run = ⟨.error ⟨n, last⟩, List.range n, (List.range n).map policy.delayAfter⟩) ∧
    (policy.step outcome)^[run.calls.length] (.due 0 [] []) = .ended run := by
  intro n run
  have hpos : n - 1 + 1 = n := by omega
  have hbudget : policy.budget = n := rfl
  refine ⟨fun k hk value hok hfailed => ?_, fun hfailed => ?_, ?_⟩
  · have hearlier : ∀ j < k, ∃ e, outcome (0 + j) = .error e := by simpa using hfailed
    rw [List.range_eq_range', List.range_eq_range']
    exact policy.attemptFrom_of_ok (by omega) hearlier ((Nat.zero_add k).symm ▸ hok)
  · obtain ⟨last, hlast⟩ := hfailed (n - 1) (by omega)
    have hearlier : ∀ j < n - 1, ∃ e, outcome (0 + j) = .error e := by
      intro j hj
      rw [Nat.zero_add]
      exact hfailed j (by omega)
    have hrun := policy.attemptFrom_of_failed hearlier ((Nat.zero_add (n - 1)).symm ▸ hlast)
    rw [Nat.zero_add, hpos, ← List.range_eq_range'] at hrun
    exact ⟨last, hlast, hrun⟩
  · have hone : 1 < UInt32.size := by decide
    have hleft : (0 : UInt32).toNat + (policy.budget - 1) + 1 = policy.budget := by
      rw [UInt32.toNat_zero]
      omega
    exact step_attemptFrom (by omega) outcome hleft [] []

/-- Two failures and a success under the largest budget that a word of 32 bits holds. -/
theorem attempt_follows_policy_at_largest_budget :
    let policy : RetryPolicy := ⟨4294967295, .ofSecs 1⟩
    let outcome : Nat → Except String Nat := fun k => if k < 2 then .error "down" else .ok k
    policy.attempts < UInt32.size ∧
      policy.attempt outcome = ⟨.ok 2, [0, 1, 2], [.ofSecs 1, .ofSecs 2]⟩ ∧
      (policy.step outcome)^[(policy.attempt outcome).calls.length] (.due 0 [] []) =
        .ended (policy.attempt outcome) := by
  intro policy outcome
  have hattempts : policy.attempts < UInt32.size := by decide
  have hfailed : ∀ j < 2, ∃ e, outcome j = .error e := fun j hj => ⟨"down", if_pos hj⟩
  have hpolicy := attempt_follows_policy policy hattempts outcome
  refine ⟨hattempts, ?_, hpolicy.2.2⟩
  have hrun := hpolicy.1 2 (by decide) 2 rfl hfailed
  have hpauses : (List.range 2).map policy.delayAfter = [.ofSecs 1, .ofSecs 2] := by decide
  rw [hrun, hpauses]
  rfl

end ServiceRegistry.RetryPolicy
