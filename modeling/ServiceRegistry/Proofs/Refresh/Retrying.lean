import Mathlib.Data.List.Basic
import ServiceRegistry.Proofs.Refresh.Chapter
import ServiceRegistry.Proofs.Retry.Attempts

/-!
# Sequences of attempts are bounded retries

The engine makes the attempts of a sequence one step at a time, and leaves a sequence at once when it is
cancelled.  `RetryPolicy.attempt` makes them in one go: to it, an attempt after a request to stop is one
that fails without a refresh, and the pause after it is over at once.  A sequence that is closed is such
a run: the same refreshes, the same events, and the same pauses up to the stop.

* `attemptOutcome` is what the attempts of a sequence come to, and `runRefreshes` and `runEvents` what is
  refreshed and recorded in a run.
* `Chapter.Sound.retried`: every closed sequence within its budget is a run.
-/

namespace ServiceRegistry.Refresh

/-- Why an attempt came to nothing. -/
inductive AttemptFault
  /-- A stop had been requested, and no refresh was made. -/
  | cancelled
  | store (fault : Fault)

/-- What the attempts of a sequence come to whose first attempts made these refreshes. -/
def attemptOutcome (refreshes : List (Except Fault Unit)) (attempt : Nat) :
    Except AttemptFault Unit :=
  match refreshes[attempt]? with
  | some refresh => refresh.mapError .store
  | none => .error .cancelled

/-- The refresh that was made in an attempt. -/
def refresh? : Except AttemptFault Unit → Option (Except Fault Unit)
  | .ok () => some (.ok ())
  | .error (.store fault) => some (.error fault)
  | .error .cancelled => none

/-- What is recorded of an attempt, counted from 0. -/
def attemptEvent? (cause : RefreshCause) (attempt : Nat) : Except AttemptFault Unit → Option Event
  | .ok () => some (.refresh cause (attempt + 1) .refreshed none)
  | .error (.store fault) => some (.refresh cause (attempt + 1) .failed (some fault.message))
  | .error .cancelled => none

/-- What is recorded when the attempts are over, given whether a stop has been requested by then. -/
def endEvent? (cause : RefreshCause) (stopped : Bool) :
    Except (RetryExhausted AttemptFault) Unit → Option Event
  | .ok () => none
  | .error ⟨attempts, .store fault⟩ =>
    if stopped then some (.refresh cause attempts .cancelled none)
    else some (.refresh cause attempts .exhausted (some fault.message))
  | .error ⟨attempts, .cancelled⟩ => some (.refresh cause attempts .cancelled none)

section

variable (outcome : Nat → Except AttemptFault Unit) (run : RetryRun AttemptFault Unit)

def runRefreshes : List (Except Fault Unit) :=
  run.calls.filterMap fun attempt => refresh? (outcome attempt)

def runEvents (cause : RefreshCause) (stopped : Bool) : List Event :=
  (run.calls.filterMap fun attempt => attemptEvent? cause attempt (outcome attempt)) ++
    (endEvent? cause stopped run.result).toList

end

/-- A closed sequence is a run of bounded retries over what its attempts came to. -/
def Chapter.Retried (policy : RetryPolicy) : Chapter → Prop
  | sequence cause faults (some closing) =>
    let chapter := sequence cause faults (some closing)
    let outcome := attemptOutcome chapter.outcomes
    let run := policy.attempt outcome
    chapter.outcomes = runRefreshes outcome run ∧
      chapter.events policy.budget = runEvents outcome run cause (closing == .cancelled) ∧
      chapter.pauses policy = (run.pauses.take faults.length).map Span.timerMillis
  | _ => True

/-! ## What attempts come to -/

/-- Attempts that are cancelled tell of nothing. -/
theorem filterMap_attemptOutcome {β : Type} {tell : Nat → Except AttemptFault Unit → Option β}
    {told : Nat → Except Fault Unit → β}
    (hmade : ∀ attempt refresh, tell attempt (refresh.mapError .store) = some (told attempt refresh))
    (hcancelled : ∀ attempt, tell attempt (.error .cancelled) = none)
    {refreshes : List (Except Fault Unit)} {attempts : Nat} (hall : refreshes.length ≤ attempts) :
    (List.range attempts).filterMap (fun attempt => tell attempt (attemptOutcome refreshes attempt)) =
      refreshes.mapIdx told := by
  induction refreshes generalizing tell told attempts with
  | nil =>
    rw [List.mapIdx_nil, List.filterMap_eq_nil_iff]
    exact fun attempt _ => hcancelled attempt
  | cons refresh rest ih =>
    cases attempts with
    | zero => cases hall
    | succ attempts =>
      have hrest := ih (fun attempt => hmade (attempt + 1)) (fun attempt => hcancelled (attempt + 1))
        (Nat.le_of_succ_le_succ hall)
      let all (attempt : Nat) := tell attempt (attemptOutcome (refresh :: rest) attempt)
      have hfirst : all 0 = some (told 0 refresh) := hmade 0 refresh
      change (List.range (attempts + 1)).filterMap all = _
      rw [List.range_succ_eq_map, List.filterMap_cons_some hfirst, List.filterMap_map,
        List.mapIdx_cons, ← hrest]
      rfl

theorem runRefreshes_eq {refreshes : List (Except Fault Unit)} {run : RetryRun AttemptFault Unit}
    {attempts : Nat} (hcalls : run.calls = List.range attempts) (hall : refreshes.length ≤ attempts) :
    runRefreshes (attemptOutcome refreshes) run = refreshes := by
  have hmade (attempt : Nat) (refresh : Except Fault Unit) :
      refresh? (refresh.mapError .store) = some refresh := by
    cases refresh <;> rfl
  rw [runRefreshes, hcalls, filterMap_attemptOutcome hmade (fun _ => rfl) hall]
  exact List.ext_getElem List.length_mapIdx fun _ _ _ => List.getElem_mapIdx

theorem mapIdx_report (cause : RefreshCause) (faults : List Fault) :
    (faults.map Except.error).mapIdx (fun attempt (refresh : Except Fault Unit) =>
        Event.refresh cause (attempt + 1) (reportOf refresh).1 (reportOf refresh).2) =
      failures cause faults := by
  apply List.ext_getElem
  · simp [failures]
  · intro attempt _ _
    simp [failures, reportOf]

/-- What a run records of attempts that were not cancelled. -/
theorem attemptEvents_eq {refreshes : List (Except Fault Unit)} {attempts : Nat} (cause : RefreshCause)
    (hall : refreshes.length ≤ attempts) :
    (List.range attempts).filterMap
        (fun attempt => attemptEvent? cause attempt (attemptOutcome refreshes attempt)) =
      refreshes.mapIdx fun attempt refresh =>
        .refresh cause (attempt + 1) (reportOf refresh).1 (reportOf refresh).2 := by
  apply filterMap_attemptOutcome _ (fun _ => rfl) hall
  intro attempt refresh
  cases refresh <;> rfl

/-! ## Runs -/

/-- A run whose attempts fail until one succeeds. -/
theorem attempt_of_refreshed {policy : RetryPolicy} {faults : List Fault}
    (hleft : faults.length < policy.budget) :
    policy.attempt (attemptOutcome (faults.map Except.error ++ [.ok ()])) =
      ⟨.ok (), List.range (faults.length + 1), (List.range faults.length).map policy.delayAfter⟩ := by
  rw [List.range_eq_range', List.range_eq_range']
  apply policy.attemptFrom_of_ok (Nat.le_sub_one_of_lt hleft)
  · intro attempt hattempt
    refine ⟨.store faults[attempt], ?_⟩
    simp [attemptOutcome, List.getElem?_append_left, hattempt, Except.mapError]
  · simp [attemptOutcome, Except.mapError]

/-- A run none of whose attempts succeeds. -/
theorem attempt_of_faults (policy : RetryPolicy) (faults : List Fault) :
    ∃ last, attemptOutcome (faults.map Except.error) (policy.budget - 1) = .error last ∧
      policy.attempt (attemptOutcome (faults.map Except.error)) =
        ⟨.error ⟨policy.budget, last⟩, List.range policy.budget,
          (List.range policy.budget).map policy.delayAfter⟩ := by
  have hfailed (attempt : Nat) : ∃ e, attemptOutcome (faults.map Except.error) attempt = .error e := by
    rw [attemptOutcome, List.getElem?_map]
    cases faults[attempt]? with
    | none => exact ⟨_, rfl⟩
    | some fault => exact ⟨_, rfl⟩
  obtain ⟨last, hlast⟩ := hfailed (policy.budget - 1)
  have hpos : policy.budget - 1 + 1 = policy.budget := Nat.sub_add_cancel (Nat.le_max_right _ _)
  have hrun := policy.attemptFrom_of_failed (fun attempt _ => hfailed (0 + attempt))
    ((Nat.zero_add (policy.budget - 1)).symm ▸ hlast)
  rw [Nat.zero_add, hpos] at hrun
  rw [List.range_eq_range']
  exact ⟨last, hlast, hrun⟩

/-- The last attempt of a run that used up the budget. -/
theorem attemptOutcome_last {budget : Nat} {faults : List Fault} (hspent : faults.length = budget)
    {last : AttemptFault}
    (hlast : attemptOutcome (faults.map Except.error) (budget - 1) = .error last) (hbudget : 1 ≤ budget) :
    ∃ fault, faults.getLast? = some fault ∧ last = .store fault := by
  cases hend : faults.getLast? with
  | none =>
    rw [List.getLast?_eq_none_iff.mp hend] at hspent
    rw [← hspent] at hbudget
    cases hbudget
  | some fault =>
    rw [List.getLast?_eq_getElem?, hspent] at hend
    rw [attemptOutcome, List.getElem?_map, hend] at hlast
    exact ⟨fault, rfl, (Except.error.inj hlast).symm⟩

namespace Chapter

theorem pauses_eq_take {policy : RetryPolicy} {cause : RefreshCause} {faults : List Fault}
    {closing : Option Closing} {attempts : Nat} (hall : faults.length ≤ attempts) :
    (sequence cause faults closing).pauses policy =
      (((List.range attempts).map policy.delayAfter).take faults.length).map Span.timerMillis := by
  rw [← List.map_take, List.take_range, Nat.min_eq_left hall, List.map_map]
  rfl

/-- Every closed sequence within its budget is a run of bounded retries. -/
theorem Sound.retried {policy : RetryPolicy} {asked : Bool} {chapter : Chapter}
    (h : chapter.Sound policy.budget asked) : chapter.Retried policy := by
  have hbudget : 1 ≤ policy.budget := Nat.le_max_right _ _
  match chapter, h with
  | errand _, _ => trivial
  | sequence _ _ none, _ => trivial
  | sequence cause faults (some .refreshed), ⟨_, hleft⟩ =>
    have hrun := attempt_of_refreshed hleft
    have hall : (faults.map Except.error ++ [Except.ok ()]).length ≤ faults.length + 1 := by simp
    refine ⟨(runRefreshes_eq (congrArg RetryRun.calls hrun) hall).symm, ?_, ?_⟩
    · simp only [outcomes, runEvents, hrun, endEvent?, attemptEvents_eq cause hall, List.mapIdx_concat,
        mapIdx_report]
      simp [events, Closing.event, reportOf]
    · simp only [outcomes, hrun]
      exact pauses_eq_take (Nat.le_refl _)
  | sequence cause faults (some .exhausted), ⟨_, hspent⟩ =>
    obtain ⟨last, hlast, hrun⟩ := attempt_of_faults policy faults
    have hall : (faults.map (Except.error : Fault → Except Fault Unit)).length ≤ policy.budget := by
      simpa using Nat.le_of_eq hspent
    obtain ⟨fault, hend, rfl⟩ := attemptOutcome_last hspent hlast hbudget
    refine ⟨(runRefreshes_eq (congrArg RetryRun.calls hrun) hall).symm, ?_, ?_⟩
    · simp only [outcomes, runEvents, hrun, endEvent?, attemptEvents_eq cause hall, mapIdx_report]
      simp [events, Closing.event, hend]
    · simp only [outcomes, hrun]
      exact pauses_eq_take (Nat.le_of_eq hspent)
  | sequence cause faults (some .cancelled), ⟨_, hfaults, _⟩ =>
    obtain ⟨last, hlast, hrun⟩ := attempt_of_faults policy faults
    have hall : (faults.map (Except.error : Fault → Except Fault Unit)).length ≤ policy.budget := by
      simpa using hfaults
    refine ⟨(runRefreshes_eq (congrArg RetryRun.calls hrun) hall).symm, ?_, ?_⟩
    · simp only [outcomes, runEvents, hrun, endEvent?, attemptEvents_eq cause hall, mapIdx_report]
      cases last <;> simp [events, Closing.event]
    · simp only [outcomes, hrun]
      exact pauses_eq_take hfaults

end Chapter

end ServiceRegistry.Refresh
