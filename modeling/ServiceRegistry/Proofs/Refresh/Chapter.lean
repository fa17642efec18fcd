import Mathlib.Data.List.Induction
import ServiceRegistry.Event
import ServiceRegistry.Retry
import ServiceRegistry.Storage.Fault

/-!
# The chapters of an engine's log

What an engine records reads in chapters.  A sequence of attempts, at startup or on schedule, is a
chapter of the attempts that failed and of one event that closes it.  A refresh that was owed is a
chapter of a single attempt.

* `Chapter.events`, `Chapter.outcomes` and `Chapter.pauses`: what is recorded in a chapter, what the
  refreshes were that it reports, and which pauses were begun.
* `Chapter.reports`: the events of a chapter report its outcomes, one by one.
-/

namespace ServiceRegistry

/-- What an event says about one attempt, if it is about one attempt. -/
def Event.report? : Event → Option (RefreshOutcome × Option String)
  | .refresh _ _ .refreshed error => some (.refreshed, error)
  | .refresh _ _ .failed error => some (.failed, error)
  | _ => none

/-- What is to be said about an attempt of that outcome. -/
def reportOf : Except Fault Unit → RefreshOutcome × Option String
  | .ok () => (.refreshed, none)
  | .error fault => (.failed, some fault.message)

def Event.tellsExhaustion : Event → Bool
  | .refresh _ _ .exhausted _ => true
  | _ => false

namespace Refresh

/-- How a sequence of attempts closes. -/
inductive Closing
  | refreshed
  | exhausted
  | cancelled
deriving DecidableEq

inductive Chapter
  /-- A sequence of attempts with the faults of those that failed, open until it closes. -/
  | sequence (cause : RefreshCause) (faults : List Fault) (closing : Option Closing)
  /-- A refresh that was owed. -/
  | errand (outcome : Except Fault Unit)

/-- The events of the attempts that failed, counted from 1. -/
def failures (cause : RefreshCause) (faults : List Fault) : List Event :=
  faults.mapIdx fun i fault => .refresh cause (i + 1) .failed (some fault.message)

/-- The event that closes a sequence after the attempts that failed. -/
def Closing.event (budget : Nat) (cause : RefreshCause) (faults : List Fault) : Closing → Event
  | refreshed => .refresh cause (faults.length + 1) .refreshed none
  | exhausted => .refresh cause budget .exhausted (faults.getLast?.map Fault.message)
  | cancelled => .refresh cause budget .cancelled none

theorem failures_concat (cause : RefreshCause) (faults : List Fault) (fault : Fault) :
    failures cause (faults ++ [fault]) =
      failures cause faults ++ [.refresh cause (faults.length + 1) .failed (some fault.message)] :=
  List.mapIdx_concat

theorem exists_of_mem_failures {cause : RefreshCause} {faults : List Fault} {event : Event}
    (h : event ∈ failures cause faults) :
    ∃ attempt text, event = .refresh cause attempt .failed text := by
  obtain ⟨i, _, hevent⟩ := List.mem_mapIdx.mp h
  exact ⟨_, _, hevent.symm⟩

theorem reports_failures (cause : RefreshCause) (faults : List Fault) :
    (failures cause faults).filterMap Event.report? =
      (faults.map Except.error).map (reportOf : Except Fault Unit → _) := by
  induction faults using List.reverseRecOn with
  | nil => rfl
  | append_singleton faults fault ih =>
    rw [failures_concat, List.filterMap_append, ih, List.map_append, List.map_append]
    rfl

namespace Chapter

def cause : Chapter → RefreshCause
  | sequence cause _ _ => cause
  | errand _ => .dirty

def events (budget : Nat) : Chapter → List Event
  | sequence cause faults closing =>
    failures cause faults ++ (closing.map (Closing.event budget cause faults)).toList
  | errand (.ok ()) => [.refresh .dirty 1 .refreshed none]
  | errand (.error fault) => [.refresh .dirty 1 .failed (some fault.message)]

def outcomes : Chapter → List (Except Fault Unit)
  | sequence _ faults (some .refreshed) => faults.map Except.error ++ [.ok ()]
  | sequence _ faults _ => faults.map Except.error
  | errand outcome => [outcome]

/-- The pauses that are begun in a chapter, in milliseconds: one after every attempt that failed. -/
def pauses (policy : RetryPolicy) : Chapter → List Nat
  | sequence _ faults _ =>
    (List.range faults.length).map fun attempt => (policy.delayAfter attempt).timerMillis
  | errand _ => []

/-- Another chapter may follow. -/
def goesOn : Chapter → Bool
  | sequence _ _ (some .refreshed) => true
  | sequence .. => false
  | errand _ => true

def closed : Chapter → Bool
  | sequence _ _ closing => closing.isSome
  | errand _ => true

/-- The chapter keeps to the budget of attempts: it is exhausted only when they are used up, and
cancelled only if the engine has been asked to stop. -/
def Sound (budget : Nat) (asked : Bool) : Chapter → Prop
  | sequence cause faults closing =>
    cause ≠ .dirty ∧
      match closing with
      | none => faults.length ≤ budget
      | some .refreshed => faults.length < budget
      | some .exhausted => faults.length = budget
      | some .cancelled => faults.length ≤ budget ∧ asked = true
  | errand _ => True

theorem Sound.mono {budget : Nat} {asked later : Bool} {chapter : Chapter}
    (h : chapter.Sound budget asked) (hlater : asked = true → later = true) :
    chapter.Sound budget later := by
  cases chapter with
  | errand outcome => trivial
  | sequence cause faults closing =>
    refine ⟨h.1, ?_⟩
    match closing, h.2 with
    | none, hfaults => exact hfaults
    | some .refreshed, hfaults => exact hfaults
    | some .exhausted, hfaults => exact hfaults
    | some .cancelled, hfaults => exact ⟨hfaults.1, hlater hfaults.2⟩

/-- The events of a chapter report its outcomes, each in its place. -/
theorem reports (budget : Nat) (chapter : Chapter) :
    (chapter.events budget).filterMap Event.report? = chapter.outcomes.map reportOf := by
  match chapter with
  | errand (.ok ()) => rfl
  | errand (.error fault) => rfl
  | sequence cause faults none =>
    simp [events, outcomes, reports_failures]
  | sequence cause faults (some .refreshed) =>
    simp [events, outcomes, reports_failures, Closing.event, Event.report?, reportOf]
  | sequence cause faults (some .exhausted) =>
    simp [events, outcomes, reports_failures, Closing.event, Event.report?]
  | sequence cause faults (some .cancelled) =>
    simp [events, outcomes, reports_failures, Closing.event, Event.report?]

/-- A sequence of two attempts that is exhausted. -/
example :
    (sequence .scheduled [⟨.other, "full"⟩, ⟨.other, "gone"⟩] (some .exhausted)).events 2 =
      [.refresh .scheduled 1 .failed (some "catalog store error: full"),
        .refresh .scheduled 2 .failed (some "catalog store error: gone"),
        .refresh .scheduled 2 .exhausted (some "catalog store error: gone")] := by
  decide

theorem not_tellsExhaustion_of_mem_failures {cause : RefreshCause} {faults : List Fault}
    {event : Event} (h : event ∈ failures cause faults) : event.tellsExhaustion = false := by
  obtain ⟨attempt, text, rfl⟩ := exists_of_mem_failures h
  rfl

theorem closed_of_goesOn {chapter : Chapter} (h : chapter.goesOn = true) :
    chapter.closed = true := by
  match chapter with
  | sequence _ _ (some .refreshed) => rfl
  | errand _ => rfl

/-- Only a sequence that was exhausted tells of it. -/
theorem not_tellsExhaustion_of_mem {budget : Nat} {cause : RefreshCause} {faults : List Fault}
    {closing : Option Closing} {event : Event}
    (h : event ∈ (sequence cause faults closing).events budget)
    (hclosing : closing ≠ some .exhausted) : event.tellsExhaustion = false := by
  rcases List.mem_append.mp h with hfailed | hlast
  · exact not_tellsExhaustion_of_mem_failures hfailed
  · match closing with
    | none => cases hlast
    | some .refreshed =>
      rw [List.mem_singleton.mp hlast]
      rfl
    | some .exhausted => exact absurd rfl hclosing
    | some .cancelled =>
      rw [List.mem_singleton.mp hlast]
      rfl

theorem not_tellsExhaustion_of_goesOn {budget : Nat} {chapter : Chapter} {event : Event}
    (hgoes : chapter.goesOn = true) (h : event ∈ chapter.events budget) :
    event.tellsExhaustion = false := by
  match chapter with
  | errand (.ok ()) =>
    rw [List.mem_singleton.mp h]
    rfl
  | errand (.error fault) =>
    rw [List.mem_singleton.mp h]
    rfl
  | sequence cause faults (some .refreshed) => exact not_tellsExhaustion_of_mem h nofun

end Chapter

end Refresh

end ServiceRegistry
