import ServiceRegistry.Proofs.Refresh.Course

/-!
# What an engine refreshes and records

The refreshes that an engine makes along a course, each with its instant and its outcome, the events
that it records, and the pauses that it begins.  Others may call the same store and record events in the
same log; what they do is not counted here.

* `Procedure.refreshes_of_calls`: a procedure that makes one call, a refresh, has its reply as its
  only outcome.
* `Timeline.step_told`: a step is a `Phase.Move` that tells what is refreshed and recorded in it.
* `Timeline.recorded_sublist_log`: what the engine records is in the log of the timeline.
-/

namespace ServiceRegistry

variable {σ α : Type}

/-- The outcome of an act that is a refresh. -/
def Act.outcome? : (act : Act) → act.Response → Option (Except Fault Unit)
  | .call .refreshView, reply => some reply
  | _, _ => none

def Act.event? : Act → Option Event
  | .record event => some event
  | _ => none

namespace Procedure

/-- The outcomes of the refreshes that a procedure makes when it is run from start to end. -/
def refreshes (backend : Backend σ) : Procedure α → World σ → List (Except Fault Unit)
  | done _, _ => []
  | act a next, world =>
    let (response, after) := world.perform backend a
    (a.outcome? response).toList ++ (next response).refreshes backend after

/-- The events that a procedure records when it is run from start to end. -/
def recorded (backend : Backend σ) : Procedure α → World σ → List Event
  | done _, _ => []
  | act a next, world =>
    let (response, after) := world.perform backend a
    a.event?.toList ++ (next response).recorded backend after

variable {backend : Backend σ}

theorem events_run (p : Procedure α) (world : World σ) :
    (p.run backend world).2.events = world.events ++ p.recorded backend world := by
  induction p generalizing world with
  | done value => exact (List.append_nil _).symm
  | act a next ih =>
    have hfirst : (world.perform backend a).2.events = world.events ++ a.event?.toList := by
      cases a with
      | record event => rfl
      | _ => exact (List.append_nil _).symm
    calc ((act a next).run backend world).2.events
      _ = (world.perform backend a).2.events ++ (next _).recorded backend _ := ih _ _
      _ = world.events ++ (act a next).recorded backend world := by
        rw [hfirst, List.append_assoc]
        rfl

theorem refreshes_of_no_calls {p : Procedure α} {world : World σ} (h : p.calls backend world = []) :
    p.refreshes backend world = [] := by
  induction p generalizing world with
  | done value => rfl
  | act a next ih =>
    obtain ⟨hfirst, hrest⟩ := List.append_eq_nil_iff.mp h
    cases a with
    | call call => cases hfirst
    | _ => exact ih _ hrest

/-- Where the only call is a refresh, its reply is the only outcome. -/
theorem refreshes_of_calls {p : Procedure α} {world : World σ}
    (h : p.calls backend world = [.refreshView]) :
    p.refreshes backend world = [(backend .refreshView world.store).1] := by
  induction p generalizing world with
  | done value => cases h
  | act a next ih =>
    cases a with
    | call call =>
      obtain ⟨rfl, hrest⟩ := List.cons.inj h
      exact congrArg (_ :: ·) (refreshes_of_no_calls hrest)
    | markOwed => exact ih _ h
    | consumeOwed => exact ih _ h
    | record event => exact ih _ h

end Procedure

namespace Refresh

/-- The pause that begins with a step from one phase to another. -/
def Phase.pauseBegun? (now : Nat) : Phase → Phase → Option Nat
  | refreshing .., pausing _ _ _ until_ => some (until_ - now)
  | _, _ => none

theorem Phase.pauseBegun?_self (now : Nat) (phase : Phase) : phase.pauseBegun? now phase = none := by
  cases phase <;> rfl

theorem Phase.pauseBegun?_carryOn (plan : Plan) (now : Nat) (phase : Phase) (purpose : Purpose) :
    phase.pauseBegun? now (carryOn plan now purpose) = none := by
  rcases carryOn_cases plan now purpose with ⟨timers, hwaits⟩ | ⟨-, -, hends⟩
  · rw [hwaits]
    cases phase <;> rfl
  · rw [hends]
    cases phase <;> rfl

namespace Timeline

/-! ## Along a course -/

/-- The refreshes that the engine makes, with their instants and outcomes. -/
def refreshesAt (t : Timeline σ) : Happening σ → List (Nat × Except Fault Unit)
  | .step backend =>
    ((t.phase.step t.plan t.now t.stopSeen).refreshes backend t.world).map (t.now, ·)
  | _ => []

def refreshes (t : Timeline σ) : List (Happening σ) → List (Nat × Except Fault Unit)
  | [] => []
  | happening :: rest => t.refreshesAt happening ++ (t.happen happening).refreshes rest

/-- The events that the engine records, and not others. -/
def recordedAt (t : Timeline σ) : Happening σ → List Event
  | .step backend => (t.phase.step t.plan t.now t.stopSeen).recorded backend t.world
  | _ => []

def recorded (t : Timeline σ) : List (Happening σ) → List Event
  | [] => []
  | happening :: rest => t.recordedAt happening ++ (t.happen happening).recorded rest

/-- The pauses that the engine begins, in milliseconds. -/
def pausesAt (t : Timeline σ) : Happening σ → List Nat
  | .step backend => (t.phase.pauseBegun? t.now (t.step backend).phase).toList
  | _ => []

def pauses (t : Timeline σ) : List (Happening σ) → List Nat
  | [] => []
  | happening :: rest => t.pausesAt happening ++ (t.happen happening).pauses rest

variable {backend : Backend σ} {t : Timeline σ}

/-- What a step between two worlds told: the events that it recorded, and the outcomes of its calls. -/
structure Told (backend : Backend σ) (world after : World σ) (calls : List Call)
    (recorded : List Event) (outcomes : List (Except Fault Unit)) : Prop where
  events : after.events = world.events ++ recorded
  quiet : calls = [] → outcomes = []
  called : calls = [.refreshView] → outcomes = [(backend .refreshView world.store).1]

namespace Told

variable {world after : World σ} {recorded : List Event} {outcomes : List (Except Fault Unit)}

theorem silent (h : Told backend world after [] recorded outcomes)
    (hevents : after.events = world.events) : recorded = [] ∧ outcomes = [] := by
  have hrecorded := h.events
  rw [hevents, List.self_eq_append_right] at hrecorded
  exact ⟨hrecorded, h.quiet rfl⟩

theorem noted {event : Event} (h : Told backend world after [] recorded outcomes)
    (hevents : after.events = world.events ++ [event]) : recorded = [event] ∧ outcomes = [] := by
  have hrecorded := h.events
  rw [hevents, List.append_cancel_left_eq] at hrecorded
  exact ⟨hrecorded.symm, h.quiet rfl⟩

theorem answered {event : Event} {reply : Except Fault Unit} {store : σ}
    (h : Told backend world after [.refreshView] recorded outcomes)
    (hreply : backend .refreshView world.store = (reply, store))
    (hevents : after.events = world.events ++ [event]) : recorded = [event] ∧ outcomes = [reply] := by
  have hrecorded := h.events
  have houtcomes := h.called rfl
  rw [hevents, List.append_cancel_left_eq] at hrecorded
  rw [hreply] at houtcomes
  exact ⟨hrecorded.symm, houtcomes⟩

end Told

/-- Every step of a timeline is a `Phase.Move` that tells what the timeline refreshes and records. -/
theorem step_told (t : Timeline σ) (backend : Backend σ) :
    ∃ next world outcomes, Phase.Move backend t.plan t.now t.stopSeen t.phase t.world
        (t.callsAt (.step backend)) (next, world) ∧
      Told backend t.world world (t.callsAt (.step backend)) (t.recordedAt (.step backend))
        outcomes ∧
      t.refreshesAt (.step backend) = outcomes.map (t.now, ·) ∧ (t.step backend).phase = next :=
  ⟨_, _, _, t.phase.move_step, ⟨Procedure.events_run _ _, Procedure.refreshes_of_no_calls,
    Procedure.refreshes_of_calls⟩, rfl, rfl⟩

theorem refreshesAt_eq_nil {happening : Happening σ} (h : happening.isStep = false) :
    t.refreshesAt happening = [] := by
  cases happening with
  | step backend => cases h
  | _ => rfl

theorem recordedAt_eq_nil {happening : Happening σ} (h : happening.isStep = false) :
    t.recordedAt happening = [] := by
  cases happening with
  | step backend => cases h
  | _ => rfl

theorem pausesAt_eq_nil {happening : Happening σ} (h : happening.isStep = false) :
    t.pausesAt happening = [] := by
  cases happening with
  | step backend => cases h
  | _ => rfl

theorem log_happen (happening : Happening σ) :
    (t.log.toList.map Prod.snd ++ t.recordedAt happening).Sublist
      ((t.happen happening).log.toList.map Prod.snd) := by
  cases happening with
  | step backend =>
    change List.Sublist _ ((t.perform backend _).2.log.toList.map Prod.snd)
    rw [log_perform, Procedure.events_run]
    simp [recordedAt, Function.comp_def]
  | elsewhere backend work =>
    change List.Sublist _ ((t.perform backend work).2.log.toList.map Prod.snd)
    rw [log_perform]
    simp [recordedAt]
  | time instant =>
    obtain ⟨now, hpass⟩ := t.pass_eq instant
    rw [happen, hpass]
    simp [recordedAt]
  | stop request => cases request <;> simp [recordedAt, happen, ask, pull, dropTrigger]

/-- What the engine records is in the log, in this order, among what others record. -/
theorem recorded_sublist_log (t : Timeline σ) (course : List (Happening σ)) :
    (t.log.toList.map Prod.snd ++ t.recorded course).Sublist
      ((t.after course).log.toList.map Prod.snd) := by
  induction course generalizing t with
  | nil => simp [recorded, after]
  | cons happening rest ih =>
    rw [recorded, ← List.append_assoc]
    exact ((log_happen happening).append_right _).trans (ih (t.happen happening))

end Timeline

end Refresh

end ServiceRegistry
