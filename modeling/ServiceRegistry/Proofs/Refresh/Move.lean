import ServiceRegistry.Refresh.Engine

/-!
# What a step of the engine does

`Phase.Move` lists the steps of the refresh engine, one constructor for each way in which it can go on
from a phase: the calls that the step makes on the store, the phase that it leads to and the world
after it.  `Phase.move_step` says that the list is complete, so what holds of the engine at every step
is proved by cases on `Phase.Move` and not by opening the engine.
-/

namespace ServiceRegistry

variable {σ α : Type}

def Act.call? : Act → Option Call
  | .call c => some c
  | _ => none

/-- The calls that a procedure makes when it is run from start to end. -/
def Procedure.calls (backend : Backend σ) : Procedure α → World σ → List Call
  | done _, _ => []
  | act a next, world =>
    let (response, after) := world.perform backend a
    a.call?.toList ++ (next response).calls backend after

theorem Procedure.calls_call {backend : Backend σ} {c : Call} {next : Reply c.method → Procedure α}
    {world : World σ} {reply : Reply c.method} {store : σ}
    (h : backend c world.store = (reply, store)) :
    (Procedure.act (.call c) next).calls backend world =
      c :: (next reply).calls backend { world with store := store } := by
  change c :: (next (backend c world.store).1).calls backend
    { world with store := (backend c world.store).2 } = _
  rw [h]

theorem Procedure.run_call {backend : Backend σ} {c : Call} {next : Reply c.method → Procedure α}
    {world : World σ} {reply : Reply c.method} {store : σ}
    (h : backend c world.store = (reply, store)) :
    (Procedure.act (.call c) next).run backend world =
      (next reply).run backend { world with store := store } := by
  change (next (backend c world.store).1).run backend
    { world with store := (backend c world.store).2 } = _
  rw [h]

def World.note (world : World σ) (event : Event) : World σ :=
  { world with events := world.events ++ [event] }

namespace Refresh

/-! ### How far the clock goes -/

theorem Plan.fits_of_le {plan : Plan} {now later : Nat} (hle : now ≤ later)
    (h : plan.fits later = true) : plan.fits now = true := by
  unfold fits at h ⊢
  cases hend : plan.clockEnd with
  | none => rfl
  | some last =>
    rw [hend, Option.all_some, Bool.and_eq_true_iff] at h
    rw [Option.all_some, Bool.and_eq_true_iff]
    exact ⟨Ticker.fits_of_le hle h.1, Ticker.fits_of_le hle h.2⟩

/-- Where the clock ends too early for tickers, it does for tickers that are started later. -/
theorem Plan.fits_eq_false_of_le {plan : Plan} {now later : Nat} (hle : now ≤ later)
    (h : plan.fits now = false) : plan.fits later = false :=
  Bool.eq_false_iff.mpr fun hfits => ne_true_of_eq_false h (fits_of_le hle hfits)

theorem Plan.fits_of_endless {plan : Plan} (h : plan.clockEnd = none) (now : Nat) :
    plan.fits now = true := by
  rw [fits, h]
  rfl

namespace Phase

section

variable (backend : Backend σ) (plan : Plan) (now : Nat) (stop : Bool)

inductive Move : Phase → World σ → List Call → Phase × World σ → Prop
  /-- Not ready. -/
  | still {phase : Phase} {world : World σ} (hready : phase.ready now stop = false) :
      Move phase world [] (phase, world)
  /-- A stop is seen before an attempt. -/
  | cancelled {purpose : Purpose} {attempt : Nat} {world : World σ} (hstop : stop = true) :
      Move (attempting purpose attempt) world []
        (carryOn plan now purpose,
          world.note (.refresh purpose.cause plan.retry.budget .cancelled none))
  | begun {purpose : Purpose} {attempt : Nat} {world : World σ} (hstop : stop = false) :
      Move (attempting purpose attempt) world [] (refreshing purpose attempt, world)
  | refreshed {purpose : Purpose} {attempt : Nat} {world : World σ} {store : σ}
      (hreply : backend .refreshView world.store = (.ok (), store)) :
      Move (refreshing purpose attempt) world [.refreshView]
        (carryOn plan now purpose,
          { world with store := store }.note
            (.refresh purpose.cause (attempt + 1) .refreshed none))
  | failed {purpose : Purpose} {attempt : Nat} {world : World σ} {store : σ} {fault : Fault}
      (hreply : backend .refreshView world.store = (.error fault, store)) :
      Move (refreshing purpose attempt) world [.refreshView]
        (pausing purpose attempt fault (now + (plan.retry.delayAfter attempt).timerMillis),
          { world with store := store }.note
            (.refresh purpose.cause (attempt + 1) .failed (some fault.message)))
  /-- A pause is over, or cut short by a stop, and an attempt is left. -/
  | retried {purpose : Purpose} {attempt : Nat} {fault : Fault} {until_ : Nat} {world : World σ}
      (hover : stop = true ∨ until_ ≤ now) (hleft : attempt + 1 < plan.retry.budget) :
      Move (pausing purpose attempt fault until_) world [] (attempting purpose (attempt + 1), world)
  /-- A stop is seen after the last attempt. -/
  | givenUp {purpose : Purpose} {attempt : Nat} {fault : Fault} {until_ : Nat} {world : World σ}
      (hstop : stop = true) (hspent : plan.retry.budget ≤ attempt + 1) :
      Move (pausing purpose attempt fault until_) world []
        (carryOn plan now purpose,
          world.note (.refresh purpose.cause plan.retry.budget .cancelled none))
  | exhausted {purpose : Purpose} {attempt : Nat} {fault : Fault} {until_ : Nat} {world : World σ}
      (hstop : stop = false) (hover : until_ ≤ now) (hspent : plan.retry.budget ≤ attempt + 1) :
      Move (pausing purpose attempt fault until_) world []
        (ended (.error (purpose.failure (attempt + 1) fault)),
          world.note (.refresh purpose.cause (attempt + 1) .exhausted (some fault.message)))
  | stopped {timers : Timers} {world : World σ} (hstop : stop = true) :
      Move (waiting timers) world [] (ended (.ok ()), world)
  | scheduled {timers : Timers} {world : World σ} (hstop : stop = false)
      (hdue : timers.scheduled.due now = true) :
      Move (waiting timers) world []
        (attempting (.scheduled { timers with scheduled := timers.scheduled.handled now }) 0, world)
  /-- A check finds no refresh owed. -/
  | clean {timers : Timers} {world : World σ} (hstop : stop = false)
      (hlater : timers.scheduled.due now = false) (hdue : timers.dirtyCheck.due now = true)
      (howed : world.owed = false) :
      Move (waiting timers) world []
        (waiting { timers with dirtyCheck := timers.dirtyCheck.handled now },
          { world with owed := false })
  /-- A check finds a refresh owed. -/
  | dirty {timers : Timers} {world : World σ} (hstop : stop = false)
      (hlater : timers.scheduled.due now = false) (hdue : timers.dirtyCheck.due now = true)
      (howed : world.owed = true) :
      Move (waiting timers) world []
        (settling { timers with dirtyCheck := timers.dirtyCheck.handled now },
          { world with owed := false })
  | settled {timers : Timers} {world : World σ} {store : σ}
      (hreply : backend .refreshView world.store = (.ok (), store)) :
      Move (settling timers) world [.refreshView]
        (waiting timers, { world with store := store }.note (.refresh .dirty 1 .refreshed none))
  /-- A failure of an owed refresh leaves it owed. -/
  | unsettled {timers : Timers} {world : World σ} {store : σ} {fault : Fault}
      (hreply : backend .refreshView world.store = (.error fault, store)) :
      Move (settling timers) world [.refreshView]
        (waiting timers,
          { world with store := store, owed := true }.note
            (.refresh .dirty 1 .failed (some fault.message)))

end

variable {backend : Backend σ} {plan : Plan} {now : Nat} {stop : Bool} {world : World σ}

theorem move_attempting (purpose : Purpose) (attempt : Nat) :
    Move backend plan now stop (attempting purpose attempt) world
      (((attempting purpose attempt).proceed plan now stop).calls backend world)
      (((attempting purpose attempt).proceed plan now stop).run backend world) := by
  cases stop with
  | true => exact .cancelled rfl
  | false => exact .begun rfl

theorem move_refreshing (purpose : Purpose) (attempt : Nat) :
    Move backend plan now stop (refreshing purpose attempt) world
      (((refreshing purpose attempt).proceed plan now stop).calls backend world)
      (((refreshing purpose attempt).proceed plan now stop).run backend world) := by
  have hfirst : (refreshing purpose attempt).proceed plan now stop = .act (.call .refreshView) _ :=
    rfl
  cases hreply : backend .refreshView world.store with
  | mk reply store =>
    rw [hfirst, Procedure.calls_call hreply, Procedure.run_call hreply]
    cases reply with
    | ok _ => exact .refreshed hreply
    | error fault => exact .failed hreply

theorem move_pausing (purpose : Purpose) (attempt : Nat) (fault : Fault) (until_ : Nat)
    (hready : (pausing purpose attempt fault until_).ready now stop = true) :
    Move backend plan now stop (pausing purpose attempt fault until_) world
      (((pausing purpose attempt fault until_).proceed plan now stop).calls backend world)
      (((pausing purpose attempt fault until_).proceed plan now stop).run backend world) := by
  have hover : stop = true ∨ until_ ≤ now := by simpa [ready] using hready
  rw [proceed]
  by_cases hleft : attempt + 1 < plan.retry.budget
  · rw [if_pos hleft]
    exact .retried hover hleft
  · have hspent : plan.retry.budget ≤ attempt + 1 := Nat.le_of_not_lt hleft
    rw [if_neg hleft]
    cases stop with
    | true => exact .givenUp rfl hspent
    | false => exact .exhausted rfl (hover.resolve_left Bool.false_ne_true) hspent

theorem move_waiting (timers : Timers) (hready : (waiting timers).ready now stop = true) :
    Move backend plan now stop (waiting timers) world
      (((waiting timers).proceed plan now stop).calls backend world)
      (((waiting timers).proceed plan now stop).run backend world) := by
  cases stop with
  | true => exact .stopped rfl
  | false =>
    cases hdue : timers.scheduled.due now with
    | true =>
      rw [proceed, if_neg Bool.false_ne_true, if_pos hdue]
      exact .scheduled rfl hdue
    | false =>
      have hcheck : timers.dirtyCheck.due now = true := by simpa [ready, hdue] using hready
      let checked := { timers with dirtyCheck := timers.dirtyCheck.handled now }
      have hmove : Move backend plan now false (waiting timers) world []
          (if world.owed then settling checked else waiting checked, { world with owed := false }) := by
        cases howed : world.owed with
        | true => exact .dirty rfl hdue hcheck howed
        | false => exact .clean rfl hdue hcheck howed
      rw [proceed, if_neg Bool.false_ne_true, if_neg (ne_true_of_eq_false hdue)]
      exact hmove

theorem move_settling (timers : Timers) :
    Move backend plan now stop (settling timers) world
      (((settling timers).proceed plan now stop).calls backend world)
      (((settling timers).proceed plan now stop).run backend world) := by
  have hfirst : (settling timers).proceed plan now stop = .act (.call .refreshView) _ := rfl
  cases hreply : backend .refreshView world.store with
  | mk reply store =>
    rw [hfirst, Procedure.calls_call hreply, Procedure.run_call hreply]
    cases reply with
    | ok _ => exact .settled hreply
    | error fault => exact .unsettled hreply

/-- Every step of the engine is one of those that are listed. -/
theorem move_step (phase : Phase) :
    Move backend plan now stop phase world ((phase.step plan now stop).calls backend world)
      ((phase.step plan now stop).run backend world) := by
  unfold step
  cases hready : phase.ready now stop with
  | false => exact .still hready
  | true =>
    cases phase with
    | attempting purpose attempt => exact move_attempting purpose attempt
    | refreshing purpose attempt => exact move_refreshing purpose attempt
    | pausing purpose attempt fault until_ => exact move_pausing purpose attempt fault until_ hready
    | waiting timers => exact move_waiting timers hready
    | settling timers => exact move_settling timers
    | ended result => cases hready

/-- A sequence that did not fail leads to waiting, if the tickers can be started. -/
theorem carryOn_of_fits (hfits : plan.fits now = true) (purpose : Purpose) :
    ∃ timers, carryOn plan now purpose = waiting timers := by
  cases purpose with
  | startup => exact ⟨plan.timers now, if_pos hfits⟩
  | scheduled timers => exact ⟨timers, rfl⟩

/-- Where they cannot, startup ends with the overflow of the clock. -/
theorem carryOn_cases (plan : Plan) (now : Nat) (purpose : Purpose) :
    (∃ timers, carryOn plan now purpose = waiting timers) ∨
      purpose = .startup ∧ plan.fits now = false ∧
        carryOn plan now purpose = ended (.error .clockOverflow) := by
  cases hfits : plan.fits now with
  | true => exact Or.inl (carryOn_of_fits hfits purpose)
  | false =>
    cases purpose with
    | startup => exact Or.inr ⟨rfl, rfl, if_neg (ne_true_of_eq_false hfits)⟩
    | scheduled timers => exact Or.inl ⟨timers, rfl⟩

/-- Going on fails only of the clock. -/
theorem eq_of_carryOn {purpose : Purpose} {result : Except RefreshFailure Unit}
    (h : carryOn plan now purpose = ended result) :
    result = .error .clockOverflow ∧ plan.fits now = false := by
  rcases carryOn_cases plan now purpose with ⟨timers, hwaits⟩ | ⟨-, hfits, hends⟩
  · cases hwaits.symm.trans h
  · exact ⟨(ended.inj (hends.symm.trans h)).symm, hfits⟩

/-- A step from a phase that has not failed to one that has is the end of an exhausted sequence, or of
a startup after which the tickers cannot be started. -/
theorem Move.fails {phase : Phase} {calls : List Call} {failure : RefreshFailure}
    {after : World σ}
    (h : Move backend plan now stop phase world calls (ended (.error failure), after))
    (hphase : phase ≠ ended (.error failure)) :
    (∃ (purpose : Purpose) (attempts : Nat) (fault : Fault),
      failure = purpose.failure attempts fault ∧
      .refresh purpose.cause attempts .exhausted (some fault.message) ∈ after.events) ∨
    failure = .clockOverflow ∧ plan.fits now = false := by
  generalize hnext : (ended (.error failure), after) = next at h
  have hcarried {purpose : Purpose} {world : World σ}
      (hnext : (ended (.error failure), after) = (carryOn plan now purpose, world)) :
      failure = .clockOverflow ∧ plan.fits now = false := by
    obtain ⟨hresult, hfits⟩ := eq_of_carryOn (congrArg Prod.fst hnext).symm
    exact ⟨Except.error.inj hresult, hfits⟩
  cases h with
  | exhausted hstop hover hspent =>
    cases hnext
    exact Or.inl ⟨_, _, _, rfl, List.mem_append_right _ List.mem_cons_self⟩
  | still hready =>
    cases hnext
    exact absurd rfl hphase
  | cancelled hstop => exact Or.inr (hcarried hnext)
  | refreshed hreply => exact Or.inr (hcarried hnext)
  | givenUp hstop hspent => exact Or.inr (hcarried hnext)
  | _ => cases hnext

end Phase

end Refresh

end ServiceRegistry
