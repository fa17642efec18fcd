import Mathlib.Logic.Function.Iterate
import ServiceRegistry.Proofs.Refresh.Move
import ServiceRegistry.Proofs.Refresh.Schedule
import ServiceRegistry.Storage.Memory

/-!
# The cadence of the engine

Over a store whose refreshes succeed and take no time, each ticker is handled when it is due, so neither
drifts and neither starves the other.

* `Ticker.Regular` is a ticker on time, `Timers.Kept` the two of an engine beside the mark that it finds
  at its next check; until then nothing else is due (`Timers.Kept.causesAt_eq`).
* `Post` says where the engine stands at an instant and what it still refreshes for at this instant.
* `Phase.Move.post`: a step moves refreshes from there to what is done, and at one instant there are
  five steps at most.
-/

namespace ServiceRegistry

variable {σ : Type}

/-! ## Stores whose refreshes succeed -/

/-- The store after a refresh of its view. -/
def Backend.refreshed (backend : Backend σ) (store : σ) : σ := (backend .refreshView store).2

/-- Refreshing succeeds, however often it has been done. -/
def Backend.AlwaysRefreshes (backend : Backend σ) (store : σ) : Prop :=
  ∀ count, (backend .refreshView (backend.refreshed^[count] store)).1 = .ok ()

theorem Backend.AlwaysRefreshes.reply {backend : Backend σ} {store : σ}
    (h : backend.AlwaysRefreshes store) (count : Nat) :
    backend .refreshView (backend.refreshed^[count] store) =
      (.ok (), backend.refreshed (backend.refreshed^[count] store)) :=
  Prod.ext (h count) rfl

/-- The store in memory refreshes its view, unless failures are rehearsed. -/
theorem Memory.alwaysRefreshes (now : Int) {m : Memory} (h : m.pendingFailures = 0) :
    (Memory.answer now).AlwaysRefreshes m := by
  have hkept (count : Nat) :
      ((Memory.answer now).refreshed^[count] m).pendingFailures = 0 := by
    induction count with
    | zero => exact h
    | succ count ih =>
      rw [Function.iterate_succ_apply']
      simp [Backend.refreshed, Memory.answer, Memory.refreshView, ih]
  intro count
  simp [Memory.answer, Memory.refreshView, hkept count]

/-! ## Tickers that are on time -/

/-- A ticker is next due at a multiple of its period, at most one period from an instant on. -/
structure Ticker.Regular (period now : Nat) (ticker : Ticker) : Prop where
  pos : 0 < period
  period_eq : ticker.period = period
  dvd : period ∣ ticker.deadline
  ahead : now ≤ ticker.deadline
  within : ticker.deadline ≤ now + period

theorem Ticker.due_eq_false_iff {ticker : Ticker} {now : Nat} :
    ticker.due now = false ↔ now < ticker.deadline := by
  rw [due, decide_eq_false_iff_not, Nat.not_le]

namespace Ticker.Regular

variable {period now instant : Nat} {ticker : Ticker}

theorem due_iff (h : ticker.Regular period now) : ticker.due now = true ↔ ticker.deadline = now := by
  have hahead := h.ahead
  rw [due, decide_eq_true_eq]
  omega

/-- A tick that is handled when it is due comes again one period later. -/
theorem handled_eq (h : ticker.Regular period now) (hdue : ticker.deadline = now) :
    ticker.handled now = ⟨period, now + period⟩ := by
  have hontime : ¬ ticker.deadline + grace < now := by omega
  rw [handled, if_neg hontime, hdue, h.period_eq]

theorem deadline_handled (h : ticker.Regular period now) (hdue : ticker.deadline = now) :
    (ticker.handled now).deadline = now + period :=
  congrArg Ticker.deadline (h.handled_eq hdue)

theorem lt_of_handled (h : ticker.Regular period now) (hhandled : ticker.deadline = now + period) :
    now < ticker.deadline := by
  have hpos := h.pos
  omega

theorem next (h : ticker.Regular period now) (hdue : ticker.deadline = now) :
    Regular period now ⟨period, now + period⟩ :=
  ⟨h.pos, rfl, Nat.dvd_add_self_right.mpr (hdue ▸ h.dvd), Nat.le_add_right _ _, Nat.le_refl _⟩

theorem later (h : ticker.Regular period now) (hafter : now ≤ instant)
    (huntil : instant ≤ ticker.deadline) : ticker.Regular period instant :=
  ⟨h.pos, h.period_eq, h.dvd, huntil, Nat.le_trans h.within (Nat.add_le_add_right hafter _)⟩

/-- From an instant to the next tick, the tick is at the only multiple of the period. -/
theorem dvd_iff (h : ticker.Regular period now) (hafter : now < instant)
    (huntil : instant ≤ ticker.deadline) : period ∣ instant ↔ ticker.deadline = instant := by
  constructor
  · intro hdvd
    have hsmall : ticker.deadline - instant < period := by
      have hwithin := h.within
      omega
    have hzero := Nat.eq_zero_of_dvd_of_lt (Nat.dvd_sub h.dvd hdvd) hsmall
    omega
  · rintro rfl
    exact h.dvd

theorem dvd_now (h : ticker.Regular period now) (hhandled : ticker.deadline = now + period) :
    period ∣ now :=
  Nat.dvd_add_self_right.mp (hhandled ▸ h.dvd)

end Ticker.Regular

namespace Refresh

/-! ## Where the engine stands -/

namespace Timers

/-- The tickers are on time, and a refresh is owed for the marks that the next check is for. -/
structure Kept (period check : Nat) (marks : List Nat) (now : Nat) (owed : Bool)
    (timers : Timers) : Prop where
  scheduled : timers.scheduled.Regular period now
  dirtyCheck : timers.dirtyCheck.Regular check now
  owed_iff : owed = true ↔ ∃ mark ∈ marks, timers.dirtyCheck.deadline < mark + check

/-- What the check is still to refresh for now. -/
def checkAhead (timers : Timers) (now : Nat) (owed : Bool) : List RefreshCause :=
  if timers.dirtyCheck.deadline = now ∧ owed = true then [.dirty] else []

/-- What the tickers are still to refresh for now. -/
def ahead (timers : Timers) (now : Nat) (owed : Bool) : List RefreshCause :=
  (if timers.scheduled.deadline = now then [.scheduled] else []) ++ timers.checkAhead now owed

variable {timers : Timers} {now : Nat} {owed : Bool}

theorem ahead_of_lt (hlater : now < timers.scheduled.deadline) :
    timers.ahead now owed = timers.checkAhead now owed := by
  rw [ahead, if_neg (Nat.ne_of_gt hlater)]
  rfl

theorem ahead_eq_nil (hlater : now < timers.scheduled.deadline)
    (hcheck : now < timers.dirtyCheck.deadline) : timers.ahead now owed = [] := by
  rw [ahead_of_lt hlater, checkAhead, if_neg fun hdue => Nat.ne_of_gt hcheck hdue.1]

theorem ahead_of_scheduled (hdue : timers.scheduled.deadline = now) :
    timers.ahead now owed = .scheduled :: timers.checkAhead now owed := by
  rw [ahead, if_pos hdue]
  rfl

theorem ahead_of_clean (hlater : now < timers.scheduled.deadline) : timers.ahead now false = [] := by
  rw [ahead_of_lt hlater]
  exact if_neg fun hdue => Bool.false_ne_true hdue.2

theorem ahead_of_dirty (hlater : now < timers.scheduled.deadline)
    (hdue : timers.dirtyCheck.deadline = now) : timers.ahead now true = [.dirty] := by
  rw [ahead_of_lt hlater]
  exact if_pos ⟨hdue, rfl⟩

end Timers

namespace Timers.Kept

variable {period check now instant : Nat} {marks : List Nat} {owed : Bool} {timers : Timers}

theorem later (h : timers.Kept period check marks now owed) (hafter : now ≤ instant)
    (hscheduled : instant ≤ timers.scheduled.deadline)
    (hcheck : instant ≤ timers.dirtyCheck.deadline) :
    timers.Kept period check marks instant owed :=
  ⟨h.scheduled.later hafter hscheduled, h.dirtyCheck.later hafter hcheck, h.owed_iff⟩

theorem scheduledHandled (h : timers.Kept period check marks now owed)
    (hdue : timers.scheduled.deadline = now) :
    Kept period check marks now owed { timers with scheduled := timers.scheduled.handled now } := by
  refine ⟨?_, h.dirtyCheck, h.owed_iff⟩
  rw [h.scheduled.handled_eq hdue]
  exact h.scheduled.next hdue

/-- A check leaves no mark to the next one. -/
theorem checkHandled (h : timers.Kept period check marks now owed)
    (hdue : timers.dirtyCheck.deadline = now) (hpast : ∀ mark ∈ marks, mark ≤ now) :
    Kept period check marks now false
      { timers with dirtyCheck := timers.dirtyCheck.handled now } := by
  rw [h.dirtyCheck.handled_eq hdue]
  refine ⟨h.scheduled, h.dirtyCheck.next hdue, iff_of_false Bool.false_ne_true ?_⟩
  rintro ⟨mark, hmark, hlater⟩
  have hle := hpast mark hmark
  change now + check < mark + check at hlater
  omega

/-- A mark off the checks is left to the next one. -/
theorem marked (h : timers.Kept period check marks now owed) (hoff : ¬ check ∣ now) :
    timers.Kept period check (marks ++ [now]) now true := by
  refine ⟨h.scheduled, h.dirtyCheck, iff_of_true rfl ⟨now, by simp, ?_⟩⟩
  have hwithin := h.dirtyCheck.within
  have hne : timers.dirtyCheck.deadline ≠ now + check := fun heq => hoff (h.dirtyCheck.dvd_now heq)
  omega

theorem checkAhead_eq_nil (h : timers.Kept period check marks now owed) (hoff : ¬ check ∣ now) :
    timers.checkAhead now owed = [] := by
  refine if_neg fun hdue => hoff ?_
  rw [← hdue.1]
  exact h.dirtyCheck.dvd

theorem checkAhead_marked (h : timers.Kept period check marks now owed) (hoff : ¬ check ∣ now) :
    timers.checkAhead now owed = timers.checkAhead now true :=
  (h.checkAhead_eq_nil hoff).trans ((h.marked hoff).checkAhead_eq_nil hoff).symm

/-- Until both tickers are due, nothing else is. -/
theorem causesAt_eq (h : timers.Kept period check marks now owed)
    (hpast : ∀ mark ∈ marks, mark ≤ now) (hafter : now < instant)
    (hscheduled : instant ≤ timers.scheduled.deadline)
    (hcheck : instant ≤ timers.dirtyCheck.deadline) :
    causesAt period check marks instant = timers.ahead instant owed := by
  have hperiod := h.scheduled.dvd_iff hafter hscheduled
  have hserved : (check ∣ instant ∧ ∃ mark ∈ marks, instant < mark + check ∧ mark < instant) ↔
      timers.dirtyCheck.deadline = instant ∧ owed = true := by
    rw [h.dirtyCheck.dvd_iff hafter hcheck, h.owed_iff]
    refine and_congr_right fun hdue => ?_
    rw [hdue]
    constructor
    · rintro ⟨mark, hmark, hrecent, -⟩
      exact ⟨mark, hmark, hrecent⟩
    · rintro ⟨mark, hmark, hrecent⟩
      exact ⟨mark, hmark, hrecent, Nat.lt_of_le_of_lt (hpast mark hmark) hafter⟩
  rw [Refresh.causesAt_eq (Nat.zero_lt_of_lt hafter), ahead, checkAhead]
  simp only [hperiod, hserved]

end Timers.Kept

/-- The tickers to which a sequence of attempts leads. -/
def Purpose.timers (plan : Plan) (now : Nat) : Purpose → Timers
  | .startup => plan.timers now
  | .scheduled timers => timers

section

variable (plan : Plan) (period check : Nat) (marks : List Nat) (now : Nat) (owed : Bool)

/-- Where an engine whose refreshes succeed stands, and what it still refreshes for now. -/
inductive Post : Phase → List RefreshCause → Prop
  | attempting {purpose : Purpose}
      (hgoes : Phase.carryOn plan now purpose = .waiting (purpose.timers plan now))
      (hkept : (purpose.timers plan now).Kept period check marks now owed)
      (hhandled : (purpose.timers plan now).scheduled.deadline = now + period) :
      Post (.attempting purpose 0) (purpose.cause :: (purpose.timers plan now).checkAhead now owed)
  | refreshing {purpose : Purpose}
      (hgoes : Phase.carryOn plan now purpose = .waiting (purpose.timers plan now))
      (hkept : (purpose.timers plan now).Kept period check marks now owed)
      (hhandled : (purpose.timers plan now).scheduled.deadline = now + period) :
      Post (.refreshing purpose 0) (purpose.cause :: (purpose.timers plan now).checkAhead now owed)
  | waiting {timers : Timers} (hkept : timers.Kept period check marks now owed) :
      Post (.waiting timers) (timers.ahead now owed)
  | settling {timers : Timers} (hkept : timers.Kept period check marks now owed)
      (hlater : now < timers.scheduled.deadline)
      (hhandled : timers.dirtyCheck.deadline = now + check) :
      Post (.settling timers) [.dirty]

end

/-- The most steps that an engine whose refreshes succeed takes before the clock goes on. -/
def Phase.stepsNow (now : Nat) : Phase → Nat
  | attempting .. => 4
  | refreshing .. => 3
  | waiting timers =>
    if timers.scheduled.due now then 5 else if timers.dirtyCheck.due now then 2 else 0
  | settling _ => 1
  | _ => 0

theorem Phase.stepsNow_le (now : Nat) (phase : Phase) : phase.stepsNow now ≤ 5 := by
  cases phase with
  | waiting timers =>
    rw [stepsNow]
    split
    · exact Nat.le_refl 5
    · split <;> decide
  | _ => exact Nat.le_of_ble_eq_true rfl

section

variable {backend : Backend σ} {plan : Plan} {period check now : Nat} {marks : List Nat}
  {owed : Bool} {phase : Phase} {world : World σ} {calls : List Call} {next : Phase × World σ}
  {ahead : List RefreshCause}

theorem Phase.stepsNow_of_lt {timers : Timers} (hlater : now < timers.scheduled.deadline) :
    (waiting timers).stepsNow now = if timers.dirtyCheck.due now then 2 else 0 := by
  rw [stepsNow, Ticker.due_eq_false_iff.mpr hlater, if_neg Bool.false_ne_true]

theorem Phase.stepsNow_of_rest {timers : Timers} (hlater : now < timers.scheduled.deadline)
    (hcheck : now < timers.dirtyCheck.deadline) : (waiting timers).stepsNow now = 0 := by
  rw [stepsNow_of_lt hlater, Ticker.due_eq_false_iff.mpr hcheck, if_neg Bool.false_ne_true]

/-- Before the next tick there is nothing to refresh for. -/
theorem Post.rest {timers : Timers} (hkept : timers.Kept period check marks now owed)
    (hlater : now < timers.scheduled.deadline) (hcheck : now < timers.dirtyCheck.deadline) :
    Post plan period check marks now owed (.waiting timers) [] := by
  have hnone : timers.ahead now owed = [] := Timers.ahead_eq_nil hlater hcheck
  rw [← hnone]
  exact .waiting hkept

/-- A step refreshes for the first of what is to be refreshed for now, or leaves all of it. -/
theorem Phase.Move.post (h : Phase.Move backend plan now false phase world calls next)
    (hready : phase.ready now false = true)
    (hpost : Post plan period check marks now world.owed phase ahead)
    (hpast : ∀ mark ∈ marks, mark ≤ now)
    (hreply : backend .refreshView world.store = (.ok (), backend.refreshed world.store)) :
    ∃ done left, ahead = done ++ left ∧
      Post plan period check marks now next.2.owed next.1 left ∧
      next.2.events = world.events ++ done.map refreshEvent ∧
      next.2.store = backend.refreshed^[done.length] world.store ∧
      next.1.stepsNow now < phase.stepsNow now := by
  cases hpost with
  | @attempting purpose hgoes hkept hhandled =>
    cases h with
    | still hidle => cases hready.symm.trans hidle
    | cancelled hstop => cases hstop
    | begun hstop =>
      exact ⟨[], _, rfl, .refreshing hgoes hkept hhandled, (List.append_nil _).symm, rfl,
        Nat.lt_succ_self 3⟩
  | @refreshing purpose hgoes hkept hhandled =>
    have hlater := hkept.scheduled.lt_of_handled hhandled
    cases h with
    | still hidle => cases hready.symm.trans hidle
    | refreshed hrefreshed =>
      cases hreply.symm.trans hrefreshed
      rw [hgoes, ← Timers.ahead_of_lt hlater]
      refine ⟨[purpose.cause], _, rfl, .waiting hkept, rfl, rfl, ?_⟩
      change (waiting (purpose.timers plan now)).stepsNow now < 3
      rw [stepsNow_of_lt hlater]
      split <;> decide
    | failed hfailed => cases hreply.symm.trans hfailed
  | @waiting timers hkept =>
    cases h with
    | still hidle => cases hready.symm.trans hidle
    | stopped hstop => cases hstop
    | scheduled hstop hdue =>
      -- Both may be due; the check keeps its deadline and comes after the sequence.
      have hnow := hkept.scheduled.due_iff.mp hdue
      refine ⟨[], _, Timers.ahead_of_scheduled hnow,
        .attempting rfl (hkept.scheduledHandled hnow) (hkept.scheduled.deadline_handled hnow),
        (List.append_nil _).symm, rfl, ?_⟩
      rw [stepsNow, stepsNow, if_pos hdue]
      exact Nat.lt_succ_self 4
    | clean hstop hlater hdue howed =>
      have hnow := hkept.dirtyCheck.due_iff.mp hdue
      have hscheduled := Ticker.due_eq_false_iff.mp hlater
      have hchecked := hkept.checkHandled hnow hpast
      have hcheck := hchecked.dirtyCheck.lt_of_handled (hkept.dirtyCheck.deadline_handled hnow)
      rw [howed]
      refine ⟨[], [], Timers.ahead_of_clean hscheduled, .rest hchecked hscheduled hcheck,
        (List.append_nil _).symm, rfl, ?_⟩
      rw [stepsNow_of_lt hscheduled, if_pos hdue]
      exact Nat.lt_of_le_of_lt (Nat.le_of_eq (stepsNow_of_rest hscheduled hcheck)) Nat.zero_lt_two
    | dirty hstop hlater hdue howed =>
      have hnow := hkept.dirtyCheck.due_iff.mp hdue
      have hscheduled := Ticker.due_eq_false_iff.mp hlater
      rw [howed]
      refine ⟨[], _, Timers.ahead_of_dirty hscheduled hnow,
        .settling (hkept.checkHandled hnow hpast) hscheduled (hkept.dirtyCheck.deadline_handled hnow),
        (List.append_nil _).symm, rfl, ?_⟩
      rw [stepsNow_of_lt hscheduled, if_pos hdue]
      exact Nat.one_lt_two
  | @settling timers hkept hlater hhandled =>
    have hcheck := hkept.dirtyCheck.lt_of_handled hhandled
    cases h with
    | still hidle => cases hready.symm.trans hidle
    | settled hsettled =>
      cases hreply.symm.trans hsettled
      refine ⟨[.dirty], [], rfl, .rest hkept hlater hcheck, rfl, rfl, ?_⟩
      rw [stepsNow_of_rest hlater hcheck]
      exact Nat.zero_lt_one
    | unsettled hfailed => cases hreply.symm.trans hfailed

theorem Post.marked (h : Post plan period check marks now owed phase ahead) (hoff : ¬ check ∣ now) :
    Post plan period check (marks ++ [now]) now true phase ahead := by
  cases h with
  | attempting hgoes hkept hhandled =>
    rw [hkept.checkAhead_marked hoff]
    exact .attempting hgoes (hkept.marked hoff) hhandled
  | refreshing hgoes hkept hhandled =>
    rw [hkept.checkAhead_marked hoff]
    exact .refreshing hgoes (hkept.marked hoff) hhandled
  | waiting hkept =>
    rw [Timers.ahead, hkept.checkAhead_marked hoff]
    exact .waiting (hkept.marked hoff)
  | settling hkept hlater hhandled => exact absurd (hkept.dirtyCheck.dvd_now hhandled) hoff

end

end Refresh

end ServiceRegistry
