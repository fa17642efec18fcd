import Mathlib.Algebra.Ring.Nat
import ServiceRegistry.Proofs.Refresh.Account
import ServiceRegistry.Proofs.Refresh.Stopping

/-!
# How stale the view gets

While calls on the store take no time, the last refresh that succeeded lies back at most one period of
the schedule and the pauses of one sequence of attempts.  This holds at every instant from the first
success until the engine ends, whatever the outcomes of the refreshes and the marks that others set.

* `Purpose.OnTime` and `Place` bound the clock and the next tick of the schedule by the last success,
  phase by phase.
* `Phase.Move.place` and `Timeline.Punctual.pass`: steps and the clock keep to these bounds.
* `Timeline.staleness_bounded`: the bound along every course.
-/

namespace ServiceRegistry

variable {σ : Type}

/-! ## Pauses -/

theorem Span.timerMillis_scale_le (span : Span) (factor : Nat) :
    (span.scale factor).timerMillis ≤ span.timerMillis * factor := by
  have hceil : span.totalNanos ≤ span.timerMillis * 1000000 := by
    unfold timerMillis
    omega
  have hscaled : (span.scale factor).totalNanos ≤ span.timerMillis * factor * 1000000 := by
    calc (span.scale factor).totalNanos
      _ ≤ span.totalNanos * factor := by
        rw [totalNanos_scale]
        exact Nat.min_le_left _ _
      _ ≤ span.timerMillis * 1000000 * factor := Nat.mul_le_mul_right _ hceil
      _ = span.timerMillis * factor * 1000000 := Nat.mul_right_comm _ _ _
  change ((span.scale factor).totalNanos + 999999) / 1000000 ≤ _
  omega

theorem RetryPolicy.growth_le (attempt : Nat) : growth attempt ≤ 2 ^ attempt := by
  unfold growth
  split
  · exact Nat.le_refl _
  · rename_i hlarge
    have hpow : 2 ^ 32 ≤ 2 ^ attempt := Nat.pow_le_pow_right (by decide) (Nat.le_of_not_lt hlarge)
    omega

namespace Refresh

namespace Plan

def period (plan : Plan) : Nat := max plan.scheduledEvery.timerMillis 1

/-- The time that the pauses after so many failed attempts take at most. -/
def pauses (plan : Plan) (attempts : Nat) : Nat :=
  plan.retry.baseDelay.timerMillis * (2 ^ attempts - 1)

/-- The age at most of the last refresh that succeeded. -/
def staleness (plan : Plan) : Nat := plan.period + plan.pauses plan.retry.budget

theorem delay_add_pauses_le (plan : Plan) (attempt : Nat) :
    (plan.retry.delayAfter attempt).timerMillis + plan.pauses attempt ≤
      plan.pauses (attempt + 1) := by
  have hpow : 0 < 2 ^ attempt := Nat.two_pow_pos attempt
  have hsum : 2 ^ attempt + (2 ^ attempt - 1) = 2 ^ (attempt + 1) - 1 := by
    rw [Nat.pow_succ]
    omega
  have hdelay : (plan.retry.delayAfter attempt).timerMillis ≤
      plan.retry.baseDelay.timerMillis * 2 ^ attempt :=
    Nat.le_trans (Span.timerMillis_scale_le _ _)
      (Nat.mul_le_mul_left _ (RetryPolicy.growth_le attempt))
  calc (plan.retry.delayAfter attempt).timerMillis + plan.pauses attempt
    _ ≤ plan.retry.baseDelay.timerMillis * 2 ^ attempt + plan.pauses attempt :=
      Nat.add_le_add_right hdelay _
    _ = plan.pauses (attempt + 1) := by rw [pauses, pauses, ← Nat.mul_add, hsum]

theorem pauses_mono (plan : Plan) {few many : Nat} (h : few ≤ many) :
    plan.pauses few ≤ plan.pauses many :=
  Nat.mul_le_mul_left _ (Nat.sub_le_sub_right (Nat.pow_le_pow_right (by decide) h) 1)

end Plan

/-! ## The schedule -/

/-- The next tick of the schedule is due one period after an instant at the latest. -/
def Timers.Within (plan : Plan) (instant : Nat) (timers : Timers) : Prop :=
  timers.scheduled.period = plan.period ∧ timers.scheduled.deadline ≤ instant + plan.period

section

variable {plan : Plan} {timers : Timers} {now instant : Nat}

theorem Timers.Within.mono (h : timers.Within plan instant) (hlater : instant ≤ now) :
    timers.Within plan now :=
  ⟨h.1, Nat.le_trans h.2 (Nat.add_le_add_right hlater _)⟩

theorem within_timers (plan : Plan) (now : Nat) : (plan.timers now).Within plan now :=
  ⟨rfl, Nat.le_refl _⟩

theorem Timers.Within.handled (h : timers.Within plan instant)
    (hdue : timers.scheduled.due now = true) :
    Timers.Within plan now { timers with scheduled := timers.scheduled.handled now } := by
  have hdeadline : timers.scheduled.deadline ≤ now := of_decide_eq_true hdue
  have hperiod := h.1
  unfold Timers.Within Ticker.handled
  split
  · exact ⟨hperiod, Nat.add_le_add_left (Nat.le_of_eq hperiod) now⟩
  · exact ⟨hperiod, Nat.add_le_add hdeadline (Nat.le_of_eq hperiod)⟩

end

/-! ## The last success -/

/-- The instant of the last refresh that succeeded. -/
def lastSuccess (refreshes : List (Nat × Except Fault Unit)) : Option Nat :=
  (refreshes.filter fun refresh => refresh.2.isOk).getLast?.map Prod.fst

section

variable {refreshes : List (Nat × Except Fault Unit)} {instant : Nat}

@[simp] theorem lastSuccess_concat_ok :
    lastSuccess (refreshes ++ [(instant, .ok ())]) = some instant := by
  simp [lastSuccess, Except.isOk, Except.toBool]

@[simp] theorem lastSuccess_concat_error {fault : Fault} :
    lastSuccess (refreshes ++ [(instant, .error fault)]) = lastSuccess refreshes := by
  simp [lastSuccess, Except.isOk, Except.toBool]

theorem exists_of_lastSuccess (h : lastSuccess refreshes = some instant) :
    ∃ refresh ∈ refreshes, refresh.1 = instant := by
  obtain ⟨refresh, hlast, hinstant⟩ := Option.map_eq_some_iff.mp h
  exact ⟨refresh, (List.mem_filter.mp (List.mem_of_getLast? hlast)).1, hinstant⟩

end

/-- A sequence of attempts has taken its time since the last success: `ahead` is the instant by which
it goes on, and `spent` what its pauses have taken at most.  There is no success before startup. -/
def Purpose.OnTime (plan : Plan) (now ahead spent : Nat) (last : Option Nat) : Purpose → Prop
  | .startup => last = none
  | .scheduled timers => timers.Within plan now ∧
      ∃ success, last = some success ∧ ahead ≤ success + plan.period + spent

/-- Where an engine is at an instant, given the instant of the last success and whether it has been
asked to stop. -/
inductive Place (plan : Plan) (asked : Bool) (now : Nat) (last : Option Nat) : Phase → Prop
  | attempting {purpose : Purpose} {attempt : Nat} (hleft : attempt < plan.retry.budget)
      (hpurpose : purpose.OnTime plan now now (plan.pauses attempt) last) :
      Place plan asked now last (.attempting purpose attempt)
  | refreshing {purpose : Purpose} {attempt : Nat} (hleft : attempt < plan.retry.budget)
      (hpurpose : purpose.OnTime plan now now (plan.pauses attempt) last) :
      Place plan asked now last (.refreshing purpose attempt)
  | pausing {purpose : Purpose} {attempt : Nat} {fault : Fault} {until_ : Nat}
      (hleft : attempt < plan.retry.budget) (hnow : now ≤ until_)
      (hpurpose : purpose.OnTime plan now until_ (plan.pauses (attempt + 1)) last) :
      Place plan asked now last (.pausing purpose attempt fault until_)
  | waiting {timers : Timers} {success : Nat} (hlast : last = some success)
      (htimers : timers.Within plan success) (hnow : now ≤ success + plan.period) :
      Place plan asked now last (.waiting timers)
  | settling {timers : Timers} {success : Nat} (hlast : last = some success)
      (htimers : timers.Within plan success) (hnow : now ≤ success + plan.period) :
      Place plan asked now last (.settling timers)
  /-- After a cancelled sequence the schedule does not matter any more. -/
  | leaving {timers : Timers} (hasked : asked = true)
      (hrecent : ∀ success ∈ last, now ≤ success + plan.staleness) :
      Place plan asked now last (.waiting timers)
  | ended {result : Except RefreshFailure Unit} : Place plan asked now last (.ended result)

section

variable {plan : Plan} {asked : Bool} {now ahead spent attempt : Nat} {last : Option Nat}
  {purpose : Purpose} {phase : Phase}

theorem Purpose.OnTime.mono {later sooner : Nat} (h : purpose.OnTime plan now ahead spent last)
    (hlater : now ≤ later) (hsooner : sooner ≤ ahead) :
    purpose.OnTime plan later sooner spent last := by
  cases purpose with
  | startup => exact h
  | scheduled timers =>
    obtain ⟨htimers, success, hlast, hahead⟩ := h
    exact ⟨htimers.mono hlater, success, hlast, Nat.le_trans hsooner hahead⟩

/-- A pause is added to what the pauses have taken. -/
theorem Purpose.OnTime.pause (h : purpose.OnTime plan now now (plan.pauses attempt) last) :
    purpose.OnTime plan now (now + (plan.retry.delayAfter attempt).timerMillis)
      (plan.pauses (attempt + 1)) last := by
  cases purpose with
  | startup => exact h
  | scheduled timers =>
    obtain ⟨htimers, success, hlast, hnow⟩ := h
    have hpauses := plan.delay_add_pauses_le attempt
    exact ⟨htimers, success, hlast, by omega⟩

theorem Purpose.OnTime.recent (h : purpose.OnTime plan now ahead (plan.pauses attempt) last)
    (hleft : attempt ≤ plan.retry.budget) :
    ∀ success ∈ last, ahead ≤ success + plan.staleness := by
  intro success hsuccess
  cases purpose with
  | startup =>
    rw [show last = none from h] at hsuccess
    cases hsuccess
  | scheduled timers =>
    obtain ⟨-, other, rfl, hahead⟩ := h
    obtain rfl := Option.some.inj hsuccess
    have hpauses := plan.pauses_mono hleft
    unfold Plan.staleness
    omega

theorem Purpose.OnTime.succeeded {timers : Timers}
    (h : (Purpose.scheduled timers).OnTime plan now ahead spent last) :
    ∃ success, last = some success := by
  obtain ⟨-, success, hlast, -⟩ := h
  exact ⟨success, hlast⟩

/-- After a success the engine waits for the next tick of the schedule, or it has ended. -/
theorem place_refreshed (h : purpose.OnTime plan now now spent last) :
    Place plan asked now (some now) (Phase.carryOn plan now purpose) := by
  cases purpose with
  | startup =>
    rw [Phase.carryOn]
    split
    · exact .waiting rfl (within_timers plan now) (Nat.le_add_right _ _)
    · exact .ended
  | scheduled timers => exact .waiting rfl h.1 (Nat.le_add_right _ _)

theorem place_cancelled (purpose : Purpose) (hasked : asked = true)
    (hrecent : ∀ success ∈ last, now ≤ success + plan.staleness) :
    Place plan asked now last (Phase.carryOn plan now purpose) := by
  rcases Phase.carryOn_cases plan now purpose with ⟨timers, hwaits⟩ | ⟨-, -, hends⟩
  · rw [hwaits]
    exact .leaving hasked hrecent
  · rw [hends]
    exact .ended

namespace Place

theorem mono {later : Bool} (h : Place plan asked now last phase)
    (hlater : asked = true → later = true) : Place plan later now last phase := by
  cases h with
  | attempting hleft hpurpose => exact .attempting hleft hpurpose
  | refreshing hleft hpurpose => exact .refreshing hleft hpurpose
  | pausing hleft hnow hpurpose => exact .pausing hleft hnow hpurpose
  | waiting hlast htimers hnow => exact .waiting hlast htimers hnow
  | settling hlast htimers hnow => exact .settling hlast htimers hnow
  | leaving hasked hrecent => exact .leaving (hlater hasked) hrecent
  | ended => exact .ended

theorem recent (h : Place plan asked now last phase) (hgoing : phase.result? = none) :
    ∀ success ∈ last, now ≤ success + plan.staleness := by
  have hperiod : plan.period ≤ plan.staleness := Nat.le_add_right _ _
  cases h with
  | attempting hleft hpurpose => exact hpurpose.recent (Nat.le_of_lt hleft)
  | refreshing hleft hpurpose => exact hpurpose.recent (Nat.le_of_lt hleft)
  | pausing hleft hnow hpurpose =>
    exact fun success hsuccess => Nat.le_trans hnow (hpurpose.recent hleft success hsuccess)
  | waiting hlast htimers hnow =>
    intro success hsuccess
    obtain rfl := Option.some.inj (hlast.symm.trans hsuccess)
    omega
  | settling hlast htimers hnow =>
    intro success hsuccess
    obtain rfl := Option.some.inj (hlast.symm.trans hsuccess)
    omega
  | leaving hasked hrecent => exact hrecent
  | ended => cases hgoing

/-- Once startup is over, a refresh has succeeded, unless the engine has been asked to stop. -/
theorem succeeded (h : Place plan asked now last phase) (hgoing : phase.result? = none)
    (hstarted : phase.startingUp = false) (hasked : asked = false) :
    ∃ success, last = some success := by
  cases h with
  | @attempting purpose _ hleft hpurpose =>
    cases purpose with
    | startup => cases hstarted
    | scheduled timers => exact hpurpose.succeeded
  | @refreshing purpose _ hleft hpurpose =>
    cases purpose with
    | startup => cases hstarted
    | scheduled timers => exact hpurpose.succeeded
  | @pausing purpose _ _ _ hleft hnow hpurpose =>
    cases purpose with
    | startup => cases hstarted
    | scheduled timers => exact hpurpose.succeeded
  | waiting hlast htimers hnow => exact ⟨_, hlast⟩
  | settling hlast htimers hnow => exact ⟨_, hlast⟩
  | leaving hleaving hrecent => cases hasked.symm.trans hleaving
  | ended => cases hgoing

end Place

end

/-! ## Steps and the clock -/

section

variable {backend : Backend σ} {plan : Plan} {now : Nat} {stop asked : Bool} {phase : Phase}
  {world : World σ} {calls : List Call} {next : Phase × World σ} {recorded : List Event}
  {outcomes : List (Except Fault Unit)} {refreshes : List (Nat × Except Fault Unit)}

/-- A step takes no time, and leads to a place that fits the refresh that it may have made. -/
theorem Phase.Move.place (h : Phase.Move backend plan now stop phase world calls next)
    (htold : Timeline.Told backend world next.2 calls recorded outcomes)
    (hasked : stop = true → asked = true)
    (hheeds : phase.startingUp = false → asked = true → stop = true)
    (hpast : ∀ success ∈ lastSuccess refreshes, success ≤ now)
    (hplace : Place plan asked now (lastSuccess refreshes) phase) :
    Place plan asked now (lastSuccess (refreshes ++ outcomes.map (now, ·))) next.1 := by
  cases h with
  | still hready =>
    obtain ⟨-, rfl⟩ := htold.silent rfl
    simpa using hplace
  | @cancelled purpose _ _ hstop =>
    obtain ⟨-, rfl⟩ := htold.noted rfl
    have hrecent := hplace.recent rfl
    simpa using place_cancelled purpose (hasked hstop) hrecent
  | begun hstop =>
    obtain ⟨-, rfl⟩ := htold.silent rfl
    cases hplace with
    | attempting hleft hpurpose => simpa using .refreshing hleft hpurpose
  | refreshed hreply =>
    obtain ⟨-, rfl⟩ := htold.answered hreply rfl
    cases hplace with
    | refreshing hleft hpurpose => simpa using place_refreshed hpurpose
  | failed hreply =>
    obtain ⟨-, rfl⟩ := htold.answered hreply rfl
    cases hplace with
    | refreshing hleft hpurpose =>
      simpa using .pausing hleft (Nat.le_add_right _ _) hpurpose.pause
  | retried hover hmore =>
    obtain ⟨-, rfl⟩ := htold.silent rfl
    cases hplace with
    | pausing hleft hnow hpurpose =>
      -- A stop may have cut the pause short, but nothing has prolonged it.
      simpa using .attempting hmore (hpurpose.mono (Nat.le_refl _) hnow)
  | @givenUp purpose _ _ _ _ hstop hspent =>
    obtain ⟨-, rfl⟩ := htold.noted rfl
    have hrecent := hplace.recent rfl
    simpa using place_cancelled purpose (hasked hstop) hrecent
  | exhausted hstop hover hspent => exact .ended
  | stopped hstop => exact .ended
  | scheduled hstop hdue =>
    obtain ⟨-, rfl⟩ := htold.silent rfl
    cases hplace with
    | waiting hlast htimers hnow =>
      have honTime : Purpose.OnTime plan now now (plan.pauses 0) (lastSuccess refreshes)
          (.scheduled _) :=
        ⟨htimers.handled hdue, _, hlast, Nat.le_trans hnow (Nat.le_add_right _ _)⟩
      simpa using .attempting (Nat.le_max_right _ _) honTime
    | leaving hleaving hrecent => cases hstop.symm.trans (hheeds rfl hleaving)
  | clean hstop hlater hdue howed =>
    obtain ⟨-, rfl⟩ := htold.silent rfl
    cases hplace with
    | waiting hlast htimers hnow => simpa using .waiting hlast htimers hnow
    | leaving hleaving hrecent => cases hstop.symm.trans (hheeds rfl hleaving)
  | dirty hstop hlater hdue howed =>
    obtain ⟨-, rfl⟩ := htold.silent rfl
    cases hplace with
    | waiting hlast htimers hnow => simpa using .settling hlast htimers hnow
    | leaving hleaving hrecent => cases hstop.symm.trans (hheeds rfl hleaving)
  | settled hreply =>
    obtain ⟨-, rfl⟩ := htold.answered hreply rfl
    cases hplace with
    | settling hlast htimers hnow =>
      have hnew := htimers.mono (hpast _ hlast)
      simpa using .waiting rfl hnew (Nat.le_add_right now _)
  | unsettled hreply =>
    obtain ⟨-, rfl⟩ := htold.answered hreply rfl
    cases hplace with
    | settling hlast htimers hnow => simpa using .waiting hlast htimers hnow

end

namespace Timeline

/-- The engine is where the refreshes so far have it be. -/
structure Punctual (t : Timeline σ) (refreshes : List (Nat × Except Fault Unit)) : Prop where
  past : ∀ refresh ∈ refreshes, refresh.1 ≤ t.now
  place : Place t.plan t.channel.requested t.now (lastSuccess refreshes) t.phase

variable {t : Timeline σ} {refreshes : List (Nat × Except Fault Unit)}

theorem punctual_start (plan : Plan) (world : World σ) (patient : Bool) :
    Punctual { plan := plan, world := world, patient := patient } [] := by
  refine ⟨fun _ => nofun, ?_⟩
  have hfresh : Purpose.OnTime plan 0 0 (plan.pauses 0) none .startup := rfl
  exact .attempting (Nat.le_max_right _ _) hfresh

namespace Punctual

theorem lastSuccess_le (h : t.Punctual refreshes) :
    ∀ success ∈ lastSuccess refreshes, success ≤ t.now := by
  intro success hsuccess
  obtain ⟨refresh, hmem, rfl⟩ := exists_of_lastSuccess hsuccess
  exact h.past refresh hmem

theorem step (h : t.Punctual refreshes) (backend : Backend σ) :
    (t.step backend).Punctual (refreshes ++ t.refreshesAt (.step backend)) := by
  obtain ⟨next, world, outcomes, hmove, htold, hrefreshes, hnext⟩ := t.step_told backend
  rw [hrefreshes]
  refine ⟨?_, ?_⟩
  · intro refresh hmem
    rcases List.mem_append.mp hmem with hold | hnew
    · exact h.past refresh hold
    · obtain ⟨outcome, -, rfl⟩ := List.mem_map.mp hnew
      exact Nat.le_refl t.now
  · rw [hnext]
    exact hmove.place htold requested_of_stopSeen stopSeen_of_requested h.lastSuccess_le h.place

/-- The clock stops where the engine has something to do. -/
theorem pass (h : t.Punctual refreshes) (hidle : t.phase.inFlight = false) (instant : Nat) :
    (t.pass instant).Punctual refreshes := by
  have hplace := h.place
  have hleaving := t.stopSeen_of_requested
  obtain ⟨plan, world, patient, now, channel, phase, log⟩ := t
  unfold Timeline.pass
  rw [if_neg (ne_true_of_eq_false hidle)]
  split
  · exact h
  · rename_i hready
    have hlater : now ≤ max now (min (phase.wake?.getD instant) instant) := Nat.le_max_left _ _
    refine ⟨fun refresh hmem => Nat.le_trans (h.past refresh hmem) hlater, ?_⟩
    cases hplace with
    | attempting hleft hpurpose => exact absurd rfl hready
    | refreshing hleft hpurpose => cases hidle
    | pausing hleft hnow hpurpose =>
      have hsooner := Nat.max_le.mpr ⟨hnow, Nat.min_le_left _ instant⟩
      exact .pausing hleft hsooner (hpurpose.mono hlater (Nat.le_refl _))
    | @waiting timers success hlast htimers hnow =>
      -- The engine sleeps until the earlier of its two tickers, so never past the schedule.
      have hwake : min (min timers.scheduled.deadline timers.dirtyCheck.deadline) instant ≤
          success + plan.period :=
        Nat.le_trans (Nat.min_le_left _ _) (Nat.le_trans (Nat.min_le_left _ _) htimers.2)
      exact .waiting hlast htimers (Nat.max_le.mpr ⟨hnow, hwake⟩)
    | settling hlast htimers hnow => cases hidle
    | leaving hasked hrecent =>
      -- An engine that has been asked to stop does not wait.
      refine absurd ?_ hready
      simp [Phase.ready, hleaving rfl hasked]
    | ended => exact .ended

theorem happen (h : t.Punctual refreshes) {happening : Happening σ}
    (hswift : t.swiftAt happening = true) :
    (t.happen happening).Punctual (refreshes ++ t.refreshesAt happening) := by
  cases happening with
  | step backend => exact h.step backend
  | elsewhere backend work =>
    rw [refreshesAt_eq_nil rfl, List.append_nil]
    exact ⟨h.past, h.place⟩
  | time instant =>
    rw [refreshesAt_eq_nil rfl, List.append_nil]
    exact h.pass (by simpa [swiftAt] using hswift) instant
  | stop request =>
    rw [refreshesAt_eq_nil rfl, List.append_nil]
    have hplace := h.place.mono fun _ => requested_ask (t := t) request
    cases request with
    | pull => exact ⟨h.past, hplace⟩
    | dropTrigger => exact ⟨h.past, hplace⟩

theorem after (h : t.Punctual refreshes) {course : List (Happening σ)}
    (hswift : t.swift course = true) :
    (t.after course).Punctual (refreshes ++ t.refreshes course) := by
  induction course generalizing t refreshes with
  | nil =>
    rw [Timeline.refreshes, List.append_nil]
    exact h
  | cons happening rest ih =>
    obtain ⟨hfirst, hrest⟩ := Bool.and_eq_true_iff.mp hswift
    rw [Timeline.refreshes, ← List.append_assoc]
    exact ih (h.happen hfirst) hrest

end Punctual

/-- While calls take no time, at every instant from the first success until the engine ends the last
success lies back at most one period and the pauses of one sequence of attempts.  There is a first
success once startup is over, unless a stop has been requested. -/
theorem staleness_bounded (plan : Plan) (world : World σ) (patient : Bool)
    (course : List (Happening σ))
    (hswift : swift { plan := plan, world := world, patient := patient } course = true) :
    let fresh : Timeline σ := { plan := plan, world := world, patient := patient }
    let t := fresh.after course
    let last := lastSuccess (fresh.refreshes course)
    t.phase.result? = none →
      (∀ success, last = some success → success ≤ t.now ∧
        t.now ≤ success + (max plan.scheduledEvery.timerMillis 1 +
          plan.retry.baseDelay.timerMillis * (2 ^ plan.retry.budget - 1))) ∧
      (t.phase.startingUp = false → t.channel.requested = false →
        ∃ success, last = some success) := by
  intro fresh t last hgoing
  have h : t.Punctual (fresh.refreshes course) := (punctual_start plan world patient).after hswift
  have hplan : t.plan = plan := plan_after course
  have hplace := h.place
  rw [hplan] at hplace
  refine ⟨?_, hplace.succeeded hgoing⟩
  intro success hsuccess
  exact ⟨h.lastSuccess_le success hsuccess, hplace.recent hgoing success hsuccess⟩

/-- The bound is reached at the end of the last pause of a sequence. -/
theorem staleness_bounded_at_limit :
    let refuse : Backend Unit := fun _ store => (.error ⟨.io, "disk"⟩, store)
    let accept : Backend Unit := fun call store =>
      match call with
      | .refreshView => (.ok (), store)
      | other => refuse other store
    let plan : Plan :=
      { scheduledEvery := .ofSecs 5, dirtyCheckEvery := .ofSecs 60, retry := { attempts := 2 } }
    let failing : List (Happening Unit) :=
      [.step refuse, .step refuse, .step refuse, .time 9000]
    let course : List (Happening Unit) :=
      [.step accept, .step accept, .time 9000] ++ failing ++ failing
    let fresh : Timeline Unit := { plan := plan, world := { store := () }, patient := false }
    let t := fresh.after course
    fresh.swift course = true ∧ t.phase.result? = none ∧
      lastSuccess (fresh.refreshes course) = some 0 ∧ t.now = 5000 + 1000 * (2 ^ 2 - 1) ∧
      t.now ≤ 0 + (max plan.scheduledEvery.timerMillis 1 +
        plan.retry.baseDelay.timerMillis * (2 ^ plan.retry.budget - 1)) := by
  intro refuse accept plan failing course fresh t
  have hswift : fresh.swift course = true := by decide +kernel
  have hgoing : t.phase.result? = none := by decide +kernel
  have hlast : lastSuccess (fresh.refreshes course) = some 0 := by decide +kernel
  have hnow : t.now = 5000 + 1000 * (2 ^ 2 - 1) := by decide +kernel
  have hbound := staleness_bounded plan { store := () } false course hswift hgoing
  exact ⟨hswift, hgoing, hlast, hnow, (hbound.1 0 hlast).2⟩

end Timeline

end Refresh

end ServiceRegistry
