import ServiceRegistry.Proofs.Refresh.Cadence
import ServiceRegistry.Proofs.Refresh.Stopping

/-!
# The engine keeps to its schedule

On a timeline over a store whose refreshes succeed, others mark at some instants that a refresh is owed,
and at another the engine is asked to stop.

* `Timeline.OnSchedule` is the invariant until then: the log, and what is still to be refreshed for now,
  are the schedule.  `Timeline.OnSchedule.advance` keeps it up to any instant.
* `Timeline.Retiring` is the invariant from then on.
* `Timeline.refreshes_follow_schedule`: the log of an engine from its start to its end.
-/

namespace ServiceRegistry.Refresh.Timeline

variable {σ : Type}

/-- A refresh is marked as owed at an instant, up to which the engine has done what was due. -/
def mark (backend : Backend σ) (t : Timeline σ) (instant : Nat) : Timeline σ :=
  ((t.advance backend instant).perform backend Procedure.markOwed).2

def marked (backend : Backend σ) (marks : List Nat) (t : Timeline σ) : Timeline σ :=
  marks.foldl (mark backend) t

/-- The log and what is still to be refreshed for now are the schedule. -/
structure OnSchedule (backend : Backend σ) (store : σ) (period check : Nat) (marks : List Nat)
    (t : Timeline σ) : Prop where
  unasked : t.channel.requested = false
  past : ∀ mark ∈ marks, mark ≤ t.now
  store_eq : t.world.store = backend.refreshed^[t.log.size] store
  calm : t.world.events = []
  post : ∃ ahead, Post t.plan period check marks t.now t.world.owed t.phase ahead ∧
    t.log.toList ++ stamped t.now ahead = schedule period check marks (t.now + 1)

/-- A mark is not logged. -/
theorem log_markOwed {t : Timeline σ} (hcalm : t.world.events = []) (backend : Backend σ) :
    (t.perform backend Procedure.markOwed).2.log = t.log := by
  rw [log_perform]
  change t.log ++ (t.world.events.map _).toArray = t.log
  rw [hcalm]
  exact Array.append_empty

namespace OnSchedule

variable {backend : Backend σ} {store : σ} {period check horizon : Nat} {marks : List Nat}
  {t : Timeline σ}

theorem stopSeen (h : t.OnSchedule backend store period check marks) : t.stopSeen = false := by
  rw [Timeline.stopSeen, h.unasked, Bool.false_and]

theorem step (h : t.OnSchedule backend store period check marks)
    (hrefreshes : backend.AlwaysRefreshes store) (hready : t.phase.ready t.now t.stopSeen = true) :
    (t.step backend).OnSchedule backend store period check marks ∧ (t.step backend).now = t.now ∧
      (t.step backend).phase.stepsNow t.now < t.phase.stepsNow t.now := by
  obtain ⟨next, world, hmove, hstep⟩ := t.move backend
  rw [h.stopSeen] at hmove hready
  obtain ⟨ahead, hpost, hlog⟩ := h.post
  have hreply := hrefreshes.reply t.log.size
  rw [← h.store_eq] at hreply
  obtain ⟨done, left, rfl, hnext, hevents, hstore, hfewer⟩ := hmove.post hready hpost h.past hreply
  have hnew : world.events.map (fun event => (t.now, event)) = stamped t.now done := by
    rw [hevents, h.calm, List.nil_append, stamped, List.map_map]
    rfl
  rw [hstep, hnew]
  refine ⟨⟨h.unasked, h.past, ?_, rfl, left, hnext, ?_⟩, rfl, hfewer⟩
  · rw [hstore, h.store_eq, ← Function.iterate_add_apply]
    simp [stamped, Nat.add_comm]
  · rw [← hlog]
    simp

/-- Where there is no step to take, the clock may go on to the next tick. -/
theorem wakes (h : t.OnSchedule backend store period check marks)
    (hidle : ¬ t.phase.ready t.now t.stopSeen = true) :
    ∃ wake, t.phase.wake? = some wake ∧ ∀ instant, t.now < instant → instant ≤ wake →
      OnSchedule backend store period check marks { t with now := instant } := by
  rw [h.stopSeen] at hidle
  obtain ⟨ahead, hpost, hlog⟩ := h.post
  obtain ⟨plan, world, patient, now, channel, phase, log⟩ := t
  cases hpost with
  | attempting hgoes hkept hhandled => exact absurd rfl hidle
  | refreshing hgoes hkept hhandled => exact absurd rfl hidle
  | settling hkept hlater hhandled => exact absurd rfl hidle
  | @waiting timers hkept =>
    obtain ⟨hscheduled, hcheck⟩ := Nat.lt_min.mp (Phase.lt_wake hidle rfl)
    refine ⟨_, rfl, fun instant hafter huntil => ?_⟩
    obtain ⟨hfirst, hsecond⟩ := Nat.le_min.mp huntil
    -- Nothing falls between two instants at which the engine stands.
    have hidle' : ∀ between, now + 1 ≤ between → between < instant →
        causesAt period check marks between = [] := by
      intro between hfrom hto
      have hs := Nat.lt_of_lt_of_le hto hfirst
      have hd := Nat.lt_of_lt_of_le hto hsecond
      rw [hkept.causesAt_eq h.past hfrom (Nat.le_of_lt hs) (Nat.le_of_lt hd)]
      exact Timers.ahead_eq_nil hs hd
    refine ⟨h.unasked, fun mark hmark => Nat.le_trans (h.past mark hmark) (Nat.le_of_lt hafter),
      h.store_eq, h.calm, timers.ahead instant world.owed,
      .waiting (hkept.later (Nat.le_of_lt hafter) hfirst hsecond), ?_⟩
    rw [Timers.ahead_eq_nil hscheduled hcheck] at hlog
    rw [schedule_succ, schedule_eq_of_idle hafter hidle', ← hlog,
      hkept.causesAt_eq h.past hafter hfirst hsecond]
    simp [stamped]

theorem advanceWithin (h : t.OnSchedule backend store period check marks)
    (hrefreshes : backend.AlwaysRefreshes store) {fuel : Nat} (hbefore : t.now ≤ horizon)
    (hfuel : 6 * (horizon - t.now) + t.phase.stepsNow t.now ≤ fuel) :
    (t.advanceWithin backend horizon fuel).OnSchedule backend store period check marks ∧
      (t.advanceWithin backend horizon fuel).now = horizon := by
  induction fuel generalizing t with
  | zero =>
    have hnow : t.now = horizon := by omega
    exact ⟨h, hnow⟩
  | succ fuel ih =>
    unfold Timeline.advanceWithin
    by_cases hgoing : t.now < horizon
    · rw [if_pos hgoing]
      by_cases hready : t.phase.ready t.now t.stopSeen = true
      · obtain ⟨hnext, hnow, hfewer⟩ := h.step hrefreshes hready
        rw [if_pos hready]
        apply ih hnext
        · rw [hnow]
          exact hbefore
        · rw [hnow]
          omega
      · -- The clock goes on by a millisecond at least, which pays for the steps at the next instant.
        obtain ⟨wake, hwake, hthere⟩ := h.wakes hready
        have hlater : t.now < min wake horizon :=
          Nat.lt_min.mpr ⟨Phase.lt_wake hready hwake, hgoing⟩
        have hsteps := t.phase.stepsNow_le (min wake horizon)
        rw [if_neg hready, hwake]
        apply ih (hthere _ hlater (Nat.min_le_left _ _)) (Nat.min_le_right _ _)
        change 6 * (horizon - min wake horizon) + t.phase.stepsNow (min wake horizon) ≤ fuel
        omega
    · rw [if_neg hgoing]
      exact ⟨h, Nat.le_antisymm hbefore (Nat.le_of_not_lt hgoing)⟩

theorem advance (h : t.OnSchedule backend store period check marks)
    (hrefreshes : backend.AlwaysRefreshes store) (hbefore : t.now ≤ horizon) :
    (t.advance backend horizon).OnSchedule backend store period check marks ∧
      (t.advance backend horizon).now = horizon := by
  apply h.advanceWithin hrefreshes hbefore
  have hsteps := t.phase.stepsNow_le t.now
  have hbound : (horizon + 1) * 56 ≤ stepBound t.plan horizon :=
    Nat.mul_le_mul_left _ (Nat.mul_le_mul_left 14 (Nat.le_add_left 4 (3 * t.plan.retry.budget)))
  omega

theorem performMark (h : t.OnSchedule backend store period check marks) (hoff : ¬ check ∣ t.now) :
    (t.perform backend Procedure.markOwed).2.OnSchedule backend store period check
      (marks ++ [t.now]) := by
  obtain ⟨ahead, hpost, hlog⟩ := h.post
  have hsame := log_markOwed h.calm backend
  refine ⟨h.unasked, ?_, ?_, rfl, ahead, hpost.marked hoff, ?_⟩
  · intro mark hmark
    rcases List.mem_append.mp hmark with hold | hnew
    · exact h.past mark hold
    · exact Nat.le_of_eq (List.mem_singleton.mp hnew)
  · rw [hsame]
    exact h.store_eq
  · have hlater : ∀ mark ∈ [t.now], t.now + 1 ≤ mark + 1 := by simp
    rw [hsame]
    exact hlog.trans (schedule_append_of_later hlater).symm

theorem mark (h : t.OnSchedule backend store period check marks)
    (hrefreshes : backend.AlwaysRefreshes store) {instant : Nat} (hfuture : t.now ≤ instant)
    (hoff : ¬ check ∣ instant) :
    (t.mark backend instant).OnSchedule backend store period check (marks ++ [instant]) ∧
      (t.mark backend instant).now = instant := by
  obtain ⟨hthere, hnow⟩ := h.advance hrefreshes hfuture
  rw [← hnow] at hoff
  have hmarked := hthere.performMark hoff
  rw [hnow] at hmarked
  exact ⟨hmarked, hnow⟩

theorem marked (h : t.OnSchedule backend store period check marks)
    (hrefreshes : backend.AlwaysRefreshes store) {new : List Nat} (hsorted : new.Pairwise (· ≤ ·))
    (hfuture : ∀ mark ∈ new, t.now ≤ mark) (hoff : ∀ mark ∈ new, ¬ check ∣ mark)
    (hnow : t.now ≤ horizon) (hbefore : ∀ mark ∈ new, mark ≤ horizon) :
    (t.marked backend new).OnSchedule backend store period check (marks ++ new) ∧
      (t.marked backend new).now ≤ horizon := by
  induction new generalizing t marks with
  | nil =>
    rw [List.append_nil]
    exact ⟨h, hnow⟩
  | cons first rest ih =>
    obtain ⟨hfirst, hrest⟩ := List.pairwise_cons.mp hsorted
    obtain ⟨hnext, hthere⟩ := h.mark hrefreshes (hfuture first List.mem_cons_self)
      (hoff first List.mem_cons_self)
    rw [List.append_cons]
    apply ih hnext hrest
    · rw [hthere]
      exact hfirst
    · exact fun mark hmark => hoff mark (List.mem_cons_of_mem _ hmark)
    · rw [hthere]
      exact hbefore first List.mem_cons_self
    · exact fun mark hmark => hbefore mark (List.mem_cons_of_mem _ hmark)

/-- Off both tickers the engine waits, and all refreshes before are in the log. -/
theorem between (h : t.OnSchedule backend store period check marks) (hscheduled : ¬ period ∣ t.now)
    (hcheck : ¬ check ∣ t.now) :
    (∃ timers, t.phase = .waiting timers) ∧
      t.log.toList = schedule period check marks t.now := by
  obtain ⟨ahead, hpost, hlog⟩ := h.post
  have hpos : 0 < t.now := Nat.pos_of_ne_zero fun hzero => hscheduled (hzero ▸ Nat.dvd_zero period)
  have hnone : causesAt period check marks t.now = [] := by
    rw [causesAt_eq hpos, if_neg hscheduled, if_neg fun hdue => hcheck hdue.1]
    rfl
  rw [schedule_succ, hnone] at hlog
  generalize t.phase = phase at hpost
  cases hpost with
  | attempting hgoes hkept hhandled => exact absurd (hkept.scheduled.dvd_now hhandled) hscheduled
  | refreshing hgoes hkept hhandled => exact absurd (hkept.scheduled.dvd_now hhandled) hscheduled
  | settling hkept hlater hhandled => exact absurd (hkept.dirtyCheck.dvd_now hhandled) hcheck
  | @waiting timers hkept =>
    have hidle : timers.ahead t.now t.world.owed = [] := by
      rw [Timers.ahead, hkept.checkAhead_eq_nil hcheck, List.append_nil]
      refine if_neg fun hdue => hscheduled ?_
      rw [← hdue]
      exact hkept.scheduled.dvd
    rw [hidle] at hlog
    exact ⟨⟨timers, rfl⟩, by simpa [stamped] using hlog⟩

end OnSchedule

/-- The tickers of a plan whose intervals are whole milliseconds. -/
theorem onSchedule_start {plan : Plan} {period check : Nat}
    (hscheduled : plan.scheduledEvery.totalNanos = period * 1000000)
    (hcheck : plan.dirtyCheckEvery.totalNanos = check * 1000000)
    (hperiod : 1 ≤ period) (hcheck' : 1 ≤ check) (hfits : plan.fits 0 = true) (backend : Backend σ)
    (store : σ) (patient : Bool) : OnSchedule backend store period check []
      { plan := plan, world := { store := store }, patient := patient } := by
  have hstart (span : Span) (millis : Nat) (hspan : span.totalNanos = millis * 1000000)
      (hpos : 1 ≤ millis) : Ticker.start span.timerMillis 0 = ⟨millis, 0 + millis⟩ := by
    have hmillis : span.timerMillis = millis := by
      rw [Span.timerMillis, hspan]
      omega
    rw [Ticker.start, hmillis, Nat.max_eq_left hpos]
  have htimers : plan.timers 0 = ⟨⟨period, 0 + period⟩, ⟨check, 0 + check⟩⟩ := by
    rw [Plan.timers, hstart _ period hscheduled hperiod, hstart _ check hcheck hcheck']
  have hkept : (plan.timers 0).Kept period check [] 0 false := by
    rw [htimers]
    refine ⟨⟨hperiod, rfl, by simp, Nat.zero_le _, Nat.le_refl _⟩,
      ⟨hcheck', rfl, by simp, Nat.zero_le _, Nat.le_refl _⟩, by simp⟩
  have hhandled : (plan.timers 0).scheduled.deadline = 0 + period := by rw [htimers]
  have hnone : (plan.timers 0).checkAhead 0 false = [] :=
    if_neg fun hdue => Bool.false_ne_true hdue.2
  refine ⟨rfl, fun _ => nofun, rfl, rfl, _, Post.attempting (if_pos hfits) hkept hhandled, ?_⟩
  rw [Purpose.timers, hnone]
  rfl

/-- The engine waited when it was asked to stop, and has done nothing since but end. -/
structure Retiring (entries : List (Nat × Event)) (store : σ) (stop : Nat) (t : Timeline σ) :
    Prop where
  requested : t.channel.requested = true
  log_eq : t.log.toList = entries
  store_eq : t.world.store = store
  calm : t.world.events = []
  place : t.phase = .ended (.ok ()) ∨ (∃ timers, t.phase = .waiting timers) ∧ t.now = stop

theorem advanceWithin_of_ended {t : Timeline σ} {result : Except RefreshFailure Unit}
    (h : t.phase = .ended result) (backend : Backend σ) (horizon fuel : Nat) :
    ∃ now, t.advanceWithin backend horizon fuel = { t with now := now } := by
  cases fuel with
  | zero => exact ⟨t.now, rfl⟩
  | succ fuel =>
    unfold advanceWithin
    split
    · rw [h]
      exact ⟨horizon, rfl⟩
    · exact ⟨t.now, rfl⟩

namespace Retiring

variable {entries : List (Nat × Event)} {store : σ} {stop : Nat} {t : Timeline σ}

theorem stopSeen (h : t.Retiring entries store stop) {timers : Timers}
    (hwaits : t.phase = .waiting timers) : t.stopSeen = true := by
  apply stopSeen_of_requested _ h.requested
  rw [hwaits]
  rfl

theorem step (h : t.Retiring entries store stop) {timers : Timers}
    (hwaits : t.phase = .waiting timers) (backend : Backend σ) :
    (t.step backend).Retiring entries store stop ∧ (t.step backend).phase = .ended (.ok ()) := by
  obtain ⟨next, world, hmove, hstep⟩ := t.move backend
  rw [h.stopSeen hwaits, hwaits] at hmove
  generalize t.callsAt (.step backend) = calls at hmove
  cases hmove with
  | still hready => cases hready
  | scheduled hgoing => cases hgoing
  | clean hgoing => cases hgoing
  | dirty hgoing => cases hgoing
  | stopped =>
    rw [hstep]
    refine ⟨⟨h.requested, ?_, h.store_eq, rfl, Or.inl rfl⟩, rfl⟩
    rw [h.calm]
    simpa using h.log_eq

theorem advanceWithin_of_ended (h : t.Retiring entries store stop)
    (hended : t.phase = .ended (.ok ())) (backend : Backend σ) (horizon fuel : Nat) :
    (t.advanceWithin backend horizon fuel).Retiring entries store stop ∧
      (t.advanceWithin backend horizon fuel).phase = .ended (.ok ()) := by
  obtain ⟨now, heq⟩ := Timeline.advanceWithin_of_ended hended backend horizon fuel
  rw [heq]
  exact ⟨⟨h.requested, h.log_eq, h.store_eq, h.calm, Or.inl hended⟩, hended⟩

theorem advance (h : t.Retiring entries store stop) (backend : Backend σ) (horizon : Nat) :
    (t.advance backend horizon).Retiring entries store stop ∧
      (stop < horizon → (t.advance backend horizon).phase = .ended (.ok ())) := by
  rcases h.place with hended | ⟨⟨timers, hwaits⟩, hnow⟩
  · obtain ⟨hretiring, hended⟩ := h.advanceWithin_of_ended hended backend horizon
      (stepBound t.plan horizon)
    exact ⟨hretiring, fun _ => hended⟩
  · have hbound : 0 < stepBound t.plan horizon :=
      Nat.mul_pos (Nat.succ_pos horizon) (Nat.mul_pos (by decide) (Nat.succ_pos _))
    obtain ⟨fuel, hfuel⟩ := Nat.exists_eq_succ_of_ne_zero (Nat.ne_of_gt hbound)
    rw [Timeline.advance, hfuel]
    unfold advanceWithin
    by_cases hbefore : t.now < horizon
    · have hready : t.phase.ready t.now t.stopSeen = true := by
        rw [h.stopSeen hwaits, hwaits]
        rfl
      obtain ⟨hretiring, hended⟩ := h.step hwaits backend
      rw [if_pos hbefore, if_pos hready]
      obtain ⟨hretiring, hended⟩ := hretiring.advanceWithin_of_ended hended backend horizon fuel
      exact ⟨hretiring, fun _ => hended⟩
    · rw [if_neg hbefore]
      exact ⟨h, fun hlater => absurd (hnow ▸ hlater) hbefore⟩

theorem mark (h : t.Retiring entries store stop) (backend : Backend σ) (instant : Nat) :
    (t.mark backend instant).Retiring entries store stop := by
  obtain ⟨hthere, -⟩ := h.advance backend instant
  refine ⟨hthere.requested, ?_, hthere.store_eq, rfl, hthere.place⟩
  rw [Timeline.mark, log_markOwed hthere.calm]
  exact hthere.log_eq

theorem marked (h : t.Retiring entries store stop) (backend : Backend σ) (marks : List Nat) :
    (t.marked backend marks).Retiring entries store stop := by
  induction marks generalizing t with
  | nil => exact h
  | cons first rest ih => exact ih (h.mark backend first)

end Retiring

theorem OnSchedule.asked {backend : Backend σ} {store : σ} {period check : Nat} {marks : List Nat}
    {t : Timeline σ} (h : t.OnSchedule backend store period check marks)
    (hwaits : ∃ timers, t.phase = .waiting timers) (request : StopRequest) :
    (t.ask request).Retiring t.log.toList (backend.refreshed^[t.log.toList.length] store) t.now := by
  have hrequested := t.requested_ask request
  cases request with
  | pull => exact ⟨hrequested, rfl, h.store_eq, h.calm, Or.inr ⟨hwaits, rfl⟩⟩
  | dropTrigger => exact ⟨hrequested, rfl, h.store_eq, h.calm, Or.inr ⟨hwaits, rfl⟩⟩

/-- The refreshes of an engine over a store whose refreshes succeed and take no time, from its start
until it is asked to stop between two ticks, are the schedule: each mark is served once and within one
interval of the checks, unless the stop comes before.  The clock has to reach one interval past the
stop, so that every tick until then has a next one. -/
theorem refreshes_follow_schedule {backend : Backend σ} {store : σ} {plan : Plan}
    {period check stop horizon : Nat} {early late : List Nat} (patient : Bool)
    (request : StopRequest) (hperiod : 1 ≤ period) (hcheck : 1 ≤ check)
    (hscheduledEvery : plan.scheduledEvery.totalNanos = period * 1000000)
    (hcheckEvery : plan.dirtyCheckEvery.totalNanos = check * 1000000)
    (hfits : plan.fits stop = true) (hrefreshes : backend.AlwaysRefreshes store)
    (hsorted : (early ++ late).Pairwise (· ≤ ·)) (hmarks : ∀ mark ∈ early ++ late, ¬ check ∣ mark)
    (hearly : ∀ mark ∈ early, mark ≤ stop) (hlate : ∀ mark ∈ late, stop ≤ mark)
    (hstop : ¬ period ∣ stop ∧ ¬ check ∣ stop) (hhorizon : stop < horizon) :
    let start : Timeline σ := { plan := plan, world := { store := store }, patient := patient }
    let asked := ((start.marked backend early).advance backend stop).ask request
    let t := (asked.marked backend late).advance backend horizon
    t.phase = .ended (.ok ()) ∧
      t.log.toList = schedule period check (early ++ late) stop ∧
      t.world.store = backend.refreshed^[t.log.size] store ∧
      (∀ mark ∈ early ++ late, let served := nextCheck check mark
        mark < served ∧ served ≤ mark + check ∧
          (served < stop → t.log.toList.count (served, refreshEvent .dirty) = 1)) ∧
      ∀ instant, (instant, refreshEvent .dirty) ∈ t.log.toList →
        ∃ mark ∈ early ++ late, instant = nextCheck check mark := by
  intro start asked t
  have hstart : start.OnSchedule backend store period check [] :=
    onSchedule_start hscheduledEvery hcheckEvery hperiod hcheck
      (Plan.fits_of_le (Nat.zero_le stop) hfits) backend store patient
  obtain ⟨hearlier, -, hlater⟩ := List.pairwise_append.mp hsorted
  obtain ⟨hmarked, hnow⟩ := hstart.marked hrefreshes hearlier (fun mark _ => Nat.zero_le mark)
    (fun mark hmark => hmarks mark (List.mem_append_left _ hmark)) (Nat.zero_le stop) hearly
  obtain ⟨hthere, hnow⟩ := hmarked.advance hrefreshes hnow
  rw [← hnow] at hstop
  obtain ⟨hwaits, hlog⟩ := hthere.between hstop.1 hstop.2
  rw [hnow, List.nil_append] at hlog
  have hmarks' : schedule period check (early ++ late) stop = schedule period check early stop :=
    schedule_append_of_later fun mark hmark => Nat.le_succ_of_le (hlate mark hmark)
  rw [← hmarks'] at hlog
  have hasked := hthere.asked hwaits request
  rw [hnow, hlog] at hasked
  obtain ⟨hretiring, hended⟩ := (hasked.marked backend late).advance backend horizon
  have hsize : t.log.size = (schedule period check (early ++ late) stop).length :=
    congrArg List.length hretiring.log_eq
  refine ⟨hended hhorizon, hretiring.log_eq, ?_, ?_, ?_⟩
  · rw [hsize]
    exact hretiring.store_eq
  · intro mark hmark served
    refine ⟨lt_nextCheck hcheck mark, nextCheck_le check mark, fun hbefore => ?_⟩
    rw [hretiring.log_eq]
    exact count_nextCheck hcheck hmark (hmarks mark hmark) hbefore
  · intro instant hmem
    rw [hretiring.log_eq] at hmem
    exact exists_mark_of_mem hmem

/-- Two marks before one check, none before the next, and a check that coincides with a scheduled
refresh, on a clock that ends one interval after the stop. -/
theorem refreshes_follow_schedule_at_common_tick :
    let backend : Backend Memory := Memory.answer 0
    let plan : Plan :=
      { scheduledEvery := .ofMillis 6, dirtyCheckEvery := .ofMillis 4, clockEnd := some 19000000 }
    let start : Timeline Memory := { plan := plan, world := { store := {} }, patient := false }
    let asked := ((start.marked backend [1, 3, 9]).advance backend 13).ask .dropTrigger
    let t := (asked.marked backend [13, 15]).advance backend 20
    plan.scheduledEvery.totalNanos = 6 * 1000000 ∧ plan.dirtyCheckEvery.totalNanos = 4 * 1000000 ∧
      plan.fits 13 = true ∧ backend.AlwaysRefreshes {} ∧ (¬ 6 ∣ 13 ∧ ¬ 4 ∣ 13) ∧
      (∀ mark ∈ [1, 3, 9, 13, 15], ¬ 4 ∣ mark) ∧
      t.phase = .ended (.ok ()) ∧ t.world.store.refreshes = 5 ∧
      t.log.toList = [(0, .refresh .startup 1 .refreshed none), (4, .refresh .dirty 1 .refreshed none),
        (6, .refresh .scheduled 1 .refreshed none), (12, .refresh .scheduled 1 .refreshed none),
        (12, .refresh .dirty 1 .refreshed none)] := by
  intro backend plan start asked t
  have hscheduledEvery : plan.scheduledEvery.totalNanos = 6 * 1000000 := by decide
  have hcheckEvery : plan.dirtyCheckEvery.totalNanos = 4 * 1000000 := by decide
  have hfits : plan.fits 13 = true := by decide
  have hrefreshes : backend.AlwaysRefreshes {} := Memory.alwaysRefreshes 0 rfl
  have hmarks : ∀ mark ∈ [1, 3, 9] ++ [13, 15], ¬ 4 ∣ mark := by decide
  have hstop : ¬ 6 ∣ 13 ∧ ¬ 4 ∣ 13 := by decide
  have hschedule : schedule 6 4 ([1, 3, 9] ++ [13, 15]) 13 =
      [(0, .refresh .startup 1 .refreshed none), (4, .refresh .dirty 1 .refreshed none),
        (6, .refresh .scheduled 1 .refreshed none), (12, .refresh .scheduled 1 .refreshed none),
        (12, .refresh .dirty 1 .refreshed none)] := by decide
  have hkept := refreshes_follow_schedule false .dropTrigger (by decide) (by decide) hscheduledEvery
    hcheckEvery hfits hrefreshes (by decide) hmarks (by decide) (by decide) hstop (by decide : 13 < 20)
  extract_lets at hkept
  obtain ⟨hended, hlog, hstore, -⟩ := hkept
  rw [hschedule] at hlog
  have hsize : t.log.size = 5 := by
    rw [← Array.length_toList, hlog]
    rfl
  have hcount : t.world.store.refreshes = 5 := by
    rw [hstore, hsize]
    rfl
  exact ⟨hscheduledEvery, hcheckEvery, hfits, hrefreshes, hstop, hmarks, hended, hcount, hlog⟩

end ServiceRegistry.Refresh.Timeline
