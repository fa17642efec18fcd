import ServiceRegistry.Deployment.Rehearsal
import ServiceRegistry.Proofs.Refresh.Chapter
import ServiceRegistry.Proofs.Refresh.Stopping

/-!
# Stopping a deployment

A deployment that is being served is patient: it lets its startup sequence run, and heeds a request to
stop only afterwards.  So a request during startup changes nothing until startup is over, be it by a
success or because the attempts are used up, and only a deployment that has started up stops at once.

* `Timeline.happen_channel`: during startup, a patient engine does the same whether it has been asked
  to stop or not.
* `Timeline.after_impatient`: after startup, it does the same as one that is not patient.
* `Deployment.stop_is_clean_once_started`: what a request to stop does to a deployment.
-/

namespace ServiceRegistry

namespace Refresh

variable {σ : Type}

theorem Phase.startingUp_carryOn (plan : Plan) (now : Nat) (purpose : Purpose) :
    (carryOn plan now purpose).startingUp = false := by
  rcases carryOn_cases plan now purpose with ⟨timers, hwaits⟩ | ⟨-, -, hends⟩
  · rw [hwaits]
    rfl
  · rw [hends]
    rfl

/-- The engine starts up once. -/
theorem Phase.Move.startingUp {backend : Backend σ} {plan : Plan} {now : Nat} {stop : Bool}
    {phase : Phase} {world : World σ} {calls : List Call} {next : Phase × World σ}
    (h : Phase.Move backend plan now stop phase world calls next)
    (hstarted : phase.startingUp = false) : next.1.startingUp = false := by
  cases h with
  | still hready => exact hstarted
  | @begun purpose _ _ hstop =>
    cases purpose with
    | startup => cases hstarted
    | scheduled timers => rfl
  | @failed purpose _ _ _ _ hreply =>
    cases purpose with
    | startup => cases hstarted
    | scheduled timers => rfl
  | @retried purpose _ _ _ _ hover hleft =>
    cases purpose with
    | startup => cases hstarted
    | scheduled timers => rfl
  | cancelled hstop => exact startingUp_carryOn _ _ _
  | refreshed hreply => exact startingUp_carryOn _ _ _
  | givenUp hstop hspent => exact startingUp_carryOn _ _ _
  | _ => rfl

namespace Timeline

variable {t : Timeline σ}

theorem startingUp_happen (hstarted : t.phase.startingUp = false) (happening : Happening σ) :
    (t.happen happening).phase.startingUp = false := by
  cases hkind : happening.isStep with
  | true =>
    obtain ⟨backend, rfl⟩ := Happening.eq_step hkind
    obtain ⟨next, world, hmove, hstep⟩ := t.move backend
    change (t.step backend).phase.startingUp = false
    rw [hstep]
    exact hmove.startingUp hstarted
  | false =>
    rw [phase_happen hkind]
    exact hstarted

theorem startingUp_after (hstarted : t.phase.startingUp = false) (course : List (Happening σ)) :
    (t.after course).phase.startingUp = false := by
  apply preserved_after (P := fun u => u.phase.startingUp = false) _ hstarted
  intro u happening hbefore
  exact startingUp_happen hbefore happening

/-! ## Before startup is over -/

theorem stopSeen_of_startingUp (hpatient : t.patient = true) (hstarting : t.phase.startingUp = true) :
    t.stopSeen = false := by
  simp [stopSeen, hpatient, hstarting]

theorem happen_channel (hpatient : t.patient = true) (hstarting : t.phase.startingUp = true)
    (channel : StopChannel) (happening : Happening σ) :
    ∃ later, ({ t with channel := channel } : Timeline σ).happen happening =
      { t.happen happening with channel := later } := by
  have hother : ({ t with channel := channel } : Timeline σ).stopSeen = false :=
    stopSeen_of_startingUp hpatient hstarting
  have hseen : ({ t with channel := channel } : Timeline σ).stopSeen = t.stopSeen := by
    rw [hother, stopSeen_of_startingUp hpatient hstarting]
  cases happening with
  | step backend =>
    refine ⟨channel, ?_⟩
    change ({ t with channel := channel } : Timeline σ).step backend = _
    unfold step
    rw [hseen]
    rfl
  | elsewhere backend work => exact ⟨channel, rfl⟩
  | time instant =>
    refine ⟨channel, ?_⟩
    change ({ t with channel := channel } : Timeline σ).pass instant =
      { t.pass instant with channel := channel }
    unfold pass
    rw [hseen]
    split
    · rfl
    · split <;> rfl
  | stop request => cases request <;> exact ⟨_, rfl⟩

/-- While it starts up, a patient engine keeps no account of requests to stop but in its channel. -/
theorem after_channel (hpatient : t.patient = true) (channel : StopChannel)
    (course : List (Happening σ)) (hstarting : (t.after course).phase.startingUp = true) :
    ∃ later, ({ t with channel := channel } : Timeline σ).after course =
      { t.after course with channel := later } := by
  -- From the end, because startup that goes on after a course has gone on all along.
  induction course using List.reverseRecOn with
  | nil => exact ⟨channel, rfl⟩
  | append_singleton course happening ih =>
    rw [after_append] at hstarting
    have hbefore : (t.after course).phase.startingUp = true := by
      cases hover : (t.after course).phase.startingUp with
      | true => rfl
      | false => exact (startingUp_happen hover happening).symm.trans hstarting
    obtain ⟨later, hlater⟩ := ih hbefore
    rw [after_append, after_append, hlater]
    exact happen_channel ((patient_after course).trans hpatient) hbefore later happening

theorem ask_eq (t : Timeline σ) (request : StopRequest) :
    ∃ channel, t.ask request = { t with channel := channel } := by
  cases request <;> exact ⟨_, rfl⟩

/-! ## Once startup is over -/

/-- The same engine, that heeds a request to stop at once. -/
def impatient (t : Timeline σ) : Timeline σ := { t with patient := false }

theorem stopSeen_impatient (hstarted : t.phase.startingUp = false) :
    t.impatient.stopSeen = t.stopSeen := by
  simp [stopSeen, impatient, hstarted]

theorem happen_impatient (hstarted : t.phase.startingUp = false) (happening : Happening σ) :
    t.impatient.happen happening = (t.happen happening).impatient := by
  have hseen := stopSeen_impatient hstarted
  cases happening with
  | step backend =>
    change t.impatient.step backend = (t.step backend).impatient
    unfold step
    rw [hseen]
    rfl
  | elsewhere backend work => rfl
  | time instant =>
    change t.impatient.pass instant = (t.pass instant).impatient
    unfold pass
    rw [hseen]
    change (if t.phase.inFlight = true then _ else if t.phase.ready t.now t.stopSeen = true then _
      else _) = _
    split
    · rfl
    · split <;> rfl
  | stop request => cases request <;> rfl

theorem callsAt_impatient (hstarted : t.phase.startingUp = false) (happening : Happening σ) :
    t.impatient.callsAt happening = t.callsAt happening := by
  cases happening with
  | step backend =>
    unfold callsAt
    rw [stopSeen_impatient hstarted]
    rfl
  | _ => rfl

theorem after_impatient (hstarted : t.phase.startingUp = false) (course : List (Happening σ)) :
    t.impatient.after course = (t.after course).impatient := by
  induction course generalizing t with
  | nil => rfl
  | cons happening rest ih =>
    change (t.impatient.happen happening).after rest = ((t.happen happening).after rest).impatient
    rw [happen_impatient hstarted]
    exact ih (startingUp_happen hstarted happening)

theorem calls_impatient (hstarted : t.phase.startingUp = false) (course : List (Happening σ)) :
    t.impatient.calls course = t.calls course := by
  induction course generalizing t with
  | nil => rfl
  | cons happening rest ih =>
    rw [calls, calls, callsAt_impatient hstarted, happen_impatient hstarted,
      ih (startingUp_happen hstarted happening)]

theorem requested_after (h : t.channel.requested = true) (course : List (Happening σ)) :
    (t.after course).channel.requested = true := by
  apply preserved_after (P := fun u => u.channel.requested = true) _ h
  intro u happening hasked
  exact requested_happen hasked happening

/-- Once it has started up on a clock without end, an engine that is asked to stop and has not failed
ends cleanly. -/
theorem clean_after (hendless : t.plan.clockEnd = none) (hstarted : t.phase.startingUp = false)
    (hstopping : t.impatient.Stopping) (rest : List (Happening σ)) :
    (t.calls rest = [] ∨ t.phase.inFlight = true ∧ t.calls rest = [.refreshView]) ∧
      ((t.after rest).phase.inFlight = false → (t.after rest).phase.result? = none →
        ∀ happening, ((t.after rest).happen happening).now = (t.after rest).now) ∧
      (∀ result, (t.after rest).phase.result? = some result → result = .ok ()) ∧
      (4 ≤ rest.countP Happening.isStep → (t.after rest).phase.result? = some (.ok ())) := by
  have hafter := hstopping.after rest
  have hcourse := hstopping.course rest
  have hsteps := hstopping.stepsLeft_after rest
  rw [after_impatient hstarted] at hafter hcourse hsteps
  rw [calls_impatient hstarted] at hcourse
  have hclean {result : Except RefreshFailure Unit} (hended : (t.after rest).phase = .ended result) :
      result = .ok () := by
    refine hafter.result_eq_ok (Plan.fits_of_endless ?_ _) hended
    rw [← hendless]
    exact congrArg Plan.clockEnd (plan_after rest)
  refine ⟨?_, fun hidle hgoing happening => ?_, fun result hresult => ?_, fun hcount => ?_⟩
  · rcases hcourse with ⟨-, hnone⟩ | ⟨-, hcalls⟩
    · exact Or.inl hnone
    · exact hcalls
  · have hnow := hafter.now_happen hidle hgoing happening
    rw [happen_impatient (startingUp_after hstarted rest)] at hnow
    exact hnow
  · exact hclean (Phase.eq_ended_of_result hresult)
  · have hmost := t.phase.stepsLeft_le
    have hspent : (t.after rest).phase.stepsLeft = 0 := by
      change (t.after rest).phase.stepsLeft ≤ t.phase.stepsLeft - _ at hsteps
      omega
    obtain ⟨result, hended⟩ := Phase.ended_of_stepsLeft hspent
    rw [hended, hclean hended]
    rfl

end Timeline

end Refresh

namespace Deployment

open Refresh

variable (d : Deployment) (before : List (Happening RecordStore)) (request : StopRequest)

/-- A deployment that is asked to stop goes on as if it had not been until its startup is over.  From
then on, unless it has failed, it calls for no refresh but one in flight, lets no time pass but for
that one, and ends cleanly. -/
theorem stop_is_clean_once_started (course : List (Happening RecordStore)) :
    let going := d.timeline.after before
    let asked := going.ask request
    let t := asked.after course
    ((going.after course).phase.startingUp = true → ∀ happening, ∃ channel,
      t.happen happening = { (going.after course).happen happening with channel := channel }) ∧
    (t.phase.startingUp = false →
      (∃ failure, t.phase = .ended (.error failure) ∧ t.Logged failure) ∨
      ∀ rest,
        (t.calls rest = [] ∨ t.phase.inFlight = true ∧ t.calls rest = [.refreshView]) ∧
        ((t.after rest).phase.inFlight = false → (t.after rest).phase.result? = none →
          ∀ happening, ((t.after rest).happen happening).now = (t.after rest).now) ∧
        (∀ result, (t.after rest).phase.result? = some result → result = .ok ()) ∧
        (4 ≤ rest.countP Happening.isStep → (t.after rest).phase.result? = some (.ok ()))) := by
  intro going asked t
  refine ⟨fun hstarting happening => ?_, fun hstarted => ?_⟩
  · have hpatient : going.patient = true := Timeline.patient_after before
    obtain ⟨channel, hasked⟩ := going.ask_eq request
    obtain ⟨later, hlater⟩ := Timeline.after_channel hpatient channel course hstarting
    have ht : t = { going.after course with channel := later } := by
      rw [← hlater, ← hasked]
    rw [ht]
    exact Timeline.happen_channel ((Timeline.patient_after course).trans hpatient) hstarting later
      happening
  · have hendless : t.plan.clockEnd = none := by
      have hplan : t.plan = d.timeline.plan :=
        (Timeline.plan_after course).trans
          ((Timeline.plan_happen (.stop request)).trans (Timeline.plan_after before))
      rw [hplan]
      rfl
    have hexplained : ∀ failure, t.phase = .ended (.error failure) → t.Explained failure :=
      Timeline.failure_explained (fun _ hphase => Timeline.explained_happen
        (Timeline.failure_explained (t := d.timeline) (fun _ h => nomatch h) before)
        (.stop request) hphase) course
    by_cases hfailed : ∃ failure, t.phase = .ended (.error failure)
    · obtain ⟨failure, hphase⟩ := hfailed
      rcases hexplained failure hphase with hlogged | ⟨-, hfits⟩
      · exact Or.inl ⟨failure, hphase, hlogged⟩
      · cases (Plan.fits_of_endless hendless t.now).symm.trans hfits
    · have hstopping : t.impatient.Stopping :=
        ⟨Timeline.requested_after (Timeline.requested_ask request) course, rfl,
          fun failure hphase => absurd ⟨failure, hphase⟩ hfailed⟩
      exact Or.inr (Timeline.clean_after hendless hstarted hstopping)

/-- A request to stop in the pause of the startup sequence is not heeded: no sequence is exhausted when
it comes, and yet the deployment fails when the pause is over. -/
theorem stop_in_startup_fails :
    let settings : Settings :=
      { store := { kind := .memory }, sync := { retryAttempts := 1 }, log := { sink := .none } }
    let d : Deployment := { settings := settings, store := .memory { pendingFailures := 1 } }
    let backend := RecordStore.answer 0
    let fault : Fault := ⟨.other, "injected refresh failure"⟩
    let asked := (d.timeline.advance backend 500).pull
    let served := asked.advance backend 2000
    settings.check = .ok () ∧ asked.now = 500 ∧ asked.phase.startingUp = true ∧
      asked.phase.wake? = some 1000 ∧
      asked.log.all (fun entry => !entry.2.tellsExhaustion) = true ∧
      served.phase.result? = some (.error (.startupExhausted 1 fault)) ∧
      served.log.back? =
        some (1000, .refresh .startup 1 .exhausted (some fault.message)) := by
  intro settings d backend fault asked served
  have hpause : asked.now = 500 ∧ asked.phase.startingUp = true ∧
      asked.phase.wake? = some 1000 := by decide +kernel
  have hlog : asked.log.all (fun entry => !entry.2.tellsExhaustion) = true := by decide +kernel
  have hresult : served.phase.result? = some (.error (.startupExhausted 1 fault)) := by
    decide +kernel
  have hlast : served.log.back? =
      some (1000, .refresh .startup 1 .exhausted (some fault.message)) := by decide +kernel
  exact ⟨rfl, hpause.1, hpause.2.1, hpause.2.2, hlog, hresult, hlast⟩

end Deployment

end ServiceRegistry
