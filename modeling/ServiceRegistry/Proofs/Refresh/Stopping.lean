import ServiceRegistry.Proofs.Refresh.Course

/-!
# Stopping is prompt and clean

Once an engine has been asked to stop, in either way and wherever it stands, each of its steps takes
it nearer to its end, and no step begins a refresh.  A refresh in flight is the only thing that it
waits for, and its end is clean.  There are two exceptions.  An engine that had failed before has the
exhausted sequence in its log; and on a clock that ends less than one interval after startup the task of
the engine fails, because it starts its tickers before it looks for a request to stop.

* `Phase.Heeds` is what a step does once a stop is seen, and `Phase.Move.heeds` that it does.
* `Timeline.Stopping` is the invariant of an engine that has been asked to stop.
* `Phase.Barred` is the invariant of an engine that does not get past its startup, because the clock
  ends before a ticker could be due.
* `Timeline.stop_is_prompt_and_clean`: what follows, whatever came before and whatever comes after.
* `Timeline.Stopping.ends_advance`: so `Timeline.advance` takes such an engine to its end.
-/

namespace ServiceRegistry.Refresh

variable {σ : Type}

theorem StopChannel.requested_pull (channel : StopChannel) : channel.pull.requested = true := by
  simp only [requested, pull]
  cases channel.pulled <;> cases channel.triggerHeld <;> rfl

theorem StopChannel.requested_dropTrigger (channel : StopChannel) :
    channel.dropTrigger.requested = true :=
  Bool.or_true _

namespace Phase

/-- The most steps that an engine takes to its end once a stop is seen. -/
def stepsLeft : Phase → Nat
  | refreshing .. => 4
  | pausing .. => 3
  | attempting .. => 2
  | settling _ => 2
  | waiting _ => 1
  | ended _ => 0

theorem stepsLeft_le (phase : Phase) : phase.stepsLeft ≤ 4 := by
  cases phase <;> simp [stepsLeft]

theorem ended_of_stepsLeft {phase : Phase} (h : phase.stepsLeft = 0) :
    ∃ result, phase = ended result := by
  cases phase with
  | ended result => exact ⟨result, rfl⟩
  | _ => cases h

theorem eq_ended_of_result {phase : Phase} {result : Except RefreshFailure Unit}
    (h : phase.result? = some result) : phase = ended result := by
  cases phase with
  | ended _ => exact congrArg ended (Option.some.inj h)
  | _ => cases h

/-- Once a stop is seen, an engine with no step to take has ended. -/
theorem ended_of_not_ready {phase : Phase} {now : Nat} (h : phase.ready now true = false) :
    ∃ result, phase = ended result := by
  cases phase with
  | ended result => exact ⟨result, rfl⟩
  | _ => cases h

/-- A step takes the engine nearer to its end; it may end a refresh, but begins none, and fails only of
the clock. -/
structure Heeds (plan : Plan) (now : Nat) (phase : Phase) (calls : List Call) (next : Phase) :
    Prop where
  idle : next.inFlight = false
  nearer : next.stepsLeft ≤ phase.stepsLeft - 1
  calls : calls = [] ∨ phase.inFlight = true ∧ calls = [.refreshView]
  clean : ∀ failure, next = ended (.error failure) →
    phase = ended (.error failure) ∨ failure = .clockOverflow ∧ plan.fits now = false

variable {backend : Backend σ} {plan : Plan} {now : Nat} {world : World σ} {calls : List Call}

theorem heeds_carryOn {phase : Phase} (purpose : Purpose) (hmore : 1 < phase.stepsLeft)
    (hcalls : calls = [] ∨ phase.inFlight = true ∧ calls = [.refreshView]) :
    Heeds plan now phase calls (carryOn plan now purpose) := by
  rcases carryOn_cases plan now purpose with ⟨timers, hwaits⟩ | ⟨-, hfits, hends⟩
  · rw [hwaits]
    exact ⟨rfl, Nat.le_sub_one_of_lt hmore, hcalls, nofun⟩
  · rw [hends]
    refine ⟨rfl, Nat.zero_le _, hcalls, fun failure hended => Or.inr ⟨?_, hfits⟩⟩
    exact (Except.error.inj (ended.inj hended)).symm

theorem Move.heeds {phase : Phase} {next : Phase × World σ}
    (h : Move backend plan now true phase world calls next) :
    Heeds plan now phase calls next.1 := by
  cases h with
  | still hready =>
    obtain ⟨result, rfl⟩ := ended_of_not_ready hready
    exact ⟨rfl, Nat.le_refl 0, Or.inl rfl, fun _ hended => Or.inl hended⟩
  | cancelled hstop => exact heeds_carryOn _ (by decide : 1 < 2) (Or.inl rfl)
  | refreshed hreply => exact heeds_carryOn _ (by decide : 1 < 4) (Or.inr ⟨rfl, rfl⟩)
  | failed hreply => exact ⟨rfl, Nat.le_refl 3, Or.inr ⟨rfl, rfl⟩, nofun⟩
  | retried hover hleft => exact ⟨rfl, Nat.le_refl 2, Or.inl rfl, nofun⟩
  | givenUp hstop hspent => exact heeds_carryOn _ (by decide : 1 < 3) (Or.inl rfl)
  | stopped hstop => exact ⟨rfl, Nat.le_refl 0, Or.inl rfl, nofun⟩
  | settled hreply => exact ⟨rfl, Nat.le_refl 1, Or.inr ⟨rfl, rfl⟩, nofun⟩
  | unsettled hreply => exact ⟨rfl, Nat.le_refl 1, Or.inr ⟨rfl, rfl⟩, nofun⟩
  | begun hstop => cases hstop
  | exhausted hstop hover hspent => cases hstop
  | scheduled hstop hdue => cases hstop
  | clean hstop hlater hdue howed => cases hstop
  | dirty hstop hlater hdue howed => cases hstop

end Phase

namespace Timeline

variable {t : Timeline σ}

/-- The engine has been asked to stop, heeds it, and has not failed but of the clock. -/
structure Stopping (t : Timeline σ) : Prop where
  requested : t.channel.requested = true
  impatient : t.patient = false
  unfailed : ∀ failure, t.phase = .ended (.error failure) →
    failure = .clockOverflow ∧ t.plan.fits t.now = false

theorem patient_happen (happening : Happening σ) : (t.happen happening).patient = t.patient := by
  cases happening with
  | step backend => rfl
  | elsewhere backend work => rfl
  | time instant =>
    obtain ⟨now, hpass⟩ := t.pass_eq instant
    change (t.pass instant).patient = t.patient
    rw [hpass]
  | stop request => cases request <;> rfl

theorem patient_after (course : List (Happening σ)) : (t.after course).patient = t.patient := by
  apply preserved_after (P := fun u => u.patient = t.patient) _ rfl
  intro u happening hpatient
  exact (patient_happen happening).trans hpatient

theorem requested_ask (request : StopRequest) : (t.ask request).channel.requested = true := by
  cases request with
  | pull => exact t.channel.requested_pull
  | dropTrigger => exact t.channel.requested_dropTrigger

theorem requested_happen (h : t.channel.requested = true) (happening : Happening σ) :
    (t.happen happening).channel.requested = true := by
  cases happening with
  | step backend => exact h
  | elsewhere backend work => exact h
  | time instant =>
    obtain ⟨now, hpass⟩ := t.pass_eq instant
    rw [happen, hpass]
    exact h
  | stop request => exact requested_ask request

namespace Stopping

theorem stopSeen (h : t.Stopping) : t.stopSeen = true := by
  simp only [Timeline.stopSeen, h.requested, h.impatient, Bool.false_and, Bool.not_false,
    Bool.and_true]

theorem heeds (h : t.Stopping) (backend : Backend σ) :
    Phase.Heeds t.plan t.now t.phase (t.callsAt (.step backend)) (t.step backend).phase := by
  obtain ⟨next, world, hmove, hstep⟩ := t.move backend
  rw [h.stopSeen] at hmove
  rw [hstep]
  exact hmove.heeds

theorem happen (h : t.Stopping) (happening : Happening σ) : (t.happen happening).Stopping := by
  refine ⟨requested_happen h.requested happening, (patient_happen happening).trans h.impatient,
    fun failure hphase => ?_⟩
  have hbefore : t.phase = .ended (.error failure) ∨
      failure = .clockOverflow ∧ t.plan.fits t.now = false := by
    cases hkind : happening.isStep with
    | true =>
      obtain ⟨backend, rfl⟩ := Happening.eq_step hkind
      exact (h.heeds backend).clean failure hphase
    | false =>
      rw [phase_happen hkind] at hphase
      exact Or.inl hphase
  obtain ⟨hfailure, hfits⟩ := hbefore.elim (h.unfailed failure) id
  rw [plan_happen]
  exact ⟨hfailure, Plan.fits_eq_false_of_le (now_le_happen happening) hfits⟩

theorem after (h : t.Stopping) (course : List (Happening σ)) : (t.after course).Stopping :=
  preserved_after (fun _ happening hstopping => hstopping.happen happening) h course

theorem result_eq_ok (h : t.Stopping) (hfits : t.plan.fits t.now = true)
    {result : Except RefreshFailure Unit} (hphase : t.phase = .ended result) : result = .ok () := by
  cases result with
  | ok _ => rfl
  | error failure => cases hfits.symm.trans (h.unfailed failure hphase).2

/-- Either the engine stands where it stood, or no refresh is in flight any more and only one that
was has been called. -/
theorem course (h : t.Stopping) (course : List (Happening σ)) :
    ((t.after course).phase = t.phase ∧ t.calls course = []) ∨
      ((t.after course).phase.inFlight = false ∧
        (t.calls course = [] ∨ t.phase.inFlight = true ∧ t.calls course = [.refreshView])) := by
  induction course generalizing t with
  | nil => exact Or.inl ⟨rfl, rfl⟩
  | cons happening rest ih =>
    have hrest := ih (h.happen happening)
    change ((t.happen happening).after rest).phase = _ ∧ t.callsAt happening ++ _ = [] ∨
      ((t.happen happening).after rest).phase.inFlight = false ∧
        (t.callsAt happening ++ _ = [] ∨ _ ∧ t.callsAt happening ++ _ = [.refreshView])
    cases hkind : happening.isStep with
    | true =>
      obtain ⟨backend, rfl⟩ := Happening.eq_step hkind
      have hheeds := h.heeds backend
      have hidle : (t.happen (.step backend)).phase.inFlight = false := hheeds.idle
      rcases hrest with ⟨hsame, hnone⟩ | ⟨hafter, hnone | ⟨hflight, -⟩⟩
      · rw [hsame, hnone, List.append_nil]
        exact Or.inr ⟨hidle, hheeds.calls⟩
      · rw [hnone, List.append_nil]
        exact Or.inr ⟨hafter, hheeds.calls⟩
      · rw [hidle] at hflight
        cases hflight
    | false =>
      rw [callsAt_eq_nil hkind, List.nil_append]
      rw [phase_happen hkind] at hrest
      exact hrest

theorem stepsLeft_after (h : t.Stopping) (course : List (Happening σ)) :
    (t.after course).phase.stepsLeft ≤ t.phase.stepsLeft - course.countP Happening.isStep := by
  induction course generalizing t with
  | nil => exact Nat.le_refl _
  | cons happening rest ih =>
    have hrest := ih (h.happen happening)
    change ((t.happen happening).after rest).phase.stepsLeft ≤ _
    cases hkind : happening.isStep with
    | true =>
      obtain ⟨backend, rfl⟩ := Happening.eq_step hkind
      have hnearer : (t.happen (.step backend)).phase.stepsLeft ≤ t.phase.stepsLeft - 1 :=
        (h.heeds backend).nearer
      rw [List.countP_cons_of_pos hkind]
      omega
    | false =>
      rw [phase_happen hkind] at hrest
      rw [List.countP_cons_of_neg (ne_true_of_eq_false hkind)]
      exact hrest

theorem ready (h : t.Stopping) (hgoing : t.phase.result? = none) :
    t.phase.ready t.now t.stopSeen = true := by
  rw [h.stopSeen]
  cases hready : t.phase.ready t.now true with
  | true => rfl
  | false =>
    obtain ⟨result, hended⟩ := Phase.ended_of_not_ready hready
    rw [hended] at hgoing
    cases hgoing

/-- The clock stands still until the engine has ended, but for a refresh in flight. -/
theorem now_happen (h : t.Stopping) (hidle : t.phase.inFlight = false)
    (hgoing : t.phase.result? = none) (happening : Happening σ) :
    (t.happen happening).now = t.now := by
  cases happening with
  | step backend => rfl
  | elsewhere backend work => rfl
  | time instant =>
    have hready : t.phase.ready t.now t.stopSeen = true := h.ready hgoing
    change (t.pass instant).now = t.now
    unfold pass
    rw [if_neg (ne_true_of_eq_false hidle), if_pos hready]
  | stop request => cases request <;> rfl

end Stopping

/-- A stop in the pause after the last attempt, on a clock without end and on one that ends too early,
and what the end would be without it. -/
example :
    let refuse : Backend Unit := fun _ store => (.error ⟨.io, "disk"⟩, store)
    let plan : Plan := { retry := { attempts := 1 } }
    let paused (plan : Plan) : Timeline Unit :=
      after { plan := plan, world := { store := () } } [.step refuse, .step refuse]
    (paused plan).phase = .pausing .startup 0 ⟨.io, "disk"⟩ 1000 ∧
      ((paused plan).pull.advance refuse 500).phase = .ended (.ok ()) ∧
      ((paused { plan with clockEnd := some 1000000000 }).pull.advance refuse 500).phase =
        .ended (.error .clockOverflow) ∧
      ((paused plan).advance refuse 5000).phase =
        .ended (.error (.startupExhausted 1 ⟨.io, "disk"⟩)) :=
  ⟨rfl, rfl, rfl, rfl⟩

end Timeline

end ServiceRegistry.Refresh
