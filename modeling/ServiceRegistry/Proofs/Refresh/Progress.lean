import ServiceRegistry.Proofs.Refresh.Course

/-!
# Sequences of attempts come to an end

An engine in a sequence is about to make an attempt, or is making one, or pauses after one.  Each step
that it can take there leads out of the sequence or nearer to its end, whatever comes of its refreshes,
and where it can take none, time is all that it needs.

* `Phase.Move.closer`: a step of an engine in a sequence.
* `Timeline.leaves_of_strides`: three steps for each attempt of the budget lead out of the sequence.
* `Timeline.wakes_of_inSequence`: a pause ends with the passing of time.
-/

namespace ServiceRegistry.Refresh

variable {σ : Type}

namespace Phase

/-- Whether the engine is in a sequence of attempts. -/
def inSequence : Phase → Bool
  | attempting .. => true
  | refreshing .. => true
  | pausing .. => true
  | _ => false

/-- The most steps that lead out of a sequence, with a budget of attempts. -/
def stepsToClose (budget : Nat) : Phase → Nat
  | attempting _ attempt => 3 * (budget - 1 - attempt) + 3
  | refreshing _ attempt => 3 * (budget - 1 - attempt) + 2
  | pausing _ attempt .. => 3 * (budget - 1 - attempt) + 1
  | _ => 0

theorem inSequence_of_stepsToClose {budget : Nat} {phase : Phase}
    (h : phase.stepsToClose budget = 0) : phase.inSequence = false := by
  cases phase with
  | attempting purpose attempt => cases h
  | refreshing purpose attempt => cases h
  | pausing purpose attempt fault until_ => cases h
  | _ => rfl

theorem stepsToClose_le {budget : Nat} (hbudget : 1 ≤ budget) (phase : Phase) :
    phase.stepsToClose budget ≤ 3 * budget := by
  cases phase with
  | attempting purpose attempt => rw [stepsToClose]; omega
  | refreshing purpose attempt => rw [stepsToClose]; omega
  | pausing purpose attempt fault until_ => rw [stepsToClose]; omega
  | _ => exact Nat.zero_le _

theorem stepsToClose_carryOn (plan : Plan) (now budget : Nat) (purpose : Purpose) :
    (carryOn plan now purpose).stepsToClose budget = 0 := by
  rcases carryOn_cases plan now purpose with ⟨timers, hwaits⟩ | ⟨-, -, hends⟩
  · rw [hwaits]
    rfl
  · rw [hends]
    rfl

variable {backend : Backend σ} {plan : Plan} {now : Nat} {stop : Bool} {phase : Phase}
  {world : World σ} {calls : List Call} {next : Phase × World σ}

/-- A step of an engine in a sequence leads nearer to the end of the sequence. -/
theorem Move.closer (h : Move backend plan now stop phase world calls next)
    (hready : phase.ready now stop = true) (hphase : phase.inSequence = true) :
    next.1.stepsToClose plan.retry.budget < phase.stepsToClose plan.retry.budget := by
  have hcarried (purpose : Purpose) (left : Nat) :
      (carryOn plan now purpose).stepsToClose plan.retry.budget < left + 1 := by
    rw [stepsToClose_carryOn]
    exact Nat.succ_pos left
  cases h with
  | still hidle => cases hready.symm.trans hidle
  | cancelled hstop => exact hcarried _ _
  | begun hstop => exact Nat.lt_succ_self _
  | refreshed hreply => exact hcarried _ _
  | failed hreply => exact Nat.lt_succ_self _
  | retried hover hleft =>
    simp only [stepsToClose]
    omega
  | givenUp hstop hspent => exact hcarried _ _
  | exhausted hstop hover hspent => exact Nat.succ_pos _
  | _ => cases hphase

/-- In a sequence, an engine without a step to take is in a pause, at whose end it has one. -/
theorem wakes_of_inSequence {phase : Phase} (hphase : phase.inSequence = true)
    (hidle : phase.ready now stop = false) :
    ∃ instant, phase.wake? = some instant ∧
      ∀ later, instant ≤ later → phase.ready later stop = true := by
  cases phase with
  | pausing purpose attempt fault until_ =>
    refine ⟨until_, rfl, fun later hlater => ?_⟩
    rw [ready, decide_eq_true hlater, Bool.or_true]
  | attempting purpose attempt => cases hidle
  | refreshing purpose attempt => cases hidle
  | _ => cases hphase

end Phase

namespace Timeline

/-- The steps in a course that the engine can take. -/
def strides (t : Timeline σ) : List (Happening σ) → Nat
  | [] => 0
  | happening :: rest =>
    (if happening.isStep && t.phase.ready t.now t.stopSeen then 1 else 0) +
      (t.happen happening).strides rest

variable {t : Timeline σ}

theorem phase_step_of_idle (hidle : t.phase.ready t.now t.stopSeen = false) (backend : Backend σ) :
    (t.step backend).phase = t.phase := by
  unfold step Phase.step
  rw [if_neg (ne_true_of_eq_false hidle)]
  rfl

theorem closer_happen (hphase : t.phase.inSequence = true) (happening : Happening σ) :
    (t.happen happening).phase.stepsToClose t.plan.retry.budget +
        (if happening.isStep && t.phase.ready t.now t.stopSeen then 1 else 0) ≤
      t.phase.stepsToClose t.plan.retry.budget := by
  cases hkind : happening.isStep with
  | true =>
    obtain ⟨backend, rfl⟩ := Happening.eq_step hkind
    change (t.step backend).phase.stepsToClose t.plan.retry.budget + _ ≤ _
    rw [Bool.true_and]
    cases hready : t.phase.ready t.now t.stopSeen with
    | true =>
      obtain ⟨next, world, hmove, hstep⟩ := t.move backend
      rw [hstep]
      exact hmove.closer hready hphase
    | false =>
      rw [phase_step_of_idle hready]
      exact Nat.le_refl _
  | false =>
    rw [phase_happen hkind]
    exact Nat.le_refl _

/-- Enough steps lead out of a sequence. -/
theorem leaves_of_strides (course : List (Happening σ))
    (hcourse : t.phase.stepsToClose t.plan.retry.budget ≤ t.strides course) :
    ∃ early, early <+: course ∧ (t.after early).phase.inSequence = false := by
  induction course generalizing t with
  | nil =>
    exact ⟨[], List.prefix_refl _, Phase.inSequence_of_stepsToClose (Nat.le_zero.mp hcourse)⟩
  | cons happening rest ih =>
    cases hphase : t.phase.inSequence with
    | false => exact ⟨[], List.nil_prefix, hphase⟩
    | true =>
      have hcloser := closer_happen hphase happening
      have hrest : (t.happen happening).phase.stepsToClose (t.happen happening).plan.retry.budget ≤
          (t.happen happening).strides rest := by
        rw [plan_happen]
        rw [strides] at hcourse
        omega
      obtain ⟨early, hearly, hleft⟩ := ih hrest
      exact ⟨happening :: early, List.prefix_cons_inj happening |>.mpr hearly, hleft⟩

/-- A pause of a sequence ends with the passing of time. -/
theorem wakes_of_inSequence (hphase : t.phase.inSequence = true)
    (hidle : t.phase.ready t.now t.stopSeen = false) :
    ∃ instant, t.phase.wake? = some instant ∧ ∀ later, instant ≤ later →
      (t.happen (.time later)).phase.ready (t.happen (.time later)).now
        (t.happen (.time later)).stopSeen = true := by
  obtain ⟨instant, hwake, hready⟩ := Phase.wakes_of_inSequence hphase hidle
  refine ⟨instant, hwake, fun later hlater => ?_⟩
  have hflight : ¬ t.phase.inFlight = true := fun hflight =>
    ne_true_of_eq_false hidle (Phase.ready_of_inFlight hflight _ _)
  change (t.pass later).phase.ready (t.pass later).now (t.pass later).stopSeen = true
  unfold pass
  rw [if_neg hflight, if_neg (ne_true_of_eq_false hidle), hwake, Option.getD_some,
    Nat.min_eq_left hlater]
  exact hready _ (Nat.le_max_right _ _)

end Timeline

end ServiceRegistry.Refresh
