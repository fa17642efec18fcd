import ServiceRegistry.Proofs.Refresh.Account
import ServiceRegistry.Proofs.Refresh.Progress
import ServiceRegistry.Proofs.Refresh.Retrying
import ServiceRegistry.Proofs.Refresh.Stopping

/-!
# The log of an engine is a faithful account

Whatever the outcomes of its refreshes, the marks that others set and the requests to stop, what an
engine records is one startup sequence, followed by scheduled sequences and owed refreshes.  Every
chapter reports the refreshes that were made in it, and every sequence that is closed is a run of bounded
retries.  The engine fails exactly when the last chapter is a sequence that was exhausted, but for a clock
that ends before its tickers could be due.  A sequence is open only as long as the engine is in it, and
the steps that its budget allows close it.

* `Stands` says where in the chapters the engine stands, phase by phase, and `Phase.Move.stands` what
  a step adds to them.
* `Timeline.Chronicled` is the invariant of a course.
* `Timeline.log_is_faithful`: what follows for every course.
-/

namespace ServiceRegistry.Refresh

variable {σ : Type}

/-- Complete chapters after which another may follow. -/
def Continued (budget : Nat) (asked : Bool) (chapters : List Chapter) : Prop :=
  ∀ chapter ∈ chapters, chapter.goesOn = true ∧ chapter.Sound budget asked

/-- Where an engine of a budget of attempts stands in its chapters; `asked` says whether it has been
asked to stop. -/
inductive Stands (budget : Nat) (asked : Bool) : Phase → List Chapter → Prop
  | attempting {purpose : Purpose} {faults : List Fault} {before : List Chapter}
      (hbefore : Continued budget asked before) (hleft : faults.length < budget) :
      Stands budget asked (.attempting purpose faults.length)
        (before ++ [.sequence purpose.cause faults none])
  | refreshing {purpose : Purpose} {faults : List Fault} {before : List Chapter}
      (hbefore : Continued budget asked before) (hleft : faults.length < budget) :
      Stands budget asked (.refreshing purpose faults.length)
        (before ++ [.sequence purpose.cause faults none])
  | pausing {purpose : Purpose} {faults : List Fault} {fault : Fault} {until_ : Nat}
      {before : List Chapter} (hbefore : Continued budget asked before)
      (hleft : faults.length < budget) :
      Stands budget asked (.pausing purpose faults.length fault until_)
        (before ++ [.sequence purpose.cause (faults ++ [fault]) none])
  | waiting {timers : Timers} {chapters : List Chapter} (hchapters : Continued budget asked chapters) :
      Stands budget asked (.waiting timers) chapters
  /-- After a cancelled sequence the engine only waits to end. -/
  | cancelled {timers : Timers} {cause : RefreshCause} {faults : List Fault} {before : List Chapter}
      (hbefore : Continued budget asked before)
      (hlast : (Chapter.sequence cause faults (some .cancelled)).Sound budget asked) :
      Stands budget asked (.waiting timers) (before ++ [.sequence cause faults (some .cancelled)])
  | settling {timers : Timers} {chapters : List Chapter} (hchapters : Continued budget asked chapters) :
      Stands budget asked (.settling timers) chapters
  | stopped {timers : Timers} {chapters : List Chapter} (hasked : asked = true)
      (hwaiting : Stands budget asked (.waiting timers) chapters) :
      Stands budget asked (.ended (.ok ())) chapters
  /-- The tickers could not be started after the startup sequence. -/
  | overflowed {faults : List Fault} {closing : Closing} {before : List Chapter}
      (hbefore : Continued budget asked before)
      (hlast : (Chapter.sequence .startup faults (some closing)).Sound budget asked)
      (hclosing : closing ≠ .exhausted) :
      Stands budget asked (.ended (.error .clockOverflow))
        (before ++ [.sequence .startup faults (some closing)])
  | exhausted {purpose : Purpose} {faults : List Fault} {fault : Fault} {before : List Chapter}
      (hbefore : Continued budget asked before) (hspent : faults.length + 1 = budget) :
      Stands budget asked (.ended (.error (purpose.failure budget fault)))
        (before ++ [.sequence purpose.cause (faults ++ [fault]) (some .exhausted)])

section

variable {budget : Nat} {asked : Bool}

theorem Continued.mono {later : Bool} {chapters : List Chapter} (h : Continued budget asked chapters)
    (hlater : asked = true → later = true) : Continued budget later chapters :=
  fun chapter hmem => ⟨(h chapter hmem).1, (h chapter hmem).2.mono hlater⟩

theorem Continued.concat {chapters : List Chapter} {chapter : Chapter}
    (h : Continued budget asked chapters) (hgoes : chapter.goesOn = true)
    (hsound : chapter.Sound budget asked) : Continued budget asked (chapters ++ [chapter]) := by
  intro other hother
  rcases List.mem_append.mp hother with hother | hother
  · exact h other hother
  · rw [List.mem_singleton.mp hother]
    exact ⟨hgoes, hsound⟩

/-! ### Complete chapters -/

namespace Continued

variable {chapters : List Chapter} {last chapter : Chapter} {event : Event}

theorem closed (h : Continued budget asked chapters) (hmem : chapter ∈ chapters) :
    chapter.closed = true :=
  Chapter.closed_of_goesOn (h chapter hmem).1

theorem closed_concat (h : Continued budget asked chapters) (hlast : last.closed = true)
    (hmem : chapter ∈ chapters ++ [last]) : chapter.closed = true := by
  rcases List.mem_append.mp hmem with hmem | hmem
  · exact h.closed hmem
  · rw [List.mem_singleton.mp hmem]
    exact hlast

theorem not_tellsExhaustion (h : Continued budget asked chapters)
    (hmem : event ∈ chapters.flatMap (Chapter.events budget)) : event.tellsExhaustion = false := by
  obtain ⟨chapter, hchapter, hevent⟩ := List.mem_flatMap.mp hmem
  exact Chapter.not_tellsExhaustion_of_goesOn (h chapter hchapter).1 hevent

theorem not_tellsExhaustion_concat {cause : RefreshCause} {faults : List Fault}
    {closing : Option Closing} (h : Continued budget asked chapters)
    (hmem : event ∈ (chapters ++ [Chapter.sequence cause faults closing]).flatMap (Chapter.events budget))
    (hclosing : closing ≠ some .exhausted) :
    event.tellsExhaustion = false := by
  rw [List.flatMap_append, List.flatMap_singleton] at hmem
  rcases List.mem_append.mp hmem with hmem | hmem
  · exact h.not_tellsExhaustion hmem
  · exact Chapter.not_tellsExhaustion_of_mem hmem hclosing

end Continued

/-- A request to stop changes nothing about where the engine stands. -/
theorem Stands.mono {later : Bool} {phase : Phase} {chapters : List Chapter}
    (h : Stands budget asked phase chapters) (hlater : asked = true → later = true) :
    Stands budget later phase chapters := by
  induction h with
  | attempting hbefore hleft => exact .attempting (hbefore.mono hlater) hleft
  | refreshing hbefore hleft => exact .refreshing (hbefore.mono hlater) hleft
  | pausing hbefore hleft => exact .pausing (hbefore.mono hlater) hleft
  | waiting hchapters => exact .waiting (hchapters.mono hlater)
  | cancelled hbefore hlast => exact .cancelled (hbefore.mono hlater) (hlast.mono hlater)
  | settling hchapters => exact .settling (hchapters.mono hlater)
  | stopped hasked _ ih => exact .stopped (hlater hasked) ih
  | overflowed hbefore hlast hclosing =>
    exact .overflowed (hbefore.mono hlater) (hlast.mono hlater) hclosing
  | exhausted hbefore hspent => exact .exhausted (hbefore.mono hlater) hspent

/-- After a sequence that did not fail. -/
theorem stands_carryOn {plan : Plan} {now : Nat} {purpose : Purpose} {faults : List Fault}
    {closing : Closing} {before : List Chapter} (hbefore : Continued budget asked before)
    (hlast : (Chapter.sequence purpose.cause faults (some closing)).Sound budget asked)
    (hclosing : closing ≠ .exhausted) :
    Stands budget asked (Phase.carryOn plan now purpose)
      (before ++ [.sequence purpose.cause faults (some closing)]) := by
  rcases Phase.carryOn_cases plan now purpose with ⟨timers, hwaits⟩ | ⟨rfl, -, hends⟩
  · rw [hwaits]
    cases closing with
    | refreshed => exact .waiting (hbefore.concat rfl hlast)
    | cancelled => exact .cancelled hbefore hlast
    | exhausted => exact absurd rfl hclosing
  · rw [hends]
    exact .overflowed hbefore hlast hclosing

end

/-- The first chapter is the only one about startup. -/
def Opened (chapters : List Chapter) : Prop :=
  ∃ causes, chapters.map Chapter.cause = .startup :: causes ∧ RefreshCause.startup ∉ causes

/-- Chapters that have been added to, by what was recorded and refreshed, and the pauses begun,
meanwhile. -/
structure Extends (policy : RetryPolicy) (old new : List Chapter) (recorded : List Event)
    (outcomes : List (Except Fault Unit)) (pauses : List Nat) : Prop where
  events : new.flatMap (Chapter.events policy.budget) =
    old.flatMap (Chapter.events policy.budget) ++ recorded
  outcomes : new.flatMap Chapter.outcomes = old.flatMap Chapter.outcomes ++ outcomes
  pauses : new.flatMap (Chapter.pauses policy) = old.flatMap (Chapter.pauses policy) ++ pauses
  opened : Opened old → Opened new

section

variable {policy : RetryPolicy} {before chapters : List Chapter} {chapter : Chapter}

theorem extends_rfl : Extends policy chapters chapters [] [] [] :=
  ⟨(List.append_nil _).symm, (List.append_nil _).symm, (List.append_nil _).symm, id⟩

/-- The last chapter goes on. -/
theorem extends_last {old : Chapter} {recorded : List Event} {outcomes : List (Except Fault Unit)}
    {pauses : List Nat} (hevents : chapter.events policy.budget = old.events policy.budget ++ recorded)
    (houtcomes : chapter.outcomes = old.outcomes ++ outcomes)
    (hpauses : chapter.pauses policy = old.pauses policy ++ pauses) (hcause : chapter.cause = old.cause) :
    Extends policy (before ++ [old]) (before ++ [chapter]) recorded outcomes pauses := by
  refine ⟨?_, ?_, ?_, ?_⟩
  · simp [List.flatMap_append, hevents]
  · simp [List.flatMap_append, houtcomes]
  · simp [List.flatMap_append, hpauses]
  · rintro ⟨causes, hcauses, hnone⟩
    refine ⟨causes, ?_, hnone⟩
    rw [← hcauses, List.map_append, List.map_append, List.map_singleton, List.map_singleton, hcause]

/-- A new chapter begins. -/
theorem extends_new (hcause : chapter.cause ≠ .startup) :
    Extends policy chapters (chapters ++ [chapter]) (chapter.events policy.budget) chapter.outcomes
      (chapter.pauses policy) := by
  refine ⟨?_, ?_, ?_, ?_⟩
  · simp [List.flatMap_append]
  · simp [List.flatMap_append]
  · simp [List.flatMap_append]
  · rintro ⟨causes, hcauses, hnone⟩
    refine ⟨causes ++ [chapter.cause], ?_, ?_⟩
    · rw [List.map_append, hcauses]
      rfl
    · intro hmem
      rcases List.mem_append.mp hmem with hmem | hmem
      · exact hnone hmem
      · exact hcause (List.mem_singleton.mp hmem).symm

end

theorem Purpose.failure_ne_clockOverflow (purpose : Purpose) (attempts : Nat) (fault : Fault) :
    purpose.failure attempts fault ≠ .clockOverflow := by
  cases purpose <;> exact nofun

theorem Purpose.cause_ne_dirty (purpose : Purpose) : purpose.cause ≠ .dirty := by
  cases purpose <;> exact nofun

section

variable {backend : Backend σ} {plan : Plan} {now : Nat} {stop asked : Bool} {phase : Phase}
  {world : World σ} {calls : List Call} {next : Phase × World σ} {recorded : List Event}
  {outcomes : List (Except Fault Unit)} {chapters : List Chapter}

/-- Every step of the engine adds to its chapters what it tells. -/
theorem Phase.Move.stands (h : Phase.Move backend plan now stop phase world calls next)
    (htold : Timeline.Told backend world next.2 calls recorded outcomes)
    (hasked : stop = true → asked = true)
    (hheeds : phase.startingUp = false → asked = true → stop = true)
    (hstands : Stands plan.retry.budget asked phase chapters) :
    ∃ later, Stands plan.retry.budget asked next.1 later ∧
      Extends plan.retry chapters later recorded outcomes (phase.pauseBegun? now next.1).toList := by
  cases h with
  | still hready =>
    obtain ⟨rfl, rfl⟩ := htold.silent rfl
    rw [pauseBegun?_self]
    exact ⟨chapters, hstands, extends_rfl⟩
  | @cancelled purpose _ _ hstop =>
    obtain ⟨rfl, rfl⟩ := htold.noted rfl
    rw [pauseBegun?_carryOn]
    cases hstands with
    | @attempting _ faults before hbefore hleft =>
      refine ⟨before ++ [.sequence purpose.cause faults (some .cancelled)],
        stands_carryOn hbefore ?_ (by decide), extends_last ?_ ?_ ?_ rfl⟩
      · exact ⟨purpose.cause_ne_dirty, Nat.le_of_lt hleft, hasked hstop⟩
      · simp [Chapter.events, Closing.event]
      · simp [Chapter.outcomes]
      · simp [Chapter.pauses]
  | begun hstop =>
    obtain ⟨rfl, rfl⟩ := htold.silent rfl
    cases hstands with
    | attempting hbefore hleft => exact ⟨_, .refreshing hbefore hleft, extends_rfl⟩
  | @refreshed purpose _ _ _ hreply =>
    obtain ⟨rfl, rfl⟩ := htold.answered hreply rfl
    rw [pauseBegun?_carryOn]
    cases hstands with
    | @refreshing _ faults before hbefore hleft =>
      refine ⟨before ++ [.sequence purpose.cause faults (some .refreshed)],
        stands_carryOn hbefore ?_ (by decide), extends_last ?_ ?_ ?_ rfl⟩
      · exact ⟨purpose.cause_ne_dirty, hleft⟩
      · simp [Chapter.events, Closing.event]
      · simp [Chapter.outcomes]
      · simp [Chapter.pauses]
  | @failed purpose _ _ _ fault hreply =>
    obtain ⟨rfl, rfl⟩ := htold.answered hreply rfl
    cases hstands with
    | @refreshing _ faults before hbefore hleft =>
      refine ⟨before ++ [.sequence purpose.cause (faults ++ [fault]) none],
        .pausing hbefore hleft, extends_last ?_ ?_ ?_ rfl⟩
      · simp [Chapter.events, failures_concat]
      · simp [Chapter.outcomes]
      · simp [Chapter.pauses, pauseBegun?, List.range_succ]
  | @retried purpose _ fault _ _ hover hmore =>
    obtain ⟨rfl, rfl⟩ := htold.silent rfl
    cases hstands with
    | @pausing _ faults _ _ before hbefore hleft =>
      have hcount : (faults ++ [fault]).length = faults.length + 1 := List.length_append
      refine ⟨before ++ [.sequence purpose.cause (faults ++ [fault]) none], ?_, extends_rfl⟩
      rw [← hcount] at hmore ⊢
      exact .attempting hbefore hmore
  | @givenUp purpose _ fault _ _ hstop hspent =>
    obtain ⟨rfl, rfl⟩ := htold.noted rfl
    rw [pauseBegun?_carryOn]
    cases hstands with
    | @pausing _ faults _ _ before hbefore hleft =>
      refine ⟨before ++ [.sequence purpose.cause (faults ++ [fault]) (some .cancelled)],
        stands_carryOn hbefore ?_ (by decide), extends_last ?_ ?_ ?_ rfl⟩
      · refine ⟨purpose.cause_ne_dirty, ?_, hasked hstop⟩
        rw [List.length_append]
        exact hleft
      · simp [Chapter.events, Closing.event]
      · simp [Chapter.outcomes]
      · simp [Chapter.pauses]
  | @exhausted purpose _ fault _ _ hstop hover hspent =>
    obtain ⟨rfl, rfl⟩ := htold.noted rfl
    cases hstands with
    | @pausing _ faults _ _ before hbefore hleft =>
      have hbudget : faults.length + 1 = plan.retry.budget := Nat.le_antisymm hleft hspent
      refine ⟨before ++ [.sequence purpose.cause (faults ++ [fault]) (some .exhausted)], ?_,
        extends_last ?_ ?_ ?_ rfl⟩
      · rw [hbudget]
        exact .exhausted hbefore hbudget
      · simp [Chapter.events, Closing.event, hbudget]
      · simp [Chapter.outcomes]
      · simp [Chapter.pauses, pauseBegun?]
  | stopped hstop =>
    obtain ⟨rfl, rfl⟩ := htold.silent rfl
    exact ⟨chapters, .stopped (hasked hstop) hstands, extends_rfl⟩
  | @scheduled timers _ hstop hdue =>
    obtain ⟨rfl, rfl⟩ := htold.silent rfl
    cases hstands with
    | waiting hchapters =>
      let purpose : Purpose := .scheduled { timers with scheduled := timers.scheduled.handled now }
      have hfresh : Stands plan.retry.budget asked (.attempting purpose ([] : List Fault).length)
          (chapters ++ [.sequence purpose.cause [] none]) :=
        .attempting hchapters (Nat.le_max_right _ _)
      exact ⟨_, hfresh, extends_new RefreshCause.noConfusion⟩
    | cancelled hbefore hlast =>
      -- No chapter follows a cancelled one: the stop that cancelled it is still seen.
      cases hstop.symm.trans (hheeds rfl hlast.2.2)
  | clean hstop hlater hdue howed =>
    obtain ⟨rfl, rfl⟩ := htold.silent rfl
    cases hstands with
    | waiting hchapters => exact ⟨chapters, .waiting hchapters, extends_rfl⟩
    | cancelled hbefore hlast => cases hstop.symm.trans (hheeds rfl hlast.2.2)
  | dirty hstop hlater hdue howed =>
    obtain ⟨rfl, rfl⟩ := htold.silent rfl
    cases hstands with
    | waiting hchapters => exact ⟨chapters, .settling hchapters, extends_rfl⟩
    | cancelled hbefore hlast => cases hstop.symm.trans (hheeds rfl hlast.2.2)
  | settled hreply =>
    obtain ⟨rfl, rfl⟩ := htold.answered hreply rfl
    cases hstands with
    | settling hchapters =>
      refine ⟨chapters ++ [.errand (.ok ())], .waiting (hchapters.concat rfl ?_), extends_new ?_⟩
      · trivial
      · exact RefreshCause.noConfusion
  | @unsettled _ _ _ fault hreply =>
    obtain ⟨rfl, rfl⟩ := htold.answered hreply rfl
    cases hstands with
    | settling hchapters =>
      refine ⟨chapters ++ [.errand (.error fault)], .waiting (hchapters.concat rfl ?_), extends_new ?_⟩
      · trivial
      · exact RefreshCause.noConfusion

end

/-! ## Reading the chapters -/

namespace Stands

variable {budget : Nat} {asked : Bool} {phase : Phase} {chapters : List Chapter}

/-- At most the last chapter is incomplete or final. -/
theorem shape (h : Stands budget asked phase chapters) :
    Continued budget asked chapters ∨ ∃ before last, chapters = before ++ [last] ∧
      Continued budget asked before ∧ last.Sound budget asked := by
  induction h with
  | @attempting purpose _ _ hbefore hleft =>
    exact Or.inr ⟨_, _, rfl, hbefore, purpose.cause_ne_dirty, Nat.le_of_lt hleft⟩
  | @refreshing purpose _ _ hbefore hleft =>
    exact Or.inr ⟨_, _, rfl, hbefore, purpose.cause_ne_dirty, Nat.le_of_lt hleft⟩
  | @pausing purpose faults fault _ _ hbefore hleft =>
    have hcount : (faults ++ [fault]).length = faults.length + 1 := List.length_append
    exact Or.inr ⟨_, _, rfl, hbefore, purpose.cause_ne_dirty, Nat.le_trans (Nat.le_of_eq hcount) hleft⟩
  | waiting hchapters => exact Or.inl hchapters
  | cancelled hbefore hlast => exact Or.inr ⟨_, _, rfl, hbefore, hlast⟩
  | settling hchapters => exact Or.inl hchapters
  | stopped hasked hwaiting ih => exact ih
  | overflowed hbefore hlast hclosing => exact Or.inr ⟨_, _, rfl, hbefore, hlast⟩
  | @exhausted purpose faults fault _ hbefore hspent =>
    have hcount : (faults ++ [fault]).length = faults.length + 1 := List.length_append
    exact Or.inr ⟨_, _, rfl, hbefore, purpose.cause_ne_dirty, hcount.trans hspent⟩

theorem sound (h : Stands budget asked phase chapters) {chapter : Chapter}
    (hmem : chapter ∈ chapters) : chapter.Sound budget asked := by
  rcases h.shape with hchapters | ⟨before, last, rfl, hbefore, hlast⟩
  · exact (hchapters chapter hmem).2
  · rcases List.mem_append.mp hmem with hmem | hmem
    · exact (hbefore chapter hmem).2
    · rw [List.mem_singleton.mp hmem]
      exact hlast

theorem goesOn (h : Stands budget asked phase chapters) {chapter : Chapter}
    (hmem : chapter ∈ chapters.dropLast) : chapter.goesOn = true := by
  rcases h.shape with hchapters | ⟨before, last, rfl, hbefore, hlast⟩
  · exact (hchapters chapter (List.dropLast_subset _ hmem)).1
  · rw [List.dropLast_concat] at hmem
    exact (hbefore chapter hmem).1

/-- A chapter is open exactly as long as the engine is in a sequence. -/
theorem open_iff (h : Stands budget asked phase chapters) :
    (∃ chapter ∈ chapters, chapter.closed = false) ↔ phase.inSequence = true := by
  have hopen {before : List Chapter} {cause : RefreshCause} {faults : List Fault} :
      ∃ chapter ∈ before ++ [Chapter.sequence cause faults none], chapter.closed = false :=
    ⟨_, List.mem_append_right _ List.mem_cons_self, rfl⟩
  have hshut {chapters : List Chapter} (hclosed : ∀ chapter ∈ chapters, chapter.closed = true) :
      ¬ ∃ chapter ∈ chapters, chapter.closed = false :=
    fun ⟨chapter, hmem, hnot⟩ => ne_true_of_eq_false hnot (hclosed chapter hmem)
  induction h with
  | attempting hbefore hleft => exact iff_of_true hopen rfl
  | refreshing hbefore hleft => exact iff_of_true hopen rfl
  | pausing hbefore hleft => exact iff_of_true hopen rfl
  | waiting hchapters => exact iff_of_false (hshut fun _ => hchapters.closed) Bool.false_ne_true
  | cancelled hbefore hlast =>
    exact iff_of_false (hshut fun _ => hbefore.closed_concat rfl) Bool.false_ne_true
  | settling hchapters => exact iff_of_false (hshut fun _ => hchapters.closed) Bool.false_ne_true
  | stopped hasked hwaiting ih => exact ih
  | overflowed hbefore hlast hclosing =>
    exact iff_of_false (hshut fun _ => hbefore.closed_concat rfl) Bool.false_ne_true
  | exhausted hbefore hspent =>
    exact iff_of_false (hshut fun _ => hbefore.closed_concat rfl) Bool.false_ne_true

/-- When the engine has ended, no chapter is left open. -/
theorem closed (h : Stands budget asked phase chapters) (hended : phase.result?.isSome = true)
    {chapter : Chapter} (hmem : chapter ∈ chapters) : chapter.closed = true := by
  cases hclosed : chapter.closed with
  | true => rfl
  | false =>
    have hopen := h.open_iff.mp ⟨chapter, hmem, hclosed⟩
    cases phase with
    | ended result => cases hopen
    | _ => cases hended

/-- While no attempts have been used up, no event tells of an exhausted sequence. -/
theorem not_tellsExhaustion (h : Stands budget asked phase chapters)
    (hphase : ∀ failure, phase = .ended (.error failure) → failure = .clockOverflow) {event : Event}
    (hmem : event ∈ chapters.flatMap (Chapter.events budget)) : event.tellsExhaustion = false := by
  induction h with
  | attempting hbefore hleft => exact hbefore.not_tellsExhaustion_concat hmem nofun
  | refreshing hbefore hleft => exact hbefore.not_tellsExhaustion_concat hmem nofun
  | pausing hbefore hleft => exact hbefore.not_tellsExhaustion_concat hmem nofun
  | waiting hchapters => exact hchapters.not_tellsExhaustion hmem
  | cancelled hbefore hlast => exact hbefore.not_tellsExhaustion_concat hmem nofun
  | settling hchapters => exact hchapters.not_tellsExhaustion hmem
  | stopped hasked hwaiting ih => exact ih nofun hmem
  | overflowed hbefore hlast hclosing =>
    exact hbefore.not_tellsExhaustion_concat hmem fun h => hclosing (Option.some.inj h)
  | @exhausted purpose _ _ _ hbefore hspent =>
    exact absurd (hphase _ rfl) (purpose.failure_ne_clockOverflow _ _)

/-- An engine that has failed has failed of its last chapter, or of the clock after its first. -/
theorem failed {failure : RefreshFailure} (h : Stands budget asked (.ended (.error failure)) chapters) :
    (∃ purpose faults fault before, failure = Purpose.failure purpose budget fault ∧
      chapters = before ++ [.sequence purpose.cause (faults ++ [fault]) (some .exhausted)] ∧
      Continued budget asked before) ∨
    failure = .clockOverflow ∧ ∃ before faults closing,
      chapters = before ++ [.sequence .startup faults (some closing)] := by
  cases h with
  | exhausted hbefore hspent => exact Or.inl ⟨_, _, _, _, rfl, rfl, hbefore⟩
  | overflowed hbefore hlast hclosing => exact Or.inr ⟨rfl, _, _, _, rfl⟩

end Stands

namespace Timeline

/-- What the engine has recorded and refreshed, and the pauses that it has begun, make up chapters, in
which it stands. -/
def Chronicled (t : Timeline σ) (recorded : List Event) (outcomes : List (Except Fault Unit))
    (pauses : List Nat) : Prop :=
  ∃ chapters, Stands t.plan.retry.budget t.channel.requested t.phase chapters ∧ Opened chapters ∧
    recorded = chapters.flatMap (Chapter.events t.plan.retry.budget) ∧
    outcomes = chapters.flatMap Chapter.outcomes ∧
    pauses = chapters.flatMap (Chapter.pauses t.plan.retry)

variable {t : Timeline σ} {recorded : List Event} {outcomes : List (Except Fault Unit)}
  {pauses : List Nat}

theorem chronicled_start (plan : Plan) (world : World σ) (patient : Bool) :
    Chronicled { plan := plan, world := world, patient := patient } [] [] [] := by
  have hstart : Stands plan.retry.budget false (.attempting .startup ([] : List Fault).length)
      ([] ++ [.sequence Purpose.startup.cause [] none]) :=
    .attempting (fun _ => nofun) (Nat.le_max_right _ _)
  exact ⟨_, hstart, ⟨[], rfl, nofun⟩, rfl, rfl, rfl⟩

namespace Chronicled

theorem happen (h : t.Chronicled recorded outcomes pauses) (happening : Happening σ) :
    (t.happen happening).Chronicled (recorded ++ t.recordedAt happening)
      (outcomes ++ (t.refreshesAt happening).map Prod.snd) (pauses ++ t.pausesAt happening) := by
  obtain ⟨chapters, hstands, hopened, rfl, rfl, rfl⟩ := h
  have hplan := plan_happen (t := t) happening
  have hlater : t.channel.requested = true → (t.happen happening).channel.requested = true :=
    fun hasked => requested_happen hasked happening
  unfold Chronicled
  rw [hplan]
  cases hkind : happening.isStep with
  | true =>
    obtain ⟨backend, rfl⟩ := Happening.eq_step hkind
    obtain ⟨next, world, outcomes, hmove, htold, hrefreshes, hnext⟩ := t.step_told backend
    have hsnd : (t.refreshesAt (.step backend)).map Prod.snd = outcomes := by
      simp [hrefreshes, Function.comp_def]
    obtain ⟨later, hstands, hextends⟩ :=
      hmove.stands htold requested_of_stopSeen stopSeen_of_requested hstands
    have hphase : (t.happen (.step backend)).phase = next := hnext
    have hpauses : t.pausesAt (.step backend) = (t.phase.pauseBegun? t.now next).toList :=
      congrArg (fun phase => (t.phase.pauseBegun? t.now phase).toList) hnext
    rw [hsnd, hphase, hpauses]
    exact ⟨later, hstands.mono hlater, hextends.opened hopened, hextends.events.symm,
      hextends.outcomes.symm, hextends.pauses.symm⟩
  | false =>
    rw [recordedAt_eq_nil hkind, refreshesAt_eq_nil hkind, pausesAt_eq_nil hkind, phase_happen hkind]
    exact ⟨chapters, hstands.mono hlater, hopened, List.append_nil _, List.append_nil _,
      List.append_nil _⟩

theorem after (h : t.Chronicled recorded outcomes pauses) (course : List (Happening σ)) :
    (t.after course).Chronicled (recorded ++ t.recorded course)
      (outcomes ++ (t.refreshes course).map Prod.snd) (pauses ++ t.pauses course) := by
  induction course generalizing t recorded outcomes pauses with
  | nil =>
    rw [Timeline.recorded, refreshes, Timeline.pauses, List.map_nil, List.append_nil, List.append_nil,
      List.append_nil]
    exact h
  | cons happening rest ih =>
    have hrest := ih (h.happen happening)
    rw [List.append_assoc, List.append_assoc, List.append_assoc, ← List.map_append] at hrest
    exact hrest

theorem not_tellsExhaustion (h : t.Chronicled recorded outcomes pauses)
    (hphase : ∀ failure, t.phase = .ended (.error failure) → failure = .clockOverflow) {event : Event}
    (hmem : event ∈ recorded) : event.tellsExhaustion = false := by
  obtain ⟨chapters, hstands, -, rfl, -⟩ := h
  exact hstands.not_tellsExhaustion hphase hmem

/-- What an engine that has failed tells last. -/
theorem failed {failure : RefreshFailure} (h : t.Chronicled recorded outcomes pauses)
    (hphase : t.phase = .ended (.error failure)) (hattempts : failure ≠ .clockOverflow) :
    ∃ (purpose : Purpose) (fault : Fault) (before : List Event),
      failure = purpose.failure t.plan.retry.budget fault ∧
      recorded = before ++
        [.refresh purpose.cause t.plan.retry.budget .exhausted (some fault.message)] ∧
      (∀ event ∈ before, event.tellsExhaustion = false) ∧
      outcomes.getLast? = some (.error fault) := by
  obtain ⟨chapters, hstands, -, rfl, rfl, -⟩ := h
  rw [hphase] at hstands
  rcases hstands.failed with ⟨purpose, faults, fault, before, hfailure, rfl, hbefore⟩ | ⟨hclock, -⟩
  · refine ⟨purpose, fault, before.flatMap (Chapter.events t.plan.retry.budget) ++
      failures purpose.cause (faults ++ [fault]), hfailure, ?_, ?_, ?_⟩
    · simp [List.flatMap_append, Chapter.events, Closing.event]
    · intro event hmem
      rcases List.mem_append.mp hmem with hmem | hmem
      · exact hbefore.not_tellsExhaustion hmem
      · exact Chapter.not_tellsExhaustion_of_mem_failures hmem
    · simp [List.flatMap_append, Chapter.outcomes]
  · exact absurd hclock hattempts

/-- An engine that has failed does not tell of an owed refresh last. -/
theorem last_ne_dirty {failure : RefreshFailure} (h : t.Chronicled recorded outcomes pauses)
    (hphase : t.phase = .ended (.error failure)) (attempt : Nat) (outcome : RefreshOutcome)
    (text : Option String) : recorded.getLast? ≠ some (.refresh .dirty attempt outcome text) := by
  by_cases hattempts : failure = .clockOverflow
  · obtain ⟨chapters, hstands, -, rfl, -⟩ := h
    rw [hphase] at hstands
    rcases hstands.failed with ⟨purpose, _, _, _, hfailure, -⟩ | ⟨-, before, faults, closing, rfl⟩
    · exact absurd (hfailure.symm.trans hattempts) (purpose.failure_ne_clockOverflow _ _)
    · simp only [List.flatMap_append, List.flatMap_singleton, Chapter.events, Option.map_some,
        Option.toList_some, ← List.append_assoc, List.getLast?_concat]
      intro hlast
      cases closing <;> cases hlast
  · obtain ⟨purpose, fault, before, -, rfl, -⟩ := h.failed hphase hattempts
    rw [List.getLast?_concat]
    exact fun hlast => purpose.cause_ne_dirty (Event.refresh.inj (Option.some.inj hlast)).1

/-- The engine records that a sequence was exhausted only when it fails, and then last. -/
theorem mem_dropLast (h : t.Chronicled recorded outcomes pauses) {event : Event}
    (hmem : event ∈ recorded.dropLast) : event.tellsExhaustion = false := by
  by_cases hphase : ∀ failure, t.phase = .ended (.error failure) → failure = .clockOverflow
  · exact h.not_tellsExhaustion hphase (List.dropLast_subset _ hmem)
  · simp only [not_forall] at hphase
    obtain ⟨failure, hphase, hattempts⟩ := hphase
    obtain ⟨purpose, fault, before, -, rfl, hbefore, -⟩ := h.failed hphase hattempts
    rw [List.dropLast_concat] at hmem
    exact hbefore event hmem

/-- A log that ends with an exhausted sequence is that of an engine that has failed of it. -/
theorem exists_of_getLast {cause : RefreshCause} {attempt : Nat} {text : Option String}
    (h : t.Chronicled recorded outcomes pauses)
    (hlast : recorded.getLast? = some (.refresh cause attempt .exhausted text)) :
    ∃ (purpose : Purpose) (fault : Fault), purpose.cause = cause ∧
      t.phase = .ended (.error (purpose.failure t.plan.retry.budget fault)) := by
  by_cases hphase : ∀ failure, t.phase = .ended (.error failure) → failure = .clockOverflow
  · cases h.not_tellsExhaustion hphase (List.mem_of_getLast? hlast)
  · simp only [not_forall] at hphase
    obtain ⟨failure, hphase, hattempts⟩ := hphase
    obtain ⟨purpose, fault, before, rfl, rfl, -, -⟩ := h.failed hphase hattempts
    rw [List.getLast?_concat] at hlast
    cases hlast
    exact ⟨purpose, fault, rfl, hphase⟩

theorem asked (h : t.Chronicled recorded outcomes pauses) (hphase : t.phase = .ended (.ok ())) :
    t.channel.requested = true := by
  obtain ⟨chapters, hstands, -⟩ := h
  rw [hphase] at hstands
  cases hstands with
  | stopped hasked hwaiting => exact hasked

theorem reports (h : t.Chronicled recorded outcomes pauses) :
    recorded.filterMap Event.report? = outcomes.map reportOf := by
  obtain ⟨chapters, -, -, rfl, rfl, -⟩ := h
  rw [List.filterMap_flatMap, List.map_flatMap]
  simp only [Chapter.reports]

end Chronicled

/-- Whatever happens to an engine, its events are one startup sequence and then scheduled sequences
and owed refreshes, and report its refreshes one by one.  Every sequence that is closed is a run of
bounded retries; one is open only while the engine is in it, and three steps for each attempt of the
budget lead out of it.  The engine has failed exactly if the last event tells that a sequence was
exhausted, and then of the last refresh, unless its clock does not reach one interval further.  A course
may end anywhere, so a sequence is cancelled only after a stop has been requested. -/
theorem log_is_faithful (plan : Plan) (world : World σ) (patient : Bool)
    (course : List (Happening σ)) :
    let fresh : Timeline σ := { plan := plan, world := world, patient := patient }
    let t := fresh.after course
    let events := fresh.recorded course
    let outcomes := (fresh.refreshes course).map Prod.snd
    let budget := plan.retry.budget
    events.Sublist (t.log.toList.map Prod.snd) ∧
      events.filterMap Event.report? = outcomes.map reportOf ∧
      (∃ chapters, events = chapters.flatMap (Chapter.events budget) ∧
        outcomes = chapters.flatMap Chapter.outcomes ∧
        fresh.pauses course = chapters.flatMap (Chapter.pauses plan.retry) ∧
        Opened chapters ∧
        (∀ chapter ∈ chapters, chapter.Sound budget t.channel.requested) ∧
        (∀ chapter ∈ chapters, chapter.closed = true → chapter.Retried plan.retry) ∧
        (∀ chapter ∈ chapters.dropLast, chapter.goesOn = true) ∧
        ((∃ chapter ∈ chapters, chapter.closed = false) ↔ t.phase.inSequence = true) ∧
        (t.phase.result?.isSome = true → ∀ chapter ∈ chapters, chapter.closed = true)) ∧
      (∀ rest, 3 * budget ≤ t.strides rest →
        ∃ early, early <+: rest ∧ (t.after early).phase.inSequence = false) ∧
      (t.phase.inSequence = true → t.phase.ready t.now t.stopSeen = false →
        ∃ instant, t.phase.wake? = some instant ∧ ∀ later, instant ≤ later →
          let woken := t.happen (.time later)
          woken.phase.ready woken.now woken.stopSeen = true) ∧
      (∀ event ∈ events.dropLast, event.tellsExhaustion = false) ∧
      ((∃ attempt text, events.getLast? = some (.refresh .startup attempt .exhausted text)) ↔
        ∃ fault, t.phase.result? = some (.error (.startupExhausted budget fault))) ∧
      ((∃ attempt text, events.getLast? = some (.refresh .scheduled attempt .exhausted text)) ↔
        ∃ fault, t.phase.result? = some (.error (.scheduledExhausted budget fault))) ∧
      (∀ failure, t.phase.result? = some (.error failure) →
        (∃ purpose fault, failure = Purpose.failure purpose budget fault ∧
          outcomes.getLast? = some (.error fault)) ∨
        failure = .clockOverflow ∧ plan.fits t.now = false) ∧
      (∀ attempt outcome text, events.getLast? = some (.refresh .dirty attempt outcome text) →
        ∀ failure, t.phase.result? ≠ some (.error failure)) ∧
      (t.phase.result? = some (.ok ()) → t.channel.requested = true) := by
  intro fresh t events outcomes budget
  have h : t.Chronicled events outcomes (fresh.pauses course) :=
    (chronicled_start plan world patient).after course
  have hplan : t.plan = plan := plan_after course
  have hbudget : t.plan.retry.budget = budget := by rw [hplan]
  have hfailed : ∀ {failure}, t.phase.result? = some (.error failure) → failure ≠ .clockOverflow →
      ∃ (purpose : Purpose) (fault : Fault) (before : List Event),
        failure = purpose.failure budget fault ∧
        events = before ++ [.refresh purpose.cause budget .exhausted (some fault.message)] ∧
        outcomes.getLast? = some (.error fault) := by
    intro failure hresult hattempts
    obtain ⟨purpose, fault, before, hfailure, hevents, -, hlast⟩ :=
      h.failed (Phase.eq_ended_of_result hresult) hattempts
    rw [hbudget] at hfailure hevents
    exact ⟨purpose, fault, before, hfailure, hevents, hlast⟩
  refine ⟨fresh.recorded_sublist_log course, h.reports, ?_, fun rest hrest => ?_,
    wakes_of_inSequence, fun event hmem => h.mem_dropLast hmem, ⟨?_, ?_⟩, ⟨?_, ?_⟩, ?_, ?_,
    fun hresult => h.asked (Phase.eq_ended_of_result hresult)⟩
  · obtain ⟨chapters, hstands, hopened, hevents, houtcomes, hpauses⟩ := h
    rw [hbudget] at hstands hevents
    rw [hplan] at hpauses
    exact ⟨chapters, hevents, houtcomes, hpauses, hopened, fun _ => hstands.sound,
      fun _ hmem _ => (hstands.sound hmem).retried, fun _ => hstands.goesOn, hstands.open_iff,
      fun hended _ => hstands.closed hended⟩
  · apply leaves_of_strides
    rw [hbudget]
    exact Nat.le_trans (t.phase.stepsToClose_le (Nat.le_max_right _ _)) hrest
  · rintro ⟨attempt, text, hlast⟩
    obtain ⟨purpose, fault, hcause, hphase⟩ := h.exists_of_getLast hlast
    cases purpose with
    | startup => exact ⟨fault, by rw [hphase, hbudget]; rfl⟩
    | scheduled timers => cases hcause
  · rintro ⟨fault, hresult⟩
    obtain ⟨purpose, fault, before, hfailure, hevents, -⟩ := hfailed hresult nofun
    cases purpose with
    | startup => exact ⟨budget, _, by rw [hevents, List.getLast?_concat]; rfl⟩
    | scheduled timers => cases hfailure
  · rintro ⟨attempt, text, hlast⟩
    obtain ⟨purpose, fault, hcause, hphase⟩ := h.exists_of_getLast hlast
    cases purpose with
    | startup => cases hcause
    | scheduled timers => exact ⟨fault, by rw [hphase, hbudget]; rfl⟩
  · rintro ⟨fault, hresult⟩
    obtain ⟨purpose, fault, before, hfailure, hevents, -⟩ := hfailed hresult nofun
    cases purpose with
    | startup => cases hfailure
    | scheduled timers => exact ⟨budget, _, by rw [hevents, List.getLast?_concat]; rfl⟩
  · intro failure hresult
    by_cases hattempts : failure = .clockOverflow
    · have hexplained := failure_explained (t := fresh) (fun _ h => nomatch h) course failure
        (Phase.eq_ended_of_result hresult)
      rcases hexplained with ⟨purpose, _, _, _, hfailure, -⟩ | ⟨-, hfits⟩
      · exact absurd (hfailure.symm.trans hattempts) (purpose.failure_ne_clockOverflow _ _)
      · have hclock : t.plan.fits t.now = false := hfits
        rw [hplan] at hclock
        exact Or.inr ⟨hattempts, hclock⟩
    · obtain ⟨purpose, fault, before, hfailure, -, hlast⟩ := hfailed hresult hattempts
      exact Or.inl ⟨purpose, fault, hfailure, hlast⟩
  · intro attempt outcome text hlast failure hresult
    exact h.last_ne_dirty (Phase.eq_ended_of_result hresult) attempt outcome text hlast

end Timeline

end ServiceRegistry.Refresh
