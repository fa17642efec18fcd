import ServiceRegistry.Proofs.Refresh.Solvency

/-!
# Writers and the refreshing engine act by act

Any number of operations and one refresh on demand are in flight over one store, and their acts are
interleaved in any order.  Each call may fail on the way.

* `Traffic.Accounted` is the invariant: every party keeps to its discipline, and a sorted view that is
  behind is someone's debt.
* `Traffic.accounted_move`: every move keeps it.
* `Traffic.no_refresh_lost`: a sorted view that is behind has its mark set, or a writer between its
  write and its mark, or a refresh between consuming the mark and the end of its attempt.
-/

namespace ServiceRegistry.Refresh

/-- An operation in flight: what it has still to do, and whether its acts so far have changed the
table without setting the mark since. -/
structure Writer where
  request : Request
  rest : Procedure (Except Refusal request.Answer)
  owing : Bool := false

structure Traffic where
  world : World (Unreliable RecordStore)
  writers : List Writer := []
  refresh : Procedure (Except Fault Bool) := .done (.ok false)
  /-- Whether the refresh has consumed the mark, and has neither succeeded nor set it again. -/
  taken : Bool := false

/-- The next act of one party, or a new one. -/
inductive Move
  | begin (request : Request)
  /-- The next act of the operation with this number, at an instant; a call may meet a fault. -/
  | write (number : Nat) (now : Int) (fault : Option Fault)
  | beginRefresh
  | refresh (now : Int) (fault : Option Fault)

namespace Writer

def act (backend : Backend σ) (writer : Writer) (world : World σ) : Writer × World σ :=
  (⟨writer.request, (writer.rest.advance backend world).1,
      writer.rest.noteAfter debt backend world writer.owing⟩,
    (writer.rest.advance backend world).2)

def BetweenWriteAndMark (writer : Writer) : Prop :=
  writer.owing = true ∧ ∃ next, writer.rest = .act .markOwed next

def Ended (writer : Writer) : Prop := ∃ result, writer.rest = .done result

end Writer

namespace Traffic

def move (t : Traffic) : Move → Traffic
  | .begin request => { t with writers := t.writers ++ [⟨request, request.procedure, false⟩] }
  | .write number now fault =>
    match t.writers[number]? with
    | none => t
    | some writer =>
      let (writer, world) := writer.act (Unreliable.answer (RecordStore.answer now))
        (Unreliable.withPlan [fault] t.world)
      { t with world := world, writers := t.writers.set number writer }
  | .beginRefresh =>
    match t.refresh with
    | .done _ => { t with refresh := ifOwed, taken := false }
    | .act _ _ => t
  | .refresh now fault =>
    let backend := Unreliable.answer (RecordStore.answer now)
    let world := Unreliable.withPlan [fault] t.world
    { t with
      world := (t.refresh.advance backend world).2
      refresh := (t.refresh.advance backend world).1
      taken := t.refresh.noteAfter debt backend world t.taken }

def after (t : Traffic) (moves : List Move) : Traffic := moves.foldl move t

/-- The refresh has consumed the mark, and its next act is to refresh or, after a failure, to set the
mark again. -/
def BetweenConsumeAndEnd (t : Traffic) : Prop :=
  t.taken = true ∧
    ((∃ next, t.refresh = .act (.call .refreshView) next) ∨ ∃ next, t.refresh = .act .markOwed next)

def Idle (t : Traffic) : Prop :=
  (∀ writer ∈ t.writers, writer.Ended) ∧ ∃ result, t.refresh = .done result

def OthersOwe (t : Traffic) (number : Option Nat) : Prop :=
  ∃ i writer, some i ≠ number ∧ t.writers[i]? = some writer ∧ writer.owing = true

/-- Every party keeps to its discipline, and a sorted view that is behind is someone's debt. -/
structure Accounted (t : Traffic) : Prop where
  writers : ∀ writer ∈ t.writers,
    writer.rest.Follows writerDebt (fun _ owing => owing = false) writer.owing
  refresh : t.refresh.Follows debt (fun _ owing => owing = false) t.taken
  solvent : Solvent (t.OthersOwe none) t.taken t.world

variable {t : Traffic}

/-- A debt of some operation is the debt of a given one or of another. -/
theorem OthersOwe.split {number : Nat} {writer : Writer} (h : t.OthersOwe none)
    (hwriter : t.writers[number]? = some writer) :
    writer.owing = true ∨ t.OthersOwe (some number) := by
  obtain ⟨i, other, -, hother, howing⟩ := h
  by_cases hi : i = number
  · subst hi
    rw [hwriter] at hother
    cases hother
    exact Or.inl howing
  · exact Or.inr ⟨i, other, fun heq => hi (Option.some.inj heq), hother, howing⟩

theorem OthersOwe.after_set {number : Nat} {world : World (Unreliable RecordStore)}
    (h : t.OthersOwe (some number)) (writer : Writer) :
    OthersOwe { t with world := world, writers := t.writers.set number writer } none := by
  obtain ⟨i, other, hi, hother, howing⟩ := h
  refine ⟨i, other, nofun, ?_, howing⟩
  have hne : number ≠ i := fun heq => hi (heq ▸ rfl)
  rw [List.getElem?_set_ne hne]
  exact hother

theorem Accounted.begin (h : t.Accounted) (request : Request) :
    (t.move (.begin request)).Accounted := by
  refine ⟨fun writer hmem => ?_, h.refresh, h.solvent.reassign Or.inl fun hdebt => Or.inr ?_⟩
  · rcases List.mem_append.mp hmem with hmem | hmem
    · exact h.writers writer hmem
    · rw [List.mem_singleton.mp hmem]
      exact request.follows_writerDebt
  · obtain ⟨i, other, hi, hother, howing⟩ := hdebt
    obtain ⟨hlt, -⟩ := List.getElem?_eq_some_iff.mp hother
    refine ⟨i, other, hi, ?_, howing⟩
    exact (List.getElem?_append_left hlt).trans hother

theorem Accounted.write (h : t.Accounted) (number : Nat) (now : Int) (fault : Option Fault) :
    (t.move (.write number now fault)).Accounted := by
  cases hwriter : t.writers[number]? with
  | none =>
    have hsame : t.move (.write number now fault) = t := by simp only [move, hwriter]
    rw [hsame]
    exact h
  | some writer =>
    have hmove : t.move (.write number now fault) =
        { t with
          world := (writer.act (Unreliable.answer (RecordStore.answer now))
            (Unreliable.withPlan [fault] t.world)).2
          writers := t.writers.set number (writer.act (Unreliable.answer (RecordStore.answer now))
            (Unreliable.withPlan [fault] t.world)).1 } := by
      simp only [move, hwriter]
    have hfollows := h.writers writer (List.mem_of_getElem? hwriter)
    -- From the side of this operation the debts of the refresh are debts of others.
    have hbefore : Solvent (t.taken = true ∨ t.OthersOwe (some number)) writer.owing t.world :=
      h.solvent.reassign (fun htaken => Or.inr (Or.inl htaken)) fun hdebt =>
        (hdebt.split hwriter).imp_right Or.inr
    have hafter := (hbefore.withPlan [fault]).advance now hfollows.of_restrict
    rw [hmove]
    refine ⟨fun other hmem => ?_, h.refresh, ?_⟩
    · rcases List.mem_or_eq_of_mem_set hmem with hmem | rfl
      · exact h.writers other hmem
      · exact hfollows.step
    · refine hafter.reassign (fun howing => Or.inr ?_) (Or.imp_right fun hdebt => hdebt.after_set _)
      obtain ⟨hlt, -⟩ := List.getElem?_eq_some_iff.mp hwriter
      exact ⟨number, _, nofun, List.getElem?_set_self hlt, howing⟩

theorem Accounted.beginRefresh (h : t.Accounted) : (t.move .beginRefresh).Accounted := by
  cases hrefresh : t.refresh with
  | act a next =>
    have hsame : t.move .beginRefresh = t := by simp only [move, hrefresh]
    rw [hsame]
    exact h
  | done result =>
    have hmove : t.move .beginRefresh = { t with refresh := ifOwed, taken := false } := by
      simp only [move, hrefresh]
    -- The refresh before it has ended, so it owed nothing.
    have hpaid : t.taken = false := by
      have hfollows := h.refresh
      rw [hrefresh] at hfollows
      exact hfollows
    rw [hmove]
    refine ⟨h.writers, repays_ifOwed, h.solvent.reassign (fun htaken => ?_) Or.inr⟩
    rw [hpaid] at htaken
    cases htaken

theorem Accounted.refreshes (h : t.Accounted) (now : Int) (fault : Option Fault) :
    (t.move (.refresh now fault)).Accounted :=
  ⟨h.writers, h.refresh.step, (h.solvent.withPlan [fault]).advance now h.refresh⟩

theorem accounted_move (h : t.Accounted) (move : Move) : (t.move move).Accounted := by
  cases move with
  | begin request => exact h.begin request
  | write number now fault => exact h.write number now fault
  | beginRefresh => exact h.beginRefresh
  | refresh now fault => exact h.refreshes now fault

theorem accounted_after (h : t.Accounted) (moves : List Move) : (t.after moves).Accounted := by
  induction moves generalizing t with
  | nil => exact h
  | cons move rest ih => exact ih (accounted_move h move)

theorem Accounted.betweenWriteAndMark (h : t.Accounted) {writer : Writer} (hmem : writer ∈ t.writers)
    (howing : writer.owing = true) : writer.BetweenWriteAndMark := by
  refine ⟨howing, ?_⟩
  have hfollows := h.writers writer hmem
  rw [howing] at hfollows
  cases hrest : writer.rest with
  | done result =>
    rw [hrest] at hfollows
    cases hfollows
  | act a next =>
    rw [hrest] at hfollows
    obtain rfl := eq_markOwed_of_allows hfollows.1
    exact ⟨next, rfl⟩

theorem Accounted.betweenConsumeAndEnd (h : t.Accounted) (htaken : t.taken = true) :
    t.BetweenConsumeAndEnd := by
  refine ⟨htaken, ?_⟩
  have hfollows := h.refresh
  rw [htaken] at hfollows
  cases hrest : t.refresh with
  | done result =>
    rw [hrest] at hfollows
    cases hfollows
  | act a next =>
    rw [hrest] at hfollows
    rcases pays_of_allows hfollows.1 with rfl | rfl
    · exact Or.inl ⟨next, rfl⟩
    · exact Or.inr ⟨next, rfl⟩

theorem Idle.not_betweenWriteAndMark (h : t.Idle) {writer : Writer} (hmem : writer ∈ t.writers) :
    ¬ writer.BetweenWriteAndMark := by
  rintro ⟨-, next, hnext⟩
  obtain ⟨result, hdone⟩ := h.1 writer hmem
  rw [hdone] at hnext
  cases hnext

theorem Idle.not_betweenConsumeAndEnd (h : t.Idle) : ¬ t.BetweenConsumeAndEnd := by
  obtain ⟨-, result, hdone⟩ := h
  rintro ⟨-, ⟨next, hnext⟩ | ⟨next, hnext⟩⟩
  · rw [hdone] at hnext
    cases hnext
  · rw [hdone] at hnext
    cases hnext

/-- A sorted view that is behind has its mark set, or a writer about to set it, or a refresh about to
catch up with it; so once nothing is in flight it is current unless the mark is set. -/
theorem no_refresh_lost {store : RecordStore} (hsound : store.Sound) (hcurrent : store.Current)
    (owed : Bool) (moves : List Move) :
    let t := after { world := { store := ⟨store, []⟩, owed := owed } } moves
    (¬ t.world.store.inner.Current →
      t.world.owed = true ∨ (∃ writer ∈ t.writers, writer.BetweenWriteAndMark) ∨
        t.BetweenConsumeAndEnd) ∧
    (t.Idle → t.world.owed = false → t.world.store.inner.Current) := by
  intro t
  have hstart : Accounted { world := { store := ⟨store, []⟩, owed := owed } } :=
    ⟨nofun, rfl, hsound, Or.inr (Or.inr (Or.inr hcurrent))⟩
  have haccounted : t.Accounted := accounted_after hstart moves
  have hbehind : ¬ t.world.store.inner.Current →
      t.world.owed = true ∨ (∃ writer ∈ t.writers, writer.BetweenWriteAndMark) ∨
        t.BetweenConsumeAndEnd := by
    intro hview
    rcases haccounted.solvent.view with hmark | htaken | ⟨i, writer, -, hwriter, howing⟩ | hnow
    · exact Or.inl hmark
    · exact Or.inr (Or.inr (haccounted.betweenConsumeAndEnd htaken))
    · have hmem := List.mem_of_getElem? hwriter
      exact Or.inr (Or.inl ⟨writer, hmem, haccounted.betweenWriteAndMark hmem howing⟩)
    · exact absurd hnow hview
  refine ⟨hbehind, fun hidle hmark => ?_⟩
  by_contra hview
  rcases hbehind hview with howed | ⟨writer, hmem, hwriter⟩ | hrefresh
  · rw [hmark] at howed
    cases howed
  · exact hidle.not_betweenWriteAndMark hmem hwriter
  · exact hidle.not_betweenConsumeAndEnd hrefresh

/-- A write that lands between the consumed mark and a refresh that fails is not lost. -/
theorem no_refresh_lost_around_failure :
    (after { world := { store := ⟨.memory {}, []⟩, owed := true } }
      [.beginRefresh, .refresh 1 none, .begin (.createService "a" ""), .write 0 2 none,
        .write 0 3 none, .refresh 4 (some ⟨.io, "disk"⟩), .refresh 5 none, .refresh 6 none,
        .write 0 7 none, .beginRefresh, .refresh 8 none, .refresh 9 none,
        .refresh 10 none]).world.store.inner.Current := by
  refine (@no_refresh_lost (.memory {}) trivial ⟨.refl _, .nil⟩ true _).2 ⟨?_, ?_⟩ rfl
  · intro writer hmem
    obtain rfl := List.mem_singleton.mp hmem
    exact ⟨_, rfl⟩
  · exact ⟨_, rfl⟩

end Traffic

end ServiceRegistry.Refresh
