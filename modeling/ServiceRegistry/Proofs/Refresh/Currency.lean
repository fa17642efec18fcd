import ServiceRegistry.Proofs.Refresh.Solvency

/-!
# The sorted view is current unless a refresh is owed

A catalog lives through a history of pieces of work: requests, refreshes of every kind and marks, at
any instants of the wall clock, over a store whose calls may fail.  After each piece of work the
sorted view is current or the mark is set.

* `Solvent.happen` is the step from one piece of work to the next, `live_solvent` carries it through
  a history, and `view_current_of_not_owed` is what it means for a new store.
-/

namespace ServiceRegistry

namespace Refresh

/-! ## Histories -/

variable {world : World (Unreliable RecordStore)}

inductive Work
  | answer (request : Request)
  | ifOwed
  | flush
  /-- A turn of the refresh engine, wherever it stands. -/
  | engine (plan : Plan) (now : Nat) (stop : Bool) (phase : Phase)
  | markOwed

def Work.procedure : Work → Procedure Unit
  | .answer request => (fun _ => ()) <$> request.procedure
  | .ifOwed => (fun _ => ()) <$> Refresh.ifOwed
  | .flush => (fun _ => ()) <$> Deployment.flush
  | .engine plan now stop phase => (fun _ => ()) <$> phase.turn plan now stop
  | .markOwed => Procedure.markOwed

theorem Work.repays (work : Work) : Repays work.procedure := by
  cases work with
  | answer request => exact request.repays.map _
  | ifOwed => exact repays_ifOwed.map _
  | flush => exact Deployment.repays_flush.map _
  | engine plan now stop phase => exact (Phase.repays_turn plan now stop phase).map _
  | markOwed => exact ⟨trivial, fun _ => rfl⟩

/-- A piece of work at an instant of the wall clock, with the faults that its calls meet. -/
structure Occasion where
  work : Work
  now : Int
  faults : List (Option Fault) := []

def Occasion.happen (world : World (Unreliable RecordStore)) (occasion : Occasion) :
    World (Unreliable RecordStore) :=
  (occasion.work.procedure.run (Unreliable.answer (RecordStore.answer occasion.now))
    (Unreliable.withPlan occasion.faults world)).2

def live (world : World (Unreliable RecordStore)) (history : List Occasion) :
    World (Unreliable RecordStore) :=
  history.foldl Occasion.happen world

theorem Solvent.happen (h : Solvent False false world) (occasion : Occasion) :
    Solvent False false (occasion.happen world) :=
  (h.withPlan occasion.faults).run occasion.now occasion.work.repays

theorem live_solvent (h : Solvent False false world) (history : List Occasion) :
    Solvent False false (live world history) := by
  induction history generalizing world with
  | nil => exact h
  | cons occasion rest ih => exact ih (h.happen occasion)

/-- After every history over a new store the sorted view is current unless a refresh is owed. -/
theorem view_current_of_not_owed {store : RecordStore} (hnew : store.New) (history : List Occasion)
    (howed : (live { store := ⟨store, []⟩ } history).owed = false) :
    (live { store := ⟨store, []⟩ } history).store.inner.Current := by
  have hstart : Solvent False false { store := ⟨store, []⟩ } :=
    ⟨hnew.sound, Or.inr (Or.inr (Or.inr hnew.current))⟩
  rcases (live_solvent hstart history).view with hmark | howing | hother | hview
  · rw [hmark] at howed
    cases howed
  · cases howing
  · cases hother
  · exact hview

/-- A refresh that fails leaves its mark set, and the flush after the next write makes the sorted
view current. -/
theorem view_current_after_flush :
    (live { store := ⟨.database (Database.prepare {}).2, []⟩ }
      [⟨.answer (.createService "b" ""), 5, []⟩, ⟨.ifOwed, 6, [some ⟨.io, "disk"⟩]⟩,
        ⟨.answer (.createService "a" ""), 7, []⟩, ⟨.flush, 8, []⟩]).store.inner.Current :=
  view_current_of_not_owed .database _ (by decide)

end Refresh

end ServiceRegistry
