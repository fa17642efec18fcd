import ServiceRegistry.Proofs.Refresh.Debt
import ServiceRegistry.Proofs.Storage.Unreliable

/-!
# Solvency

The invariant that ties table, sorted view and mark together: the sorted view is current, or the mark
is set, or someone in the midst of work owes a refresh.  It is stated from the side of one party, with
its own debt, and with the debts of all others as a parameter; so it serves parties that work one
after the other and parties that are interleaved act by act.

* `Solvent.perform`: every act that the discipline `debt` allows keeps it.
* `Solvent.run`: so does a procedure that repays, from start to end.
* `Solvent.advance`: so does one act of a procedure in flight.
-/

namespace ServiceRegistry.Refresh

/-- The store is undamaged, and its sorted view is current unless the mark is set, this party owes a
refresh or some other party does. -/
structure Solvent (others : Prop) (owing : Bool) (world : World (Unreliable RecordStore)) : Prop where
  sound : world.store.inner.Sound
  view : world.owed = true ∨ owing = true ∨ others ∨ world.store.inner.Current

variable {others : Prop} {owing : Bool} {world : World (Unreliable RecordStore)}

/-- Debts may change hands. -/
theorem Solvent.reassign {others' : Prop} {owing' : Bool} (h : Solvent others owing world)
    (howing : owing = true → owing' = true ∨ others') (hothers : others → owing' = true ∨ others') :
    Solvent others' owing' world := by
  refine ⟨h.sound, ?_⟩
  rcases h.view with hmark | hdebt | hdebt | hview
  · exact Or.inl hmark
  · exact Or.inr (or_assoc.mp (Or.inl (howing hdebt)))
  · exact Or.inr (or_assoc.mp (Or.inl (hothers hdebt)))
  · exact Or.inr (Or.inr (Or.inr hview))

theorem Solvent.withPlan (h : Solvent others owing world) (plan : List (Option Fault)) :
    Solvent others owing (Unreliable.withPlan plan world) :=
  ⟨h.sound, h.view⟩

theorem Solvent.call (h : Solvent others owing world) (now : Int) (call : Call)
    (hallows : debt.allows owing (.call call)) :
    let backend := Unreliable.answer (RecordStore.answer now)
    Solvent others (debt.after owing (.call call) (world.perform backend (.call call)).1)
      (world.perform backend (.call call)).2 := by
  intro backend
  have hsound : (backend call world.store).2.inner.Sound := by
    rcases Unreliable.answer_cases (RecordStore.answer now) call world.store with
      ⟨_, -, hstore⟩ | ⟨-, hstore⟩
    · exact hstore ▸ h.sound
    · exact hstore ▸ h.sound.answer now call
  refine ⟨hsound, ?_⟩
  change world.owed = true ∨ debt.after owing (.call call) (backend call world.store).1 = true ∨
    others ∨ (backend call world.store).2.inner.Current
  rcases Unreliable.answer_cases (RecordStore.answer now) call world.store with
    ⟨fault, hreply, hstore⟩ | ⟨hreply, hstore⟩
  · rw [hreply, hstore, debt_after_fault hallows]
    exact h.view
  · rw [hreply, hstore]
    -- A view that is current stays so unless the reply tells of a change of the table.
    have hview : call.changesTable (RecordStore.answer now call world.store.inner).1 = false →
        world.owed = true ∨ owing = true ∨ others ∨
          (RecordStore.answer now call world.store.inner).2.Current := fun hsame =>
      h.view.imp_right (Or.imp_right (Or.imp_right fun hcurrent => hcurrent.answer h.sound hsame))
    by_cases hrefresh : call = .refreshView
    · subst hrefresh
      cases hdone : (RecordStore.answer now .refreshView world.store.inner).1 with
      | ok _ => exact Or.inr (Or.inr (Or.inr (RecordStore.current_refreshView hdone)))
      | error fault => exact hview (hdone ▸ rfl)
    · rw [debt_after_call hrefresh]
      cases hchange : call.changesTable (RecordStore.answer now call world.store.inner).1 with
      | true => exact Or.inr (Or.inl rfl)
      | false => exact debt_of_allows hrefresh hallows ▸ hview hchange

theorem Solvent.perform (h : Solvent others owing world) (now : Int) (act : Act)
    (hallows : debt.allows owing act) :
    let backend := Unreliable.answer (RecordStore.answer now)
    Solvent others (debt.after owing act (world.perform backend act).1)
      (world.perform backend act).2 := by
  intro backend
  cases act with
  | call call => exact h.call now call hallows
  | markOwed => exact ⟨h.sound, Or.inl rfl⟩
  | consumeOwed =>
    have hnone : owing = false := hallows
    refine ⟨h.sound, ?_⟩
    rcases h.view with hmark | howing | hview
    · exact Or.inr (Or.inl hmark)
    · rw [hnone] at howing
      cases howing
    · exact Or.inr (Or.inr hview)
  | record event => exact ⟨h.sound, h.view⟩

theorem Solvent.run {α : Type} {p : Procedure α} (h : Solvent others false world) (now : Int)
    (hp : Repays p) :
    Solvent others false (p.run (Unreliable.answer (RecordStore.answer now)) world).2 := by
  obtain ⟨owing, hpaid, hafter⟩ := Procedure.Follows.run
    (fun _ _ act hallows hsolvent => hsolvent.perform now act hallows) hp h
  subst hpaid
  exact hafter

theorem Solvent.advance {α : Type} {Q : α → Bool → Prop} {p : Procedure α}
    (h : Solvent others owing world) (now : Int) (hp : p.Follows debt Q owing) :
    let backend := Unreliable.answer (RecordStore.answer now)
    Solvent others (p.noteAfter debt backend world owing) (p.advance backend world).2 := by
  cases p with
  | done value => exact h
  | act a next => exact h.perform now a hp.1

end ServiceRegistry.Refresh
