import ServiceRegistry.CommandLine.Command
import ServiceRegistry.Proofs.Catalog.Abstract
import ServiceRegistry.Proofs.Listing.Pages
import ServiceRegistry.Proofs.Procedure.Shape
import ServiceRegistry.Proofs.Refresh.Debt

/-!
# Commands bring the sorted view up to date

A process that is asked to change the catalog does not wait for a refresh: it makes one before it ends.
Every command that changes the service table flushes, and a flush of a database succeeds.  So a command
that finds the sorted view current leaves it current, whether it is carried out or refused.

* `Upkept` is what holds in between, and `Upkept.perform` that every act keeps it.
* `RecordCommand.synced`: what a command leaves behind.
* `RecordCommand.run_listServices`: what a listing shows, and that it leaves everything as it is.
-/

namespace ServiceRegistry

variable {db : Database}

/-- The rows hold consistent records, and the sorted view holds the rows of the service table by name. -/
structure Database.Synced (db : Database) : Prop where
  consistent : db.Consistent
  view : db.view = sorted db.services

/-- Both sources hold the same records. -/
theorem Database.Synced.perm (h : db.Synced) : db.records.view.Perm db.records.services := by
  refine List.Perm.map ServiceRow.service ?_
  rw [h.view]
  exact sorted_perm db.services

namespace Refresh

/-- The store is a database with consistent records.  Its sorted view is current unless the mark is set
or whoever works on it owes a refresh. -/
def Upkept (owing : Bool) (world : World RecordStore) : Prop :=
  ∃ db, world.store = .database db ∧ db.Consistent ∧
    (world.owed = true ∨ owing = true ∨ db.view = Database.sorted db.services)

variable {owing : Bool} {world : World RecordStore}

theorem Upkept.call (h : Upkept owing world) (now : Int) (call : Call)
    (hallows : debt.allows owing (.call call)) :
    Upkept (debt.after owing (.call call) (world.perform (RecordStore.answer now) (.call call)).1)
      (world.perform (RecordStore.answer now) (.call call)).2 := by
  obtain ⟨store, owed, events⟩ := world
  obtain ⟨db, rfl, hconsistent, hview⟩ := h
  refine ⟨(db.respond now call).2, rfl, hconsistent.respond now call, ?_⟩
  by_cases hrefresh : call = .refreshView
  · subst hrefresh
    exact Or.inr (Or.inr rfl)
  · change owed = true ∨ debt.after owing (.call call) (Database.answer now call db).1 = true ∨
      (db.respond now call).2.view = Database.sorted (db.respond now call).2.services
    rw [debt_after_call hrefresh]
    cases hchange : call.changesTable (Database.answer now call db).1 with
    | true => exact Or.inr (Or.inl rfl)
    | false =>
      -- The table and the view are as they were, and nothing was owed.
      have hnone := debt_of_allows hrefresh hallows
      rw [Database.respond_view now hrefresh, Database.respond_services hconsistent.undamaged now call hchange,
        ← hnone]
      exact hview

theorem Upkept.perform (h : Upkept owing world) (now : Int) (act : Act) (hallows : debt.allows owing act) :
    Upkept (debt.after owing act (world.perform (RecordStore.answer now) act).1)
      (world.perform (RecordStore.answer now) act).2 := by
  cases act with
  | call call => exact h.call now call hallows
  | markOwed =>
    obtain ⟨db, hstore, hconsistent, -⟩ := h
    exact ⟨db, hstore, hconsistent, Or.inl rfl⟩
  | consumeOwed =>
    obtain ⟨db, hstore, hconsistent, hview⟩ := h
    have hnone : owing = false := hallows
    refine ⟨db, hstore, hconsistent, ?_⟩
    rcases hview with hmark | howing | hview
    · exact Or.inr (Or.inl hmark)
    · rw [hnone] at howing
      cases howing
    · exact Or.inr (Or.inr hview)
  | record event => exact h

/-- A procedure that repays leaves no debt but the mark. -/
theorem Upkept.run {α : Type} {p : Procedure α} (h : Upkept false world) (now : Int) (hp : Repays p) :
    Upkept false (p.run (RecordStore.answer now) world).2 := by
  obtain ⟨owing, hpaid, hafter⟩ := Procedure.Follows.run
    (fun _ _ act hallows hupkept => hupkept.perform now act hallows) hp h
  subst hpaid
  exact hafter

/-- Where the mark is not set the sorted view is current. -/
theorem Upkept.synced (h : Upkept false world) (howed : world.owed = false) :
    ∃ db, world.store = .database db ∧ db.Synced := by
  obtain ⟨db, hstore, hconsistent, hview⟩ := h
  rcases hview with hmark | howing | hview
  · rw [howed] at hmark
    cases hmark
  · cases howing
  · exact ⟨db, hstore, hconsistent, hview⟩

/-- Flushing a database ends with its sorted view current. -/
theorem Upkept.flush (h : Upkept false world) (now : Int) :
    ∃ db, (Deployment.flush.run (RecordStore.answer now) world).2.store = .database db ∧ db.Synced := by
  obtain ⟨store, owed, events⟩ := world
  obtain ⟨db, rfl, hconsistent, hview⟩ := h
  cases owed with
  | true => exact ⟨db.refreshView.2, rfl, hconsistent.refreshView, rfl⟩
  | false =>
    refine ⟨db, rfl, hconsistent, ?_⟩
    simpa using hview

end Refresh

/-! ## Commands on records -/

namespace RecordCommand

open Refresh

/-- The commands that flush are those that may leave a mark. -/
theorem flushes_eq_marks (command : RecordCommand) (pages : PageSettings) :
    command.flushes = (command.request pages).marks := by
  cases command <;> rfl

/-- A command that finds the sorted view of a database current leaves it current. -/
theorem synced (command : RecordCommand) (pages : PageSettings) (now : Int) {db : Database}
    (h : db.Synced) :
    ∃ after, ((command.procedure pages).run (RecordStore.answer now) { store := .database db }).2.store =
      .database after ∧ after.Synced := by
  have hupkept : Upkept false
      ((command.request pages).procedure.run (RecordStore.answer now) { store := .database db }).2 :=
    Upkept.run ⟨db, rfl, h.consistent, Or.inr (Or.inr h.view)⟩ now (command.request pages).repays
  have haccount : Operation.Account (command.request pages).marks { store := .database db } _
      ((command.request pages).procedure.run (RecordStore.answer now) { store := .database db }) :=
    (command.request pages).built.account (RecordStore.answer now) _
  rw [procedure, Procedure.run_bind]
  generalize (command.request pages).procedure.run (RecordStore.answer now) { store := .database db } =
    ending at hupkept haccount ⊢
  obtain ⟨result, after⟩ := ending
  have howed : after.owed = ((command.request pages).marks && result.isOk) := by
    rw [haccount.owed_eq, Bool.false_or]
  cases result with
  | error refusal =>
    rw [Except.isOk, Except.toBool, Bool.and_false] at howed
    exact hupkept.synced howed
  | ok answer =>
    dsimp only
    by_cases hflushes : command.flushes = true
    · obtain ⟨flushed, hstore, hsynced⟩ := hupkept.flush now
      rw [if_pos hflushes, Procedure.run_bind]
      refine ⟨flushed, ?_, hsynced⟩
      split
      · exact hstore
      · exact hstore
    · have hmarks : (command.request pages).marks = false := by
        rw [← flushes_eq_marks]
        exact eq_false_of_ne_true hflushes
      rw [hmarks, Bool.false_and] at howed
      rw [if_neg hflushes]
      exact hupkept.synced howed

/-- What a listing shows of a database: the page of the rows of its source that pass the filter. -/
theorem run_listServices {db : Database} (h : db.Consistent) (pages : PageSettings) (now : Int) (page : Nat)
    (size : Option Nat) (sort : SortKey) (inverted : Bool) (term : String) :
    let rows := db.records.matching ⟨term⟩ sort.source
    let shown := Catalog.page (.of page (pages.sizeFor size) inverted) rows
    ((listServices page size sort inverted term).procedure pages).run (RecordStore.answer now)
        { store := .database db } =
      ({ said := [(Page.toJson Service.toJson shown).toText] }, { store := .database db }) := by
  intro rows shown
  let world : World RecordStore := { store := .database db }
  have hconsistent : world.store.Consistent := h
  have hfetch : ((listServices page size sort inverted term).request pages).procedure.run
      (RecordStore.answer now) world = (.ok shown, world) :=
    RecordStore.exec_fetchServices_window hconsistent now _ _ sort
  rw [procedure, Procedure.run_bind, hfetch]
  rfl

end RecordCommand

end ServiceRegistry
