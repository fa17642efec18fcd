import ServiceRegistry.Deployment
import ServiceRegistry.Proofs.Storage.Upholding

/-!
# A catalog at work keeps its file

A catalog is started, and does one command.  Where its database lies, where its events go and whether
any of it succeeds is left open: the file at a place is kept all the same.

* `Deployment.launch_upholds`: starting a catalog with any settings, and what it starts from.
* `Deployment.Upkeeps` is what a catalog needs to know of the place, and `Launched.upkeeps` that it knows
  it when it has been started.
* `Deployment.perform_upholds`: carrying out any command.
-/

namespace ServiceRegistry

open Machine (Ends Upholds)

namespace Deployment

variable {place : Place} {machine : Machine}

/-! ## Starting a catalog -/

theorem openEvents_upholds (place : Place) (settings : LogSettings) (machine : Machine) :
    Ends (openEvents Machine.host settings) machine fun _ after => Upholds place machine after := by
  unfold openEvents
  split
  · refine .changeDisk fun _ old hold => ?_
    rw [ByteArray.append_empty]
    exact hold
  · exact .rfl
  · exact .rfl

/-- A catalog as it is started.  Its database, if it has one, is as opening leaves it. -/
structure Launched (settings : Settings) (machine after : Machine) (d : Deployment) : Prop where
  owed : d.owed = false
  memory : settings.store.database? = none → d.file = none
  database : ∀ database, settings.store.database? = some database →
    ∃ db, Database.Opened database machine after db ∧ d.store = .database db.tables ∧ d.file = db.file

theorem openStore_upholds {settings : StoreSettings} (hkeeps : machine.disk.Keeps place) :
    Ends (openStore Machine.host settings) machine fun result after => Upholds place machine after ∧
      ∀ store file, result = .ok (store, file) → (settings.database? = none → file = none) ∧
        ∀ database, settings.database? = some database →
          ∃ db, Database.Opened database machine after db ∧ store = .database db.tables ∧ file = db.file := by
  unfold openStore
  cases hdatabase : settings.database? with
  | none =>
    refine ⟨.rfl, fun store file hresult => ⟨fun _ => ?_, nofun⟩⟩
    exact (Prod.mk.inj (Except.ok.inj hresult)).2.symm
  | some database =>
    refine (Database.openAt_upholds hkeeps).bind ?_
    rintro result after ⟨hupholds, hopened⟩
    refine ⟨hupholds, fun store file hresult => ⟨nofun, fun other hother => ?_⟩⟩
    obtain rfl := Option.some.inj hother
    cases result with
    | error fault => cases hresult
    | ok db =>
      obtain ⟨hstore, hfile⟩ := Prod.mk.inj (Except.ok.inj hresult)
      exact ⟨db, hopened db rfl, hstore.symm, hfile.symm⟩

theorem launch_upholds {settings : Settings} (hkeeps : machine.disk.Keeps place) :
    Ends (launch Machine.host settings) machine fun result after =>
      Upholds place machine after ∧ ∀ d, result = .ok d → Launched settings machine after d := by
  refine (openStore_upholds hkeeps).bind ?_
  rintro result between ⟨hstore, hopened⟩
  cases result with
  | error fault =>
    refine ⟨hstore, fun d hd => ?_⟩
    cases hd
  | ok opened =>
    obtain ⟨store, file⟩ := opened
    refine (openEvents_upholds place settings.log between).bind ?_
    rintro result after hevents
    have hupholds := hstore.trans hevents
    cases result with
    | error fault =>
      refine ⟨hupholds, fun d hd => ?_⟩
      cases hd
    | ok value =>
      refine ⟨hupholds, fun d hd => ?_⟩
      obtain rfl := Except.ok.inj hd
      obtain ⟨hmemory, hdatabase⟩ := hopened store file rfl
      refine ⟨rfl, hmemory, fun database hsettings => ?_⟩
      obtain ⟨db, ⟨hpath, hfound⟩, hdb, hfile⟩ := hdatabase database hsettings
      refine ⟨db, ⟨hpath, fun file hfile => ?_⟩, hdb, hfile⟩
      obtain ⟨found, tables, hlocate, htables, hready⟩ := hfound file hfile
      exact ⟨found, tables, hevents.leads _ _ hlocate, htables, hready⟩

/-! ## Carrying out a command -/

/-- A catalog owes no refresh, and if the file of its database is the one at the place then the sorted
view is current. -/
structure Upkeeps (place : Place) (disk : Disk) (d : Deployment) : Prop where
  owed : d.owed = false
  file : ∀ file, d.file = some file → ∃ tables found, d.store = .database tables ∧
    disk.locate file = .ok found ∧ (found = place → tables.Synced)

theorem Launched.upkeeps {settings : Settings} {after : Machine} {d : Deployment}
    (h : Launched settings machine after d) (hkeeps : machine.disk.Keeps place) :
    d.Upkeeps place after.disk := by
  refine ⟨h.owed, fun file hfile => ?_⟩
  cases hdatabase : settings.store.database? with
  | none =>
    rw [h.memory hdatabase] at hfile
    cases hfile
  | some database =>
    obtain ⟨db, hopened, hstore, hsame⟩ := h.database database hdatabase
    obtain ⟨found, tables, hlocate, htables, hready⟩ := hopened.found file (hsame ▸ hfile)
    refine ⟨db.tables, found, hstore, hlocate, ?_⟩
    rintro rfl
    rw [hready]
    exact (hkeeps.synced htables).withLayout _

/-- Taking the tables from their file again. -/
theorem reload_upkeeps {d : Deployment} (hkeeps : machine.disk.Keeps place)
    (h : d.Upkeeps place machine.disk) :
    Ends (d.reload Machine.host) machine fun later after =>
      after = machine ∧ later.Upkeeps place machine.disk := by
  unfold reload
  split
  · rename_i tables file hstore hfile
    refine Machine.ends_bind_of_run (Machine.run_read file machine) ?_
    cases hread : machine.disk.read file with
    | error failure => exact ⟨rfl, h⟩
    | ok content =>
      refine ⟨rfl, h.owed, fun other hother => ?_⟩
      obtain rfl : file = other := Option.some.inj (hfile.symm.trans hother)
      obtain ⟨found, hlocate, hentry⟩ := Disk.read_eq_ok hread
      refine ⟨_, found, rfl, hlocate, ?_⟩
      rintro rfl
      obtain ⟨known, there, hknown, hthere, hsynced⟩ := h.file file hfile
      obtain rfl : tables = known := RecordStore.database.inj (hstore.symm.trans hknown)
      cases hcontent : Database.ofBytes? content with
      | none => exact hsynced (Except.ok.inj (hthere.symm.trans hlocate))
      | some read => exact (hkeeps content hentry).synced hcontent
  · exact ⟨rfl, h⟩

theorem emit_upholds (place : Place) (log : LogSettings) (stamped : StampedEvent) (machine : Machine) :
    Ends (emit Machine.host log stamped) machine fun _ after => Upholds place machine after := by
  unfold emit
  split
  · exact .complain _
  · exact .changeDisk fun _ old hold => hold.logged stamped
  · exact .rfl

theorem emits_upholds (place : Place) (log : LogSettings) (now : Int) (events : List Event)
    (machine : Machine) :
    Ends (events.forM fun event => emit Machine.host log ⟨now, event⟩) machine fun _ after =>
      Upholds place machine after := by
  induction events generalizing machine with
  | nil => exact .rfl
  | cons event rest ih =>
    refine (emit_upholds place log ⟨now, event⟩ machine).bind ?_
    rintro value between hupholds
    exact (ih between).mono fun _ _ hlater => hupholds.trans hlater

/-- Going on with another store, which is saved if it differs. -/
theorem withStore_upholds {d : Deployment} {store : RecordStore}
    (h : ∀ file tables, d.file = some file → store = .database tables →
      machine.disk.locate file = .ok place → tables.Synced) :
    Ends (d.withStore Machine.host store) machine fun _ after => Upholds place machine after := by
  have hsave : Ends (save Machine.host { d with store := store }) machine fun _ after =>
      Upholds place machine after := by
    unfold save
    split
    · exact .rfl
    · rename_i tables hstore
      obtain rfl : store = .database tables := hstore
      cases hfile : d.file with
      | none => exact .rfl
      | some file =>
        refine (Database.save_upholds (h file tables hfile rfl)).bind ?_
        rintro result after hupholds
        cases result with
        | ok value => exact hupholds
        | error failure => exact (Upholds.complain _).mono fun _ _ hlater => hupholds.trans hlater
  unfold withStore
  dsimp only
  split
  · exact hsave.bind fun _ _ hafter => hafter
  · exact .rfl

/-- Carrying out a command keeps the file at the place, whatever the catalog works on. -/
theorem perform_upholds {d : Deployment} (hkeeps : machine.disk.Keeps place)
    (h : d.Upkeeps place machine.disk) (command : RecordCommand) (pages : PageSettings) :
    Ends (d.perform Machine.host (command.procedure pages)) machine fun _ after =>
      Upholds place machine after := by
  unfold perform
  refine (reload_upkeeps hkeeps h).bind ?_
  rintro d machine ⟨rfl, howed, hfile⟩
  refine Machine.ends_bind_of_run (Machine.run_now machine) ?_
  have hsynced : ∀ file tables, d.file = some file →
      ((command.procedure pages).run (RecordStore.answer machine.clock.millis)
        { store := d.store, owed := d.owed }).2.store = .database tables →
      machine.disk.locate file = .ok place → tables.Synced := by
    intro file tables hd hstore hplace
    obtain ⟨known, found, hknown, hlocate, hsynced⟩ := hfile file hd
    rw [howed, hknown] at hstore
    obtain ⟨later, hlater, hlast⟩ := command.synced pages machine.clock.millis
      (hsynced (Except.ok.inj (hlocate.symm.trans hplace)))
    obtain rfl : tables = later := RecordStore.database.inj (hstore.symm.trans hlater)
    exact hlast
  generalize (command.procedure pages).run (RecordStore.answer machine.clock.millis)
    { store := d.store, owed := d.owed } = ending at hsynced ⊢
  obtain ⟨output, world⟩ := ending
  refine (emits_upholds place d.settings.log machine.clock.millis world.events machine).bind ?_
  rintro value between hemits
  have hsaves : ∀ file tables, d.file = some file → world.store = .database tables →
      between.disk.locate file = .ok place → tables.Synced := by
    intro file tables hd hstore hplace
    obtain ⟨known, found, -, hlocate, -⟩ := hfile file hd
    have hsame : found = place := Except.ok.inj ((hemits.leads file found hlocate).symm.trans hplace)
    exact hsynced file tables hd hstore (hsame ▸ hlocate)
  exact (withStore_upholds hsaves).bind fun _ _ hstore => hemits.trans hstore

end Deployment

end ServiceRegistry
