import ServiceRegistry.Proofs.Catalog.Deed
import ServiceRegistry.Proofs.Deployment.Upholding
import ServiceRegistry.Proofs.Storage.Reopening

/-!
# A catalog that can be started again

Once a catalog has been started on a database file the disk has all that starting it takes: the
directories and the file, tables in the current layout, and a file for the events.  None of it goes
away while the catalog is at work, unless its events are written over its tables.

* `Deployment.Startable` is what starting takes, and `Startable.run_launch` that it is enough.
* `Deployment.Started` is what has been started, by `launch_started`.
* `Startable.perform`: whatever is done, the catalog can be started afterwards.
* `Started.run_perform_listServices`: what a listing shows.
-/

namespace ServiceRegistry

open Machine (Ends Upholds)

/-- Events that go to a file can be written there, and it is not the one at the place. -/
def LogSettings.Apart (settings : LogSettings) (place : Place) (disk : Disk) : Prop :=
  settings.sink = .file → ∃ path found, settings.path = some path ∧
    disk.locateFile path = .ok found ∧ disk.Free found ∧ found ≠ place

namespace Deployment

/-- With these settings a catalog can be started on the database at the place. -/
structure Startable (settings : Settings) (place : Place) (disk : Disk) : Prop where
  kind : settings.store.kind = .database
  settled : Database.Settled settings.store.database place disk
  tables : ∃ db : Database, disk.Stores (Database.fileAt place) place db.toBytes ∧
    db.layout = some Database.currentLayout
  events : settings.log.Apart place disk

variable {settings : Settings} {place : Place} {disk : Disk} {machine after : Machine} {d : Deployment}

namespace Startable

/-- A file is put where it does not stand in the way of the database. -/
theorem put (h : Startable settings place disk) {found : Place} (hfree : disk.Free found)
    {content : ByteArray} (htables : ∃ db : Database,
      (disk.put found (.file content)).Stores (Database.fileAt place) place db.toBytes ∧
        db.layout = some Database.currentLayout) :
    Startable settings place (disk.put found (.file content)) := by
  refine ⟨h.kind, h.settled.put hfree _, htables, fun hsink => ?_⟩
  obtain ⟨path, other, hpath, hfile, hother, hne⟩ := h.events hsink
  exact ⟨path, other, hpath, Disk.locateFile_put hfree _ hfile, hother.put_file hfree content, hne⟩

theorem put_elsewhere (h : Startable settings place disk) {found : Place} (hfree : disk.Free found)
    (hne : found ≠ place) (content : ByteArray) :
    Startable settings place (disk.put found (.file content)) := by
  obtain ⟨db, hstores, hlayout⟩ := h.tables
  exact h.put hfree ⟨db, hstores.put_of_ne hfree hne.symm _, hlayout⟩

theorem put_tables (h : Startable settings place disk) {db : Database}
    (hlayout : db.layout = some Database.currentLayout) :
    Startable settings place (disk.put place (.file db.toBytes)) := by
  obtain ⟨old, hstores, -⟩ := h.tables
  exact h.put hstores.free ⟨db, hstores.put _, hlayout⟩

end Startable

/-! ## Starting -/

/-- What can be started is started. -/
theorem Startable.run_launch (h : Startable settings place machine.disk) :
    ∃ d after, (launch Machine.host settings).run machine = (.ok d, after) := by
  obtain ⟨db, hstores, hlayout⟩ := h.tables
  let ready := db.withLayout (some Database.currentLayout)
  have hopen : (Database.openAt Machine.host settings.store.database).run machine =
      (.ok ⟨some (Database.fileAt place), ready⟩, Database.writtenAt place ready machine) := by
    rw [Database.openAt_again h.settled hstores, Database.prepare_supported (Or.inr hlayout)]
  have hready : Startable settings place (Database.writtenAt place ready machine).disk := h.put_tables rfl
  have hevents : ∃ after, (openEvents Machine.host settings.log).run
      (Database.writtenAt place ready machine) = (.ok (), after) := by
    unfold openEvents
    split
    · rename_i path hsink hpath
      obtain ⟨other, found, hother, hfile, hfree, -⟩ := hready.events hsink
      obtain rfl := Option.some.inj (hpath.symm.trans hother)
      obtain ⟨content, happend⟩ := Disk.modify_of_free hfile hfree (· ++ .empty)
      simp only [Machine.run_bind, Machine.run_append, Disk.append, happend]
      exact ⟨_, rfl⟩
    · rename_i hsink hpath
      obtain ⟨path, _, hnamed, -⟩ := hready.events hsink
      cases hpath.symm.trans hnamed
    · exact ⟨_, rfl⟩
  obtain ⟨after, hevents⟩ := hevents
  have hdatabase : settings.store.database? = some settings.store.database := by
    rw [StoreSettings.database?, h.kind]
  refine ⟨{ settings := settings, store := .database ready, file := some (Database.fileAt place) }, after, ?_⟩
  simp only [launch, openStore, hdatabase, Machine.run_bind, hopen, Machine.run_pure, Except.map, hevents]

/-- A catalog on the database in the file at the place.  It has the tables as they are there. -/
structure Started (d : Deployment) (machine : Machine) (place : Place) (db : Database) : Prop where
  store : d.store = .database db
  file : d.file = some (Database.fileAt place)
  owed : d.owed = false
  stores : machine.disk.Stores (Database.fileAt place) place db.toBytes

/-- Making sure of a file for the events leaves the database as it is. -/
theorem openEvents_leaves {log : LogSettings}
    (h : (openEvents Machine.host log).run machine = (.ok (), after)) :
    (∀ {database : DatabaseSettings}, Database.Settled database place machine.disk →
      Database.Settled database place after.disk) ∧
    (∀ {path content}, machine.disk.Stores path place content → after.disk.Stores path place content) ∧
    ((∀ path, log.path = some path → after.disk.locate path ≠ .ok place) → log.Apart place after.disk) := by
  unfold openEvents at h
  split at h
  · rename_i path _ hlog
    obtain ⟨_, between, hmade, hends⟩ := Machine.run_ok h fun _ _ => nofun
    obtain rfl : between = after := congrArg Prod.snd hends
    rw [Machine.run_append] at hmade
    cases happend : machine.disk.append path .empty with
    | error failure =>
      rw [happend] at hmade
      cases hmade
    | ok disk =>
      rw [happend] at hmade
      obtain rfl := (Prod.mk.inj hmade).2
      obtain ⟨found, old, hfile, rfl, hentry⟩ := Disk.modify_ok happend
      have hfree := Disk.free_of_file_or_none hentry
      have hthere := Disk.locateFile_put hfree (.file (old ++ .empty)) hfile
      refine ⟨fun hsettled => hsettled.put hfree _,
        fun hstores => hstores.of_modify_same happend fun _ => ByteArray.append_empty, ?_⟩
      intro hpath _
      refine ⟨path, found, hlog, hthere, hfree.put_file hfree _, ?_⟩
      rintro rfl
      exact hpath path hlog (Disk.locate_of_locateFile hthere)
  · cases (Prod.mk.inj h).1
  · rename_i hplaced hunplaced
    obtain rfl := (Prod.mk.inj h).2
    refine ⟨id, id, fun _ hsink => ?_⟩
    cases hpath : log.path with
    | none => exact absurd hpath (hunplaced hsink)
    | some path => exact absurd hpath (hplaced path hsink)

theorem launch_ok (hkind : settings.store.kind = .database)
    (h : (launch Machine.host settings).run machine = (.ok d, after)) :
    ∃ db between, (Database.openAt Machine.host settings.store.database).run machine = (.ok db, between) ∧
      (openEvents Machine.host settings.log).run between = (.ok (), after) ∧
      d = { settings := settings, store := .database db.tables, file := db.file } := by
  have hdatabase : settings.store.database? = some settings.store.database := by
    rw [StoreSettings.database?, hkind]
  obtain ⟨⟨store, file⟩, between, hstore, hrest⟩ := Machine.run_ok h fun _ _ => nofun
  obtain ⟨_, last, hevents, hlaunched⟩ := Machine.run_ok hrest fun _ _ => nofun
  obtain ⟨hd, rfl⟩ := Prod.mk.inj hlaunched
  simp only [openStore, hdatabase] at hstore
  obtain ⟨db, _, hopen, hmade⟩ := Machine.run_ok hstore fun _ _ => nofun
  obtain ⟨hfound, rfl⟩ := Prod.mk.inj hmade
  obtain ⟨rfl, rfl⟩ := Prod.mk.inj (Except.ok.inj hfound)
  exact ⟨db, _, hopen, hevents, (Except.ok.inj hd).symm⟩

/-- A catalog that has been started works on the tables that were at the place, made ready for use, and
can be started again unless its events go there. -/
theorem launch_started (hnames : ∀ name ∈ machine.disk.current, Path.IsName name)
    (hkeeps : machine.disk.Keeps place) (hkind : settings.store.kind = .database)
    (hdurable : settings.store.database.path ≠ Database.transientPath)
    (hplace : Database.engineSteps? machine.disk.current.path settings.store.database.path = some place)
    (h : (launch Machine.host settings).run machine = (.ok d, after)) :
    d.settings = settings ∧
    (∃ tables, machine.disk.tablesAt? place = some tables ∧
      d.Started after place { tables with layout := some Database.currentLayout }) ∧
    ((∀ path, settings.log.path = some path → after.disk.locate path ≠ .ok place) →
      Startable settings place after.disk) := by
  obtain ⟨⟨file, tables⟩, between, hopen, hevents, rfl⟩ := launch_ok hkind h
  obtain ⟨hupholds, hopened⟩ : Ends _ machine _ := Database.openAt_upholds hkeeps
  rw [hopen] at hupholds hopened
  obtain ⟨hfile, hfound⟩ := hopened _ rfl
  obtain rfl : file = some (Database.fileAt place) := by
    have hpath := hfile hdurable
    rwa [hplace] at hpath
  obtain ⟨steps, -, hlayout, hsettled, hstores⟩ := Database.settled_of_opened hnames hopen
  obtain rfl : steps = place := by
    have hengine := hsettled.engine
    rw [hupholds.current, hplace] at hengine
    exact (Option.some.inj hengine).symm
  obtain ⟨found, before, hlocate, hbefore, hready⟩ := hfound _ rfl
  obtain rfl : found = steps := Except.ok.inj (hlocate.symm.trans hstores.readable)
  obtain ⟨hsettles, hkept, hapart⟩ := openEvents_leaves hevents
  refine ⟨rfl, ⟨before, hbefore, ?_⟩, fun hpath => ?_⟩
  · obtain rfl : tables = _ := hready
    exact ⟨rfl, rfl, rfl, hkept hstores⟩
  · exact ⟨hkind, hsettles hsettled, ⟨tables, hkept hstores, hlayout⟩, hapart hpath⟩

/-! ## At work -/

namespace Startable

theorem emit (h : Startable settings place machine.disk) (stamped : StampedEvent) :
    Ends (emit Machine.host settings.log stamped) machine fun _ after =>
      Startable settings place after.disk := by
  unfold Deployment.emit
  split
  · exact h
  · rename_i path hsink hlog
    show Startable settings place ((Machine.host.append path stamped.line.toUTF8).run machine).2.disk
    rw [Machine.run_append]
    cases happend : machine.disk.append path stamped.line.toUTF8 with
    | error failure => exact h
    | ok disk =>
      obtain ⟨found, old, hfile, rfl, hentry⟩ := Disk.modify_ok happend
      obtain ⟨named, other, hnamed, hother, -, hne⟩ := h.events hsink
      obtain rfl := Option.some.inj (hlog.symm.trans hnamed)
      obtain rfl : found = other := Except.ok.inj (hfile.symm.trans hother)
      exact h.put_elsewhere (Disk.free_of_file_or_none hentry) hne _
  · exact h

theorem emits (h : Startable settings place machine.disk) (now : Int) (events : List Event) :
    Ends (events.forM fun event => Deployment.emit Machine.host settings.log ⟨now, event⟩) machine
      fun _ after => Startable settings place after.disk := by
  induction events generalizing machine with
  | nil => exact h
  | cons event rest ih => exact (h.emit ⟨now, event⟩).bind fun _ _ hlater => ih hlater

/-- Whatever is done, the catalog can be started afterwards. -/
theorem perform {α : Type} (h : Startable settings place machine.disk) (hd : d.WorksAt place)
    (hsettings : d.settings = settings) (work : Procedure α) :
    Ends (d.perform Machine.host work) machine fun _ after => Startable settings place after.disk := by
  obtain ⟨db, hstores, hlayout⟩ := h.tables
  subst hsettings
  refine Machine.ends_bind_of_run (run_reload hd hstores) ?_
  refine Machine.ends_bind_of_run (Machine.run_now machine) ?_
  have hlayouts : ∃ tables, (work.run (RecordStore.answer machine.clock.millis)
      { store := .database db, owed := d.owed }).2.store = .database tables ∧
        tables.layout = some Database.currentLayout := by
    refine Procedure.run_preserves
      (fun store => ∃ tables, store = RecordStore.database tables ∧
        tables.layout = some Database.currentLayout)
      ?_ ⟨db, rfl, hlayout⟩
    rintro call _ ⟨tables, rfl, htables⟩
    exact ⟨_, rfl, (Database.respond_layout tables machine.clock.millis call).trans htables⟩
  dsimp only
  generalize work.run (RecordStore.answer machine.clock.millis) { store := .database db, owed := d.owed } =
    ending at hlayouts ⊢
  obtain ⟨value, store, owed, events⟩ := ending
  obtain ⟨tables, rfl, htables⟩ := hlayouts
  refine (h.emits machine.clock.millis events).bind fun _ between hbetween => ?_
  obtain ⟨old, hold, -⟩ := hbetween.tables
  have hfile : ({ d with store := .database db } : Deployment).file = some (Database.fileAt place) := hd.file
  refine Machine.ends_bind_of_run (run_withStore hfile rfl ⟨_, hold⟩ tables) ?_
  show Startable d.settings place (if tables = db then between else Database.writtenAt place tables between).disk
  split
  · exact hbetween
  · exact hbetween.put_tables htables

end Startable

namespace Started

variable {db : Database}

theorem worksAt (h : d.Started machine place db) : d.WorksAt place := ⟨⟨db, h.store⟩, h.file⟩

theorem upkeeps (h : d.Started machine place db) (hkeeps : machine.disk.Keeps place) :
    d.Upkeeps place machine.disk := by
  refine ⟨h.owed, fun file hfile => ⟨db, place, h.store, ?_, fun _ => hkeeps.synced h.stores.tablesAt?⟩⟩
  obtain rfl := Option.some.inj (h.file.symm.trans hfile)
  exact h.stores.readable

/-- A listing shows what is in the file, and changes nothing. -/
theorem run_perform_listServices (h : d.Started machine place db) (hdb : db.Consistent)
    (pages : PageSettings) (page : Nat) (size : Option Nat) (sort : SortKey) (inverted : Bool)
    (term : String) :
    let rows := db.records.matching ⟨term⟩ sort.source
    let shown := Catalog.page (.of page (pages.sizeFor size) inverted) rows
    (d.perform Machine.host ((RecordCommand.listServices page size sort inverted term).procedure pages)).run
      machine = (({ said := [(Page.toJson Service.toJson shown).toText] }, d), machine) := by
  intro rows shown
  have hreload := run_reload h.worksAt h.stores
  obtain ⟨settings, store, file, owed⟩ := d
  obtain rfl : store = .database db := h.store
  obtain rfl : file = some (Database.fileAt place) := h.file
  obtain rfl : owed = false := h.owed
  have hrun := RecordCommand.run_listServices hdb pages machine.clock.millis page size sort inverted term
  have hstays := run_withStore (d := ⟨settings, .database db, some (Database.fileAt place), false⟩)
    rfl rfl ⟨_, h.stores⟩ db
  rw [if_pos rfl] at hstays
  have hsilent : ∀ emit : Event → StateM Machine PUnit,
      (([] : List Event).forM emit).run machine = (⟨⟩, machine) := fun _ => rfl
  simp only [perform, Machine.run_bind, hreload, Machine.run_now, hrun, hsilent, hstays, Machine.run_pure]
  rfl

end Started

end Deployment

end ServiceRegistry
