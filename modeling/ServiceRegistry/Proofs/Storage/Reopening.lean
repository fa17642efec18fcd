import ServiceRegistry.Deployment
import ServiceRegistry.Proofs.Storage.Dialogue
import ServiceRegistry.Proofs.Storage.Opening

/-!
# A database that is closed and opened again

A database in a file is called, closed and opened again any number of times, and the layout version of
its file may be edited or deleted from outside.  Whoever calls it cannot tell: the answers are those of
one database that was never closed.  An opening finds the file as it was left.  It restores a layout
version that has been deleted, and refuses one that it does not know without a trace.

* `Site.happen` is one episode on a machine with its files, and `Site.heard` are the answers that are
  heard in a whole course of them.
* `Door.calls` are the calls that are made: a door knows of the file no more than its layout version.
* `Site.Keeps.happen` and `Site.Keeps.through`: what an episode and a whole course of them keep.
* `reopening_is_invisible`: the answers, and how opening ends at any time.
-/

namespace ServiceRegistry

/-! ## Layout versions and calls -/

namespace Database

def withLayout (db : Database) (layout : Option Int) : Database := { db with layout := layout }

section

variable (db : Database) (layout : Option Int)

@[simp] theorem services_withLayout : (db.withLayout layout).services = db.services := rfl

@[simp] theorem versions_withLayout : (db.withLayout layout).versions = db.versions := rfl

@[simp] theorem lastServiceId_withLayout : (db.withLayout layout).lastServiceId = db.lastServiceId := rfl

@[simp] theorem lastVersionRow_withLayout : (db.withLayout layout).lastVersionRow = db.lastVersionRow := rfl

@[simp] theorem serviceRow?_withLayout (id : Nat) :
    (db.withLayout layout).serviceRow? id = db.serviceRow? id := rfl

@[simp] theorem versionRow?_withLayout (id : Nat) (tag : String) :
    (db.withLayout layout).versionRow? id tag = db.versionRow? id tag := rfl

@[simp] theorem changeService_withLayout (id : Nat) (change : ServiceRow → ServiceRow) :
    (db.withLayout layout).changeService id change = (db.changeService id change).withLayout layout := rfl

/-- The layout version has no part in any call. -/
theorem respond_withLayout (now : Int) (call : Call) :
    (db.withLayout layout).respond now call =
      ((db.respond now call).1, (db.respond now call).2.withLayout layout) := by
  cases call with
  | insertService name description =>
    simp only [respond, insertService, services_withLayout, lastServiceId_withLayout]
    cases nextRowId (db.services.map (·.id)) db.lastServiceId with
    | error fault => rfl
    | ok rowId =>
      by_cases htaken : (db.services.any fun row => row.name == name) = true
      · simp only [htaken, if_true]
      · simp only [htaken]
        rfl
  | updateService id name description =>
    simp only [respond, updateService, services_withLayout, serviceRow?_withLayout]
    cases db.serviceRow? id with
    | none => rfl
    | some row =>
      by_cases htaken : (db.services.any fun row => row.name == name && row.id != toSigned id) = true
      · simp only [htaken, if_true]
      · simp only [htaken]
        rfl
  | deleteService id =>
    simp only [respond, deleteService, serviceRow?_withLayout]
    cases db.serviceRow? id <;> rfl
  | insertVersion id tag info =>
    simp only [respond, insertVersion, serviceRow?_withLayout, changeService_withLayout,
      versionRow?_withLayout, versions_withLayout, lastVersionRow_withLayout]
    cases db.serviceRow? id with
    | none => rfl
    | some row =>
      simp only
      generalize db.changeService id _ = raised
      cases nextRowId (raised.versions.map (·.rowId)) raised.lastVersionRow with
      | error fault => rfl
      | ok rowId => cases raised.versionRow? id tag <;> rfl
  | deleteVersion id tag =>
    simp only [respond, deleteVersion, versionRow?_withLayout]
    cases db.versionRow? id tag <;> rfl
  | _ => rfl

end

theorem answer_withLayout (now : Int) (call : Call) (db : Database) (layout : Option Int) :
    answer now call (db.withLayout layout) =
      ((answer now call db).1, (answer now call db).2.withLayout layout) := by
  simp only [answer]
  rw [respond_withLayout]

/-- No call changes the layout version. -/
theorem respond_layout (db : Database) (now : Int) (call : Call) :
    (db.respond now call).2.layout = db.layout := by
  have hsame := respond_withLayout db db.layout now call
  exact congrArg (fun answered => answered.2.layout) hsame

/-- Whether opening takes a file with this layout version. -/
def supports (layout : Option Int) : Prop := layout = none ∨ layout = some currentLayout

instance (layout : Option Int) : Decidable (supports layout) :=
  inferInstanceAs (Decidable (layout = none ∨ layout = some currentLayout))

theorem prepare_supported {db : Database} (h : supports db.layout) :
    db.prepare = (.ok (), db.withLayout (some currentLayout)) := by
  rcases h with hnone | hcurrent
  · rw [prepare, hnone]
    rfl
  · have hsame : db.withLayout (some currentLayout) = db := by
      rw [← hcurrent]
      rfl
    rw [prepare, hcurrent, hsame]
    exact if_pos rfl

theorem prepare_unsupported {db : Database} {version : Int} (h : db.layout = some version)
    (hother : version ≠ currentLayout) :
    db.prepare = (.error ⟨.versionMismatch, "unsupported schema version: " ++ toString version⟩, db) := by
  rw [prepare, h]
  exact if_neg hother

end Database

/-! ## Calls on an open database -/

namespace Deployment

variable {d : Deployment} {machine : Machine} {steps : List String} {db : Database}

/-- The deployment works on a database in the file at the end of these steps. -/
structure WorksAt (d : Deployment) (steps : List String) : Prop where
  database : ∃ tables, d.store = .database tables
  file : d.file = some (Database.fileAt steps)

theorem run_reload (h : d.WorksAt steps)
    (hstores : machine.disk.Stores (Database.fileAt steps) steps db.toBytes) :
    (d.reload Machine.host).run machine = ({ d with store := .database db }, machine) := by
  obtain ⟨tables, htables⟩ := h.database
  simp only [reload, htables, h.file, Machine.run_bind, Machine.run_read, hstores.read,
    Database.ofBytes?_toBytes, Machine.run_pure, Option.getD_some]

/-- The tables go back to the file if they have changed. -/
theorem run_withStore (hfile : d.file = some (Database.fileAt steps)) (hstore : d.store = .database db)
    (hstores : ∃ content, machine.disk.Stores (Database.fileAt steps) steps content) (tables : Database) :
    (d.withStore Machine.host (.database tables)).run machine =
      ({ d with store := .database tables },
        if tables = db then machine else Database.writtenAt steps tables machine) := by
  have hsave := Database.run_save steps tables hstores
  by_cases hsame : tables = db
  · simp only [withStore, hstore, hsame, ne_eq, not_true_eq_false, if_false, if_true]
    rfl
  · have hchanged : ¬ RecordStore.database tables = .database db := by
      intro heq
      cases heq
      exact hsame rfl
    simp only [withStore, hstore, hsame, ne_eq, hchanged, not_false_eq_true, if_true, if_false, save, hfile,
      Machine.run_bind, hsave]
    rfl

/-- A call is answered from the tables of the file, which go back there. -/
theorem perform_call (h : d.WorksAt steps)
    (hstores : machine.disk.Stores (Database.fileAt steps) steps db.toBytes) (call : Call) :
    let answered := Database.answer machine.clock.millis call db
    (d.perform Machine.host (Procedure.call call)).run machine =
      ((answered.1, { d with store := .database answered.2 }),
        if answered.2 = db then machine else Database.writtenAt steps answered.2 machine) := by
  intro answered
  have hreload := run_reload h hstores
  have hrun : (Procedure.call call).run (RecordStore.answer machine.clock.millis)
      { store := .database db, owed := d.owed } =
      (answered.1, { store := .database answered.2, owed := d.owed }) := rfl
  have hwithStore := run_withStore (d := { d with store := .database db }) h.file rfl ⟨_, hstores⟩ answered.2
  have hsilent : ∀ emit : Event → StateM Machine PUnit,
      (([] : List Event).forM emit).run machine = (⟨⟩, machine) := fun _ => rfl
  simp only [perform, Machine.run_bind, hreload, Machine.run_now, hrun, hsilent, hwithStore,
    Machine.run_pure]

end Deployment

/-! ## A machine and the database on it -/

/-- A machine, and the database on it while it is open. -/
structure Site where
  machine : Machine
  deployment : Option Deployment := none

/-- What happens to a database in a file. -/
inductive Episode
  /-- A call is made on the database if it is open. -/
  | call (call : Call)
  /-- The wall clock comes to another reading. -/
  | clock (clock : WallClock)
  /-- The database is closed, unless it is closed already, and opened. -/
  | reopen
  /-- The layout version of the file is edited from outside, or deleted. -/
  | relabel (layout : Option Int)

namespace Episode

/-- The database is closed and opened, or its file is edited. -/
def concernsFile : Episode → Bool
  | .reopen | .relabel _ => true
  | .call _ | .clock _ => false

/-- An edit leaves a layout version that opening takes. -/
def Supported : Episode → Prop
  | .relabel layout => Database.supports layout
  | _ => True

end Episode

namespace Site

/-- Closes the database and opens it at the path of its settings. -/
def reopen (settings : Settings) (database : DatabaseSettings) (site : Site) : Site :=
  let (result, machine) := (Database.openAt Machine.host database).run site.machine
  let opened (db : OpenDatabase) : Deployment :=
    { settings := settings, store := .database db.tables, file := db.file }
  ⟨machine, result.toOption.map opened⟩

/-- The content of a database file with another layout version. -/
def relabelled (layout : Option Int) (content : ByteArray) : ByteArray :=
  match Database.ofBytes? content with
  | some db => (db.withLayout layout).toBytes
  | none => content

theorem relabelled_toBytes (layout : Option Int) (db : Database) :
    relabelled layout db.toBytes = (db.withLayout layout).toBytes := by
  rw [relabelled, Database.ofBytes?_toBytes]

/-- Edits the layout version of a file. -/
def relabel (file : String) (layout : Option Int) (site : Site) : Site :=
  let edit (disk : Disk) := disk.modify file (relabelled layout)
  { site with machine := ((Machine.changeDisk edit).run site.machine).2 }

/-- Makes a call if the database is open. -/
def call (call : Call) (site : Site) : List Exchange × Site :=
  match site.deployment with
  | none => ([], site)
  | some d =>
    let ((reply, later), machine) := (d.perform Machine.host (Procedure.call call)).run site.machine
    ([⟨site.machine.clock.millis, call, reply⟩], ⟨machine, some later⟩)

section

variable (settings : Settings) (database : DatabaseSettings) (file : String)

/-- What is heard in an episode, and the site after it. -/
def happen (site : Site) : Episode → List Exchange × Site
  | .call request => site.call request
  | .clock clock => ([], { site with machine := { site.machine with clock := clock } })
  | .reopen => ([], site.reopen settings database)
  | .relabel layout => ([], site.relabel file layout)

def after (site : Site) (episodes : List Episode) : Site :=
  episodes.foldl (fun site episode => (site.happen settings database file episode).2) site

/-- All that is heard. -/
def heard : Site → List Episode → List Exchange
  | _, [] => []
  | site, episode :: rest =>
    (site.happen settings database file episode).1 ++
      heard (site.happen settings database file episode).2 rest

end

end Site

/-- What decides which calls are made: whether the database is open, the layout version of its file and
the wall clock. -/
structure Door where
  layout : Option Int
  isOpen : Bool
  clock : WallClock

namespace Door

def next (door : Door) : Episode → Door
  | .call _ => door
  | .clock clock => { door with clock := clock }
  | .reopen =>
    if Database.supports door.layout then
      { door with layout := some Database.currentLayout, isOpen := true }
    else { door with isOpen := false }
  | .relabel layout => { door with layout := layout }

def after (door : Door) (episodes : List Episode) : Door := episodes.foldl next door

/-- The calls that are made, each at its instant. -/
def calls : Door → List Episode → List (Int × Call)
  | _, [] => []
  | door, .call call :: rest =>
    if door.isOpen then (door.clock.millis, call) :: door.calls rest else door.calls rest
  | door, episode :: rest => (door.next episode).calls rest

theorem calls_cons (door : Door) (episode : Episode) (rest : List Episode) :
    door.calls (episode :: rest) = door.calls [episode] ++ (door.next episode).calls rest := by
  cases episode with
  | call call =>
    simp only [calls]
    split <;> rfl
  | _ => rfl

/-- The database is open whenever it is called. -/
def Serves : Door → List Episode → Prop
  | _, [] => True
  | door, .call _ :: rest => door.isOpen = true ∧ door.Serves rest
  | door, episode :: rest => (door.next episode).Serves rest

/-- While the file keeps to layouts that opening takes, an open database stays open. -/
theorem serves_supported {door : Door} {episodes : List Episode}
    (hepisodes : ∀ episode ∈ episodes, episode.Supported) (hopen : door.isOpen = true)
    (hlayout : Database.supports door.layout) : door.Serves episodes := by
  induction episodes generalizing door with
  | nil => trivial
  | cons episode rest ih =>
    have hrest : ∀ other ∈ rest, other.Supported :=
      fun other hmem => hepisodes other (List.mem_cons_of_mem _ hmem)
    cases episode with
    | call call => exact ⟨hopen, ih hrest hopen hlayout⟩
    | clock clock => exact ih hrest hopen hlayout
    | reopen =>
      rw [Serves, next, if_pos hlayout]
      · exact ih hrest rfl (Or.inr rfl)
      · exact nofun
    | relabel layout => exact ih hrest hopen (hepisodes (.relabel layout) List.mem_cons_self)

/-- Then all calls are made, at the same instants as if the file were left alone. -/
theorem Serves.calls_filter {door plain : Door} {episodes : List Episode} (h : door.Serves episodes)
    (hplain : plain.isOpen = true) (hclock : plain.clock = door.clock) :
    door.calls episodes = plain.calls (episodes.filter fun episode => !episode.concernsFile) := by
  induction episodes generalizing door plain with
  | nil => rfl
  | cons episode rest ih =>
    cases episode with
    | call call =>
      obtain ⟨hopen, hrest⟩ := h
      have hfollowing : door.calls rest = plain.calls (rest.filter fun episode => !episode.concernsFile) :=
        ih hrest hplain hclock
      rw [List.filter_cons_of_pos rfl, calls, calls, if_pos hopen, if_pos hplain, hclock, hfollowing]
    | clock clock =>
      rw [List.filter_cons_of_pos rfl]
      exact ih h hplain rfl
    | reopen =>
      rw [List.filter_cons_of_neg Bool.false_ne_true]
      refine ih h hplain ?_
      rw [hclock, next]
      split <;> rfl
    | relabel layout =>
      rw [List.filter_cons_of_neg Bool.false_ne_true]
      exact ih h hplain hclock

end Door

section

variable {σ : Type} (answer : Int → Backend σ)

theorem dialogue_append (store : σ) (first second : List (Int × Call)) :
    dialogue answer store (first ++ second) =
      dialogue answer store first ++ dialogue answer (afterCalls answer store first) second := by
  induction first generalizing store with
  | nil => rfl
  | cons entry rest ih =>
    obtain ⟨now, call⟩ := entry
    simp only [List.cons_append, dialogue, afterCalls_cons, ih]

theorem afterCalls_append (store : σ) (first second : List (Int × Call)) :
    afterCalls answer store (first ++ second) =
      afterCalls answer (afterCalls answer store first) second := List.foldl_append

end

/-! ## What a course of episodes keeps -/

namespace Site

variable {settings : Settings} {database : DatabaseSettings} {steps : List String} {site : Site}
  {door : Door} {db : Database}

/-- The file at the end of the steps holds this database with the layout version of the door, and can be
opened again; it is in use while the door is open. -/
structure Keeps (database : DatabaseSettings) (steps : List String) (db : Database) (site : Site)
    (door : Door) : Prop where
  settled : Database.Settled database steps site.machine.disk
  stores : site.machine.disk.Stores (Database.fileAt steps) steps (db.withLayout door.layout).toBytes
  clock : site.machine.clock = door.clock
  opened : door.isOpen = true → ∃ d, site.deployment = some d ∧ d.WorksAt steps
  closed : door.isOpen = false → site.deployment = none

namespace Keeps

/-- Writing to the file keeps it in its place. -/
theorem written (h : Keeps database steps db site door) (later : Database) :
    let after := Database.writtenAt steps later site.machine
    Database.Settled database steps after.disk ∧
      after.disk.Stores (Database.fileAt steps) steps later.toBytes :=
  ⟨h.settled.put h.stores.free _, h.stores.put _⟩

/-- How opening ends. -/
theorem openAt (h : Keeps database steps db site door) :
    (Database.supports door.layout →
      (Database.openAt Machine.host database).run site.machine =
        (.ok ⟨some (Database.fileAt steps), db.withLayout (some Database.currentLayout)⟩,
          Database.writtenAt steps (db.withLayout (some Database.currentLayout)) site.machine)) ∧
    ∀ version, door.layout = some version → version ≠ Database.currentLayout →
      (Database.openAt Machine.host database).run site.machine =
        (.error (.database
          ⟨.versionMismatch, "unsupported schema version: " ++ toString version⟩), site.machine) := by
  have hagain := Database.openAt_again h.settled h.stores
  constructor
  · intro hsupports
    rw [hagain, Database.prepare_supported hsupports]
    rfl
  · intro version hversion hother
    rw [hagain, Database.prepare_unsupported hversion hother]

theorem reopen (h : Keeps database steps db site door) (settings : Settings) :
    Keeps database steps db (site.reopen settings database) (door.next .reopen) := by
  obtain ⟨hopens, hrefuses⟩ := h.openAt
  by_cases hsupports : Database.supports door.layout
  · obtain ⟨hsettled, hstores⟩ := h.written (db.withLayout (some Database.currentLayout))
    simp only [Site.reopen, hopens hsupports, Door.next, if_pos hsupports]
    exact ⟨hsettled, hstores, h.clock, fun _ => ⟨_, rfl, ⟨_, rfl⟩, rfl⟩, nofun⟩
  · obtain ⟨version, hversion, hother⟩ : ∃ version, door.layout = some version ∧
        version ≠ Database.currentLayout := by
      rw [Database.supports, not_or] at hsupports
      obtain ⟨version, hversion⟩ := Option.ne_none_iff_exists'.mp hsupports.1
      exact ⟨version, hversion, fun heq => hsupports.2 (heq ▸ hversion)⟩
    simp only [Site.reopen, hrefuses version hversion hother, Door.next, if_neg hsupports]
    exact ⟨h.settled, h.stores, h.clock, nofun, fun _ => rfl⟩

theorem relabel (h : Keeps database steps db site door) (layout : Option Int) :
    Keeps database steps db (site.relabel (Database.fileAt steps) layout)
      (door.next (.relabel layout)) := by
  have hmodify := h.stores.modify (relabelled layout)
  rw [relabelled_toBytes] at hmodify
  obtain ⟨hsettled, hstores⟩ := h.written (db.withLayout layout)
  simp only [Site.relabel, Machine.run_changeDisk, hmodify]
  exact ⟨hsettled, hstores, h.clock, h.opened, h.closed⟩

/-- The database is open, and its file holds other tables. -/
theorem working {d : Deployment} (hworks : d.WorksAt steps)
    (hopen : door.isOpen = true) {machine : Machine} {later : Database}
    (hsettled : Database.Settled database steps machine.disk)
    (hstores : machine.disk.Stores (Database.fileAt steps) steps (later.withLayout door.layout).toBytes)
    (hclock : machine.clock = door.clock) :
    Keeps database steps later
      ⟨machine, some { d with store := .database (later.withLayout door.layout) }⟩ door := by
  refine ⟨hsettled, hstores, hclock, fun _ => ⟨_, rfl, ⟨_, rfl⟩, hworks.file⟩, fun hclosed => ?_⟩
  rw [hopen] at hclosed
  cases hclosed

theorem call (h : Keeps database steps db site door) (call : Call) :
    let made := door.calls [.call call]
    (site.call call).1 = dialogue Database.answer db made ∧
      Keeps database steps (afterCalls Database.answer db made) (site.call call).2 door := by
  intro made
  cases hopen : door.isOpen with
  | false =>
    have hmade : made = [] := by simp [made, Door.calls, hopen]
    rw [hmade]
    simp only [Site.call, h.closed hopen]
    exact ⟨rfl, h⟩
  | true =>
    obtain ⟨d, hd, hworks⟩ := h.opened hopen
    have hmade : made = [(site.machine.clock.millis, call)] := by
      simp [made, Door.calls, hopen, h.clock]
    have hperform := Deployment.perform_call hworks h.stores call
    rw [Database.answer_withLayout] at hperform
    rw [hmade]
    simp only [Site.call, hd, hperform]
    refine ⟨rfl, ?_⟩
    let answered := (Database.answer site.machine.clock.millis call db).2
    by_cases hsame : answered.withLayout door.layout = db.withLayout door.layout
    · have hstores := h.stores
      rw [← hsame] at hstores
      rw [if_pos hsame]
      exact working hworks hopen h.settled hstores h.clock
    · obtain ⟨hsettled, hstores⟩ := h.written (answered.withLayout door.layout)
      rw [if_neg hsame]
      exact working hworks hopen hsettled hstores h.clock

/-- What is heard in an episode are the answers of tables that are never put away. -/
theorem happen (h : Keeps database steps db site door) (settings : Settings) (episode : Episode) :
    let made := door.calls [episode]
    let happened := site.happen settings database (Database.fileAt steps) episode
    happened.1 = dialogue Database.answer db made ∧
      Keeps database steps (afterCalls Database.answer db made) happened.2 (door.next episode) := by
  cases episode with
  | call call => exact h.call call
  | clock clock => exact ⟨rfl, h.settled, h.stores, rfl, h.opened, h.closed⟩
  | reopen => exact ⟨rfl, h.reopen settings⟩
  | relabel layout => exact ⟨rfl, h.relabel layout⟩

theorem through (h : Keeps database steps db site door) (settings : Settings) (episodes : List Episode) :
    let made := door.calls episodes
    let file := Database.fileAt steps
    site.heard settings database file episodes = dialogue Database.answer db made ∧
      Keeps database steps (afterCalls Database.answer db made)
        (site.after settings database file episodes) (door.after episodes) := by
  induction episodes generalizing site door db with
  | nil => exact ⟨rfl, h⟩
  | cons episode rest ih =>
    intro made file
    obtain ⟨hheard, hkeeps⟩ := h.happen settings episode
    obtain ⟨hlater, hend⟩ := ih hkeeps
    have hmade : made = door.calls [episode] ++ (door.next episode).calls rest :=
      door.calls_cons episode rest
    rw [hmade, dialogue_append, afterCalls_append]
    constructor
    · rw [heard, hheard, hlater]
    · exact hend

/-- A database that has just been opened. -/
theorem of_opened {machine opened : Machine} {file : String}
    (hnames : ∀ name ∈ machine.disk.current, Path.IsName name)
    (h : (Database.openAt Machine.host database).run machine = (.ok ⟨some file, db⟩, opened))
    (settings : Settings) :
    ∃ steps, file = Database.fileAt steps ∧ db.layout = some Database.currentLayout ∧
      Keeps database steps db
        ⟨opened, some { settings := settings, store := .database db, file := some file }⟩
        ⟨db.layout, true, opened.clock⟩ := by
  obtain ⟨steps, rfl, hlayout, hsettled, hstores⟩ := Database.settled_of_opened hnames h
  exact ⟨steps, rfl, hlayout, hsettled, hstores, rfl, fun _ => ⟨_, rfl, ⟨_, rfl⟩, rfl⟩, nofun⟩

end Keeps

end Site

/-- Whatever is called on a database in a file, and however often it is closed, its layout version edited
and the database opened again in between: the answers are those of one database that is never closed,
to the calls that are made while it is open.  It stays open as long as no edit leaves a layout version
that opening does not take.  If it is open whenever it is called, whatever refused openings there have
been, then nobody can tell from the answers that the file was touched.  At any time the file holds the
tables of that one database.  Opening then brings them back with the current layout, or refuses another
layout and leaves the machine as it is. -/
theorem reopening_is_invisible (settings : Settings) (database : DatabaseSettings)
    (machine opened : Machine) (file : String) (db : Database)
    (hnames : ∀ name ∈ machine.disk.current, Path.IsName name)
    (hopened : (Database.openAt Machine.host database).run machine = (.ok ⟨some file, db⟩, opened))
    (episodes : List Episode) :
    let site : Site :=
      ⟨opened, some { settings := settings, store := .database db, file := some file }⟩
    let door : Door := ⟨db.layout, true, opened.clock⟩
    let later := site.after settings database file episodes
    let tables := afterCalls Database.answer db (door.calls episodes)
    let layout := (door.after episodes).layout
    site.heard settings database file episodes = dialogue Database.answer db (door.calls episodes) ∧
    ((∀ episode ∈ episodes, episode.Supported) → door.Serves episodes) ∧
    (door.Serves episodes →
      site.heard settings database file episodes =
        site.heard settings database file (episodes.filter fun episode => !episode.concernsFile)) ∧
    later.machine.disk.read file = .ok (tables.withLayout layout).toBytes ∧
    (Database.supports layout →
      ∃ machine, (Database.openAt Machine.host database).run later.machine =
          (.ok ⟨some file, tables.withLayout (some Database.currentLayout)⟩, machine) ∧
        machine.disk.read file = .ok (tables.withLayout (some Database.currentLayout)).toBytes) ∧
    ∀ version, layout = some version → version ≠ Database.currentLayout →
      (Database.openAt Machine.host database).run later.machine =
        (.error (.database ⟨.versionMismatch, "unsupported schema version: " ++ toString version⟩),
          later.machine) := by
  intro site door later tables layout
  obtain ⟨steps, rfl, hlayout, hkeeps⟩ := Site.Keeps.of_opened hnames hopened settings
  obtain ⟨hheard, hlater⟩ := hkeeps.through settings episodes
  obtain ⟨hopens, hrefuses⟩ := hlater.openAt
  refine ⟨hheard, ?_, ?_, hlater.stores.read, ?_, hrefuses⟩
  · intro hepisodes
    exact Door.serves_supported hepisodes rfl (Or.inr hlayout)
  · intro hserves
    obtain ⟨hplain, -⟩ := hkeeps.through settings (episodes.filter fun episode => !episode.concernsFile)
    rw [hheard, hplain, hserves.calls_filter rfl rfl]
  · intro hsupports
    obtain ⟨-, hstores⟩ := hlater.written (tables.withLayout (some Database.currentLayout))
    exact ⟨_, hopens hsupports, hstores.read⟩

/-- A file whose layout version is deleted, edited and put back between two calls. -/
theorem reopening_is_invisible_past_refusals :
    let database : DatabaseSettings := { path := "data/catalog.db" }
    let file := "/data/catalog.db"
    let db := (Database.prepare {}).2
    let opened := ((Database.openAt Machine.host database).run {}).2
    let site : Site := ⟨opened, some { settings := {}, store := .database db, file := some file }⟩
    let door : Door := ⟨db.layout, true, opened.clock⟩
    let first : Episode := .call (.insertService "a" "")
    let second : Episode := .call (.insertService "b" "")
    let spoilt := [first, .relabel none, .reopen, .relabel (some 99), .reopen]
    let episodes := spoilt ++ [.reopen, .relabel (some 1), .reopen, .clock ⟨3, 0⟩, second]
    ((∀ name ∈ ({} : Machine).disk.current, Path.IsName name) ∧
      (Database.openAt Machine.host database).run {} = (.ok ⟨some file, db⟩, opened)) ∧
    door.Serves episodes ∧
    site.heard {} database file episodes = site.heard {} database file [first, .clock ⟨3, 0⟩, second] ∧
    site.heard {} database file episodes =
      dialogue Database.answer db [(0, .insertService "a" ""), (3000, .insertService "b" "")] ∧
    ((Database.openAt Machine.host database).run (site.after {} database file spoilt).machine).1 =
      .error (.database ⟨.versionMismatch, "unsupported schema version: 99"⟩) := by
  intro database file db opened site door first second spoilt episodes
  have hnames : ∀ name ∈ ({} : Machine).disk.current, Path.IsName name := nofun
  have hresult : ((Database.openAt Machine.host database).run {}).1.toOption.map
      (fun found => (found.file, found.tables)) = some (some file, db) := by decide +kernel
  have hopened : (Database.openAt Machine.host database).run {} = (.ok ⟨some file, db⟩, opened) := by
    refine Prod.ext ?_ rfl
    cases hrun : ((Database.openAt Machine.host database).run {}).1 with
    | error fault =>
      rw [hrun] at hresult
      cases hresult
    | ok found =>
      rw [hrun] at hresult
      obtain ⟨hfile, htables⟩ := Prod.mk.inj (Option.some.inj hresult)
      change Except.ok found = .ok ⟨some file, db⟩
      rw [← hfile, ← htables]
  have hcalls : door.calls episodes = [(0, .insertService "a" ""), (3000, .insertService "b" "")] := by
    decide +kernel
  have hinvisible := reopening_is_invisible {} database {} opened file db hnames hopened
  have hserves : door.Serves episodes := ⟨rfl, rfl, trivial⟩
  obtain ⟨hheard, -, hplain, -⟩ := hinvisible episodes
  obtain ⟨-, -, -, -, -, hrefuses⟩ := hinvisible spoilt
  refine ⟨⟨hnames, hopened⟩, hserves, hplain hserves, hcalls ▸ hheard, ?_⟩
  rw [hrefuses 99 rfl (by decide)]
  rfl

end ServiceRegistry
