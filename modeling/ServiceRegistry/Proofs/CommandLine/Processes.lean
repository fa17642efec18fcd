import ServiceRegistry.CommandLine.Run
import ServiceRegistry.Proofs.Deployment.Restarting

/-!
# One process after another

Every command is carried out by a process of its own, which starts with nothing but its words, its
environment and the disk.  No process knows what another still owed to a database, so each leaves the
sorted view current.

* `CommandLine.run_keeps`: a run keeps the file at a place, whatever its words and its settings are.
* `Process.Starts.startable`: after a process that starts on a database another can.
* `Process.listings_agree`: after any processes both listings show the same services.
-/

namespace ServiceRegistry

open Machine (Ends Upholds)

namespace CommandLine

variable {place : Place} {machine : Machine}

theorem say_ends (lines : List String) (machine : Machine) :
    Ends (lines.forM Machine.host.say) machine fun _ after =>
      after.disk = machine.disk ∧ after.said.toList = machine.said.toList ++ lines := by
  induction lines generalizing machine with
  | nil => exact ⟨rfl, (List.append_nil _).symm⟩
  | cons line rest ih =>
    obtain ⟨hdisk, hsaid⟩ := ih { machine with said := machine.said.push line }
    refine ⟨hdisk, hsaid.trans ?_⟩
    rw [Array.toList_push, List.append_assoc]
    rfl

theorem complain_ends (lines : List String) (machine : Machine) :
    Ends (lines.forM Machine.host.complain) machine fun _ after =>
      after.disk = machine.disk ∧ after.said = machine.said := by
  induction lines generalizing machine with
  | nil => exact ⟨rfl, rfl⟩
  | cons line rest ih => exact ih { machine with complained := machine.complained.push line }

/-- Printing adds lines to the outputs and leaves the disk as it is. -/
theorem print_ends (output : Output) (machine : Machine) :
    Ends (print Machine.host output) machine fun exit after => exit = output.exit ∧
      after.disk = machine.disk ∧ after.said.toList = machine.said.toList ++ output.said := by
  refine (say_ends output.said machine).bind fun _ between ⟨hdisk, hsaid⟩ => ?_
  refine (complain_ends output.complained between).bind fun _ after ⟨hlater, hquiet⟩ => ?_
  exact ⟨rfl, hlater.trans hdisk, hquiet ▸ hsaid⟩

/-- Settings are looked for without a trace. -/
theorem load_ends (asked : Option String) (machine : Machine) :
    Ends (Settings.load Machine.host asked) machine fun _ after => after = machine := by
  unfold Settings.load
  refine Machine.ends_bind_of_run rfl ?_
  dsimp only
  split
  · exact rfl
  · refine Machine.ends_bind_of_run (Machine.run_read _ machine) ?_
    split
    · exact rfl
    · exact rfl

theorem ended_keeps (output : Output) (hkeeps : machine.disk.Keeps place) :
    Ends (do return Next.ended (← print Machine.host output)) machine fun _ after =>
      after.disk.Keeps place := by
  refine (print_ends output machine).bind fun _ after ⟨_, hdisk, _⟩ => ?_
  show after.disk.Keeps place
  rw [hdisk]
  exact hkeeps

theorem carryOut_keeps (settings : Settings) (command : Command) (hkeeps : machine.disk.Keeps place) :
    Ends (carryOut Machine.host settings command) machine fun _ after => after.disk.Keeps place := by
  cases command with
  | checkSettings => exact ended_keeps _ hkeeps
  | serve =>
    refine (Deployment.launch_upholds hkeeps).bind fun result between ⟨hupholds, _⟩ => ?_
    cases result with
    | error fault => exact ended_keeps _ (hupholds.keeps hkeeps)
    | ok deployment => exact hupholds.keeps hkeeps
  | records command =>
    refine (Deployment.launch_upholds hkeeps).bind fun result between ⟨hupholds, hlaunched⟩ => ?_
    have hlater := hupholds.keeps hkeeps
    cases result with
    | error fault => exact ended_keeps _ hlater
    | ok deployment =>
      have hupkeeps := (hlaunched deployment rfl).upkeeps hkeeps
      refine (Deployment.perform_upholds hlater hupkeeps command settings.pages).bind ?_
      rintro ⟨output, _⟩ after hperform
      exact ended_keeps output (hperform.keeps hlater)

/-- A run keeps the file at the place, whatever its words and its settings are. -/
theorem run_keeps (words : List String) (hkeeps : machine.disk.Keeps place) :
    Ends (run Machine.host words) machine fun _ after => after.disk.Keeps place := by
  unfold run
  split
  · exact ended_keeps _ hkeeps
  · rename_i path command _
    refine (load_ends path machine).bind ?_
    rintro result _ rfl
    cases result with
    | error fault => exact ended_keeps _ hkeeps
    | ok settings => exact carryOut_keeps settings command hkeeps

end CommandLine

/-! ## Processes -/

/-- A process of the program as it is started. -/
structure Process where
  words : List String
  clock : WallClock := ⟨0, 0⟩
  environment : List (String × String) := []
  /-- The working directory. -/
  directory : Place := []
  names : ∀ name ∈ directory, Path.IsName name

namespace Process

/-- The machine of a new process: of those before it only the disk is left. -/
def start (process : Process) (disk : Disk) : Machine where
  disk := { disk with current := process.directory }
  clock := process.clock
  environment := process.environment

/-- How a process goes on, and the machine then; it is followed until it has ended or is to serve. -/
def run (process : Process) (disk : Disk) : CommandLine.Next × Machine :=
  (CommandLine.run Machine.host process.words).run (process.start disk)

/-- The disk after processes, one after another. -/
def diskAfter (disk : Disk) (history : List Process) : Disk :=
  history.foldl (fun disk process => (process.run disk).2.disk) disk

variable {process : Process} {disk : Disk} {place : Place}

theorem run_keeps (process : Process) (hkeeps : disk.Keeps place) : (process.run disk).2.disk.Keeps place := by
  have hstart : (process.start disk).disk.Keeps place := hkeeps
  exact CommandLine.run_keeps process.words hstart

theorem diskAfter_keeps (hkeeps : disk.Keeps place) (history : List Process) :
    (diskAfter disk history).Keeps place := by
  induction history generalizing disk with
  | nil => exact hkeeps
  | cons process rest ih => exact ih (process.run_keeps hkeeps)

/-- The process is asked for a command on the records of the database at a place. -/
structure Asks (process : Process) (disk : Disk) (place : Place) (settings : Settings)
    (command : RecordCommand) : Prop where
  words : ∃ config, Arguments.read process.words = .ok (config, .records command) ∧
    ((Settings.load Machine.host config).run (process.start disk)).1 = .ok settings
  kind : settings.store.kind = .database
  durable : settings.store.database.path ≠ Database.transientPath
  place : Database.engineSteps? process.directory.path settings.store.database.path = some place

/-- The process is asked for a command and can start its catalog. -/
structure Starts (process : Process) (disk : Disk) (place : Place) (settings : Settings)
    (command : RecordCommand) : Prop extends process.Asks disk place settings command where
  started : ∃ d, ((Deployment.launch Machine.host settings).run (process.start disk)).1 = .ok d

namespace Starts

variable {settings : Settings} {command : RecordCommand}

/-- A process that starts carries out its command and prints what comes of it. -/
theorem ends (h : process.Starts disk place settings command) (post : CommandLine.Next → Machine → Prop)
    {d : Deployment} {after : Machine}
    (hlaunch : (Deployment.launch Machine.host settings).run (process.start disk) = (.ok d, after))
    (hcarried : Ends (do
        let (output, _) ← d.perform Machine.host (command.procedure settings.pages)
        return CommandLine.Next.ended (← CommandLine.print Machine.host output)) after post) :
    post (process.run disk).1 (process.run disk).2 := by
  obtain ⟨config, hwords, hload⟩ := h.words
  have hloads : (Settings.load Machine.host config).run (process.start disk) =
      (.ok settings, process.start disk) := Prod.ext hload (CommandLine.load_ends config _)
  have hends : Ends (CommandLine.run Machine.host process.words) (process.start disk) post := by
    rw [CommandLine.run, hwords]
    refine Machine.ends_bind_of_run hloads ?_
    exact Machine.ends_bind_of_run hlaunch hcarried
  exact hends

/-- The catalog works on the tables at the place, which have only been made ready for use. -/
theorem launched (h : process.Starts disk place settings command) (hkeeps : disk.Keeps place) :
    ∃ d tables after, (Deployment.launch Machine.host settings).run (process.start disk) = (.ok d, after) ∧
      disk.tablesAt? place = some tables ∧
      d.Started after place { tables with layout := some Database.currentLayout } ∧
      d.settings = settings ∧ Upholds place (process.start disk) after ∧
      ((∀ path, settings.log.path = some path → after.disk.locate path ≠ .ok place) →
        Deployment.Startable settings place after.disk) := by
  have hstart : (process.start disk).disk.Keeps place := hkeeps
  obtain ⟨d, hd⟩ := h.started
  have hrun : (Deployment.launch Machine.host settings).run (process.start disk) = (.ok d, _) := Prod.ext hd rfl
  obtain ⟨hsettings, ⟨tables, htables, hstarted⟩, hagain⟩ :=
    Deployment.launch_started process.names hstart h.kind h.durable h.place hrun
  exact ⟨d, tables, _, hrun, htables, hstarted, hsettings, (Deployment.launch_upholds hstart).1, hagain⟩

/-- Whatever comes of its command, a process that starts leaves a database that can be started again,
unless its events go there. -/
theorem startable (h : process.Starts disk place settings command) (hkeeps : disk.Keeps place)
    (hevents : ∀ path, settings.log.path = some path → (process.run disk).2.disk.locate path ≠ .ok place) :
    Deployment.Startable settings place (process.run disk).2.disk ∧
      (process.run disk).2.disk.current = process.directory := by
  obtain ⟨d, tables, after, hlaunch, -, hstarted, hsettings, hupholds, hagain⟩ := h.launched hkeeps
  have hafter : after.disk.Keeps place := hupholds.keeps hkeeps
  have hends : (∀ path found, after.disk.locate path = .ok found →
      (process.run disk).2.disk.locate path = .ok found) ∧
      (process.run disk).2.disk.current = after.disk.current ∧
      (Deployment.Startable settings place after.disk →
        Deployment.Startable settings place (process.run disk).2.disk) := by
    refine h.ends (fun _ last => (∀ path found, after.disk.locate path = .ok found →
      last.disk.locate path = .ok found) ∧ last.disk.current = after.disk.current ∧
      (Deployment.Startable settings place after.disk → Deployment.Startable settings place last.disk))
      hlaunch ?_
    have hperform : Ends (d.perform Machine.host (command.procedure settings.pages)) after
        fun _ between => Upholds place after between ∧ (Deployment.Startable settings place after.disk →
          Deployment.Startable settings place between.disk) :=
      ⟨Deployment.perform_upholds hafter (hstarted.upkeeps hafter) command settings.pages,
        fun hstartable => hstartable.perform hstarted.worksAt hsettings _⟩
    refine hperform.bind ?_
    rintro ⟨output, _⟩ between ⟨hkept, hstays⟩
    refine (CommandLine.print_ends output between).bind fun _ last ⟨_, hdisk, _⟩ => ?_
    show (∀ path found, after.disk.locate path = .ok found → last.disk.locate path = .ok found) ∧
      last.disk.current = after.disk.current ∧
      (Deployment.Startable settings place after.disk → Deployment.Startable settings place last.disk)
    rw [hdisk]
    exact ⟨hkept.leads, hkept.current, hstays⟩
  obtain ⟨hleads, hcurrent, hstays⟩ := hends
  refine ⟨hstays (hagain fun path hpath hthere => ?_), hcurrent.trans hupholds.current⟩
  exact hevents path hpath (hleads path place hthere)

/-- What a process prints that lists the services of a database. -/
theorem prints {page : Nat} {size : Option Nat} {sort : SortKey} {inverted : Bool} {term : String}
    (h : process.Starts disk place settings (.listServices page size sort inverted term))
    (hkeeps : disk.Keeps place) :
    ∃ tables, disk.tablesAt? place = some tables ∧
      let rows := tables.records.matching ⟨term⟩ sort.source
      let shown := Catalog.page (.of page (settings.pages.sizeFor size) inverted) rows
      (process.run disk).1 = .ended 0 ∧
        (process.run disk).2.said.toList = [(Page.toJson Service.toJson shown).toText] := by
  obtain ⟨d, tables, after, hlaunch, htables, hstarted, -, hupholds, -⟩ := h.launched hkeeps
  have hconsistent := ((hkeeps.synced htables).withLayout (some Database.currentLayout)).consistent
  have hperform := hstarted.run_perform_listServices hconsistent settings.pages page size sort inverted term
  refine ⟨tables, htables, ?_⟩
  intro rows shown
  refine h.ends (fun next last =>
    next = .ended 0 ∧ last.said.toList = [(Page.toJson Service.toJson shown).toText]) hlaunch ?_
  refine Machine.ends_bind_of_run hperform ?_
  refine (CommandLine.print_ends _ after).bind fun exit last ⟨hexit, _, hprinted⟩ => ?_
  refine ⟨congrArg CommandLine.Next.ended hexit, hprinted.trans ?_⟩
  rw [hupholds.said]
  rfl

end Starts

/-- Any processes, one after another, with any words, environments, working directories and clocks, leave
the sorted view of a database that was not there before as the service table by name.  A process that
starts on the database leaves it there, and so that the next one can start on it.  And all processes that
list its services show the same ones, with all their columns: by date in the order of the table, by name
in ascending order. -/
theorem listings_agree (disk : Disk) (place : Place) (habsent : disk.entry? place = none)
    (history : List Process) :
    let later := diskAfter disk history
    (∀ tables, later.tablesAt? place = some tables → tables.view = Database.sorted tables.services) ∧
    (∀ (process : Process) (settings : Settings) (command : RecordCommand),
      process.Starts later place settings command →
      (∀ path, settings.log.path = some path → (process.run later).2.disk.locate path ≠ .ok place) →
      (∃ tables, (process.run later).2.disk.tablesAt? place = some tables ∧
        tables.view = Database.sorted tables.services) ∧
      ∀ (next : Process) (command : RecordCommand), next.directory = process.directory →
        next.Asks (process.run later).2.disk place settings command →
        next.Starts (process.run later).2.disk place settings command) ∧
    ∃ byDate byName : List Service,
      byName.Perm byDate ∧ (byName.Pairwise fun a b => a.name < b.name) ∧
      (∀ tables, later.tablesAt? place = some tables →
        byDate.map Service.row = tables.services ∧ byName.map Service.row = tables.view) ∧
      ∀ (process : Process) (settings : Settings) (page : Nat) (size : Option Nat) (sort : SortKey)
        (inverted : Bool) (term : String),
        process.Starts later place settings (.listServices page size sort inverted term) →
        let listed := match sort with
          | .created => byDate
          | .name => byName
        let rows := listed.filter fun s => NameFilter.holds ⟨term⟩ s.name
        let shown := Catalog.page (.of page (settings.pages.sizeFor size) inverted) rows
        (process.run later).1 = .ended 0 ∧
          (process.run later).2.said.toList = [(Page.toJson Service.toJson shown).toText] := by
  intro later
  have hkeeps : later.Keeps place := by
    refine diskAfter_keeps (fun content hcontent => ?_) history
    rw [habsent] at hcontent
    cases hcontent
  refine ⟨fun tables htables => (hkeeps.synced htables).view, ?_, ?_⟩
  · intro process settings command hstarts hevents
    obtain ⟨hstartable, hcurrent⟩ := hstarts.startable hkeeps hevents
    constructor
    · obtain ⟨tables, hstores, -⟩ := hstartable.tables
      exact ⟨tables, hstores.tablesAt?, ((process.run_keeps hkeeps).synced hstores.tablesAt?).view⟩
    · intro next command hdirectory hasks
      have hdisk : (next.start (process.run later).2.disk).disk = (process.run later).2.disk := by
        rw [start, hdirectory, ← hcurrent]
      obtain ⟨d, after, hlaunch⟩ := (hdisk.symm ▸ hstartable).run_launch
      exact ⟨hasks, d, congrArg Prod.fst hlaunch⟩
  · cases htables : later.tablesAt? place with
    | none =>
      refine ⟨[], [], .nil, .nil, nofun, ?_⟩
      intro process settings page size sort inverted term hstarts
      obtain ⟨tables, hthere, -⟩ := hstarts.prints hkeeps
      rw [htables] at hthere
      cases hthere
    | some tables =>
      have hsynced := hkeeps.synced htables
      refine ⟨tables.records.services, tables.records.view, hsynced.perm, hsynced.consistent.arranged.names, ?_, ?_⟩
      · intro other hother
        obtain rfl := Option.some.inj hother
        exact ⟨hsynced.consistent.map_row_records .table, hsynced.consistent.map_row_records .sortedView⟩
      · intro process settings page size sort inverted term hstarts
        obtain ⟨found, hfound, hprints⟩ := hstarts.prints hkeeps
        obtain rfl := Option.some.inj (htables.symm.trans hfound)
        cases sort with
        | created => exact hprints
        | name => exact hprints

/-- A version that is counted, a refused name and words that are no command, and the two listings after
them. -/
theorem listings_agree_past_refusals :
    let disk : Disk := { entries := [(["service-catalog.toml"], .file .empty)] }
    let place : Place := ["service-catalog.db"]
    let process (words : List String) : Process :=
      { words := words, names := fun _ h => absurd h List.not_mem_nil }
    let later := diskAfter disk [process ["service", "add", "--name", "a"],
      process ["version", "add", "--service-id", "1", "--tag", "t"],
      process ["service", "add", "--name", "a"], process ["service", "remove"]]
    let byDate := process ["service", "list"]
    let byName := process ["service", "list", "--sort-by", "name"]
    disk.entry? place = none ∧ byDate.Starts later place {} (.listServices 1 none .created false "") ∧
      byName.Starts later place {} (.listServices 1 none .name false "") ∧
      ∃ rows sortedRows : List Service, sortedRows.Perm rows ∧
        rows.map Service.row = [⟨1, "a", "", 1, 0, 0⟩] ∧
        (byDate.run later).2.said.toList = [(Page.toJson Service.toJson (Catalog.page (.of 1 10 false)
          (rows.filter fun s => NameFilter.holds ⟨""⟩ s.name))).toText] ∧
        (byName.run later).2.said.toList = [(Page.toJson Service.toJson (Catalog.page (.of 1 10 false)
          (sortedRows.filter fun s => NameFilter.holds ⟨""⟩ s.name))).toText] := by
  intro disk place process later byDate byName
  have habsent : disk.entry? place = none := rfl
  have hfacts : (later.tablesAt? place).map Database.services = some [⟨1, "a", "", 1, 0, 0⟩] ∧
      ((Settings.load Machine.host none).run (byDate.start later)).1 = .ok {} ∧
      ((Deployment.launch Machine.host {}).run (byDate.start later)).1.isOk = true := by
    decide +kernel
  obtain ⟨hservices, hload, hstarts⟩ := hfacts
  have hstarted : ∃ d, ((Deployment.launch Machine.host {}).run (byDate.start later)).1 = .ok d := by
    cases hlaunch : ((Deployment.launch Machine.host {}).run (byDate.start later)).1 with
    | error fault =>
      rw [hlaunch] at hstarts
      cases hstarts
    | ok d => exact ⟨d, rfl⟩
  have hplace : Database.engineSteps? (Place.path []) "service-catalog.db" = some place := by decide +kernel
  have hdurable : ("service-catalog.db" : String) ≠ Database.transientPath := by decide
  have hdate : byDate.Starts later place {} (.listServices 1 none .created false "") := by
    have hwords : Arguments.read byDate.words =
        .ok (none, .records (.listServices 1 none .created false "")) := by decide +kernel
    exact ⟨⟨⟨none, hwords, hload⟩, rfl, hdurable, hplace⟩, hstarted⟩
  have hname : byName.Starts later place {} (.listServices 1 none .name false "") := by
    have hwords : Arguments.read byName.words =
        .ok (none, .records (.listServices 1 none .name false "")) := by decide +kernel
    exact ⟨⟨⟨none, hwords, hload⟩, rfl, hdurable, hplace⟩, hstarted⟩
  obtain ⟨-, -, rows, sortedRows, hperm, -, hrows, hshows⟩ := listings_agree disk place habsent
    [process ["service", "add", "--name", "a"],
      process ["version", "add", "--service-id", "1", "--tag", "t"],
      process ["service", "add", "--name", "a"], process ["service", "remove"]]
  obtain ⟨tables, htables, hsame⟩ := Option.map_eq_some_iff.mp hservices
  refine ⟨habsent, hdate, hname, rows, sortedRows, hperm, (hrows tables htables).1.trans hsame, ?_, ?_⟩
  · exact (hshows byDate {} 1 none .created false "" hdate).2
  · exact (hshows byName {} 1 none .name false "" hname).2

end Process

end ServiceRegistry
