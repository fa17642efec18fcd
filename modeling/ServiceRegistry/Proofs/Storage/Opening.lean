import ServiceRegistry.Proofs.Host.Machine
import ServiceRegistry.Proofs.Storage.Archive
import ServiceRegistry.Storage.Opening

/-!
# Opening a database again

Where a database has been opened, it can be opened again: the directories around its file are there,
the engine follows the path to the same file, and no directory has come to lie at the path.  Then the
tables of the file decide how it ends: they are made ready, or their layout is refused and nothing is
changed.

* `Database.engineSteps_eq_locate`: the engine follows a path by its text to where the disk follows it
  by its entries.
* `Database.Settled` is what an opened file leaves to be relied on.
* `Database.settled_of_opened` and `Database.openAt_again`: it holds after opening, and while it does
  opening depends on the tables alone.
-/

namespace ServiceRegistry

namespace Database

variable {disk : Disk} {settings : DatabaseSettings} {machine after : Machine}

/-! ## Following a path by its text -/

theorem engineStep?_names {steps next : List String} {part : String}
    (hsteps : ∀ name ∈ steps, Path.IsName name) (hpart : '/' ∉ part.toList)
    (h : engineStep? steps part = some next) : ∀ name ∈ next, Path.IsName name := by
  unfold engineStep? at h
  split at h
  · cases h
    exact hsteps
  · rename_i hplain
    rw [not_or] at hplain
    split at h
    · cases h
      exact fun name hname => hsteps name (List.mem_of_mem_tail hname)
    · rename_i hdots
      dsimp only at h
      split at h
      · cases h
        intro name hname
        rcases List.mem_cons.mp hname with rfl | hname
        · exact ⟨hplain.1, hplain.2, hdots, hpart⟩
        · exact hsteps name hname
      · cases h

theorem follow_names {parts steps last : List String} (hsteps : ∀ name ∈ steps, Path.IsName name)
    (hparts : ∀ part ∈ parts, '/' ∉ part.toList) (h : parts.foldlM engineStep? steps = some last) :
    ∀ name ∈ last, Path.IsName name := by
  induction parts generalizing steps with
  | nil =>
    cases h
    exact hsteps
  | cons part parts ih =>
    obtain ⟨next, hnext, hrest⟩ := Option.bind_eq_some_iff.mp h
    exact ih (engineStep?_names hsteps (hparts part List.mem_cons_self) hnext)
      (fun other hmem => hparts other (List.mem_cons_of_mem _ hmem)) hrest

/-- The engine and the disk take the same step. -/
theorem engineStep?_eq_child {around place next : Place} {part : String}
    (hchild : disk.child around part = .ok place) (h : engineStep? around part = some next) :
    next = place := by
  unfold Disk.child at hchild
  unfold engineStep? at h
  split at hchild
  · cases hchild
  · cases hchild
  · split at h
    · rename_i hplain
      rw [if_pos hplain] at hchild
      cases h
      exact Except.ok.inj hchild
    · rename_i hplain
      rw [if_neg hplain] at hchild
      split at h
      · rename_i hdots
        rw [if_pos hdots] at hchild
        cases h
        exact Except.ok.inj hchild
      · rename_i hdots
        rw [if_neg hdots] at hchild
        dsimp only at h
        split at h
        · split at hchild
          · cases hchild
          · cases h
            exact Except.ok.inj hchild
        · cases h

theorem follow_eq {parts : List String} {around place last : Place}
    (hfollowed : parts.foldlM disk.child around = .ok place)
    (h : parts.foldlM engineStep? around = some last) : last = place := by
  induction parts generalizing around with
  | nil =>
    cases h
    exact Except.ok.inj hfollowed
  | cons part parts ih =>
    obtain ⟨next, hnext, hrest⟩ := Option.bind_eq_some_iff.mp h
    obtain ⟨child, hchild, hdown⟩ := bind_eq_ok.mp hfollowed
    rw [engineStep?_eq_child hchild hnext] at hrest
    exact ih hdown hrest

/-- What an engine that has found its way has found. -/
theorem engineSteps?_eq_some {workingDirectory path : String} {steps : List String}
    (h : engineSteps? workingDirectory path = some steps) :
    steps ≠ [] ∧ (Path.parts path).foldlM engineStep?
      (if Path.isAbsolute path then [] else (Path.steps workingDirectory).reverse) = some steps := by
  obtain ⟨found, hfound, hlast⟩ := Option.bind_eq_some_iff.mp h
  dsimp only at hlast
  split at hlast
  · cases hlast
  · rename_i hroom
    cases hlast
    exact ⟨fun hnil => hroom (Or.inl hnil), hfound⟩

theorem reverse_steps_path {place : Place} (h : ∀ name ∈ place, Path.IsName name) :
    (Path.steps place.path).reverse = place := by
  rw [Place.path, Path.steps_ofSteps fun name hname => h name (List.mem_reverse.mp hname),
    List.reverse_reverse]

section

variable (hcurrent : ∀ name ∈ disk.current, Path.IsName name) {path : String} {steps : List String}
  (h : engineSteps? disk.current.path path = some steps)
include hcurrent h

theorem engineSteps?_names : ∀ name ∈ steps, Path.IsName name := by
  have hfollowed := (engineSteps?_eq_some h).2
  rw [reverse_steps_path hcurrent] at hfollowed
  refine follow_names ?_ (fun part hpart => Path.no_slash_of_mem_parts hpart) hfollowed
  split
  · exact fun name hname => absurd hname List.not_mem_nil
  · exact hcurrent

/-- The engine follows a path by its text to where the disk follows it by its entries. -/
theorem engineSteps?_eq_locate {place : Place} (hplace : disk.locate path = .ok place) :
    steps = place := by
  have hfollowed := (engineSteps?_eq_some h).2
  rw [reverse_steps_path hcurrent] at hfollowed
  obtain ⟨origin, horigin, hdown⟩ := bind_eq_ok.mp hplace
  have hstart : origin = if Path.isAbsolute path then [] else disk.current := by
    unfold Disk.origin at horigin
    split at horigin
    · cases horigin
    · split at horigin
      · cases horigin
      · split at horigin
        · cases horigin
        · exact (Except.ok.inj horigin).symm
  subst hstart
  exact follow_eq hdown hfollowed

end

/-! ## Acts of the engine on a machine -/

/-- The file that the engine opens at the end of these steps. -/
def fileAt (steps : List String) : String := Path.ofSteps true steps.reverse

/-- The machine with a database written at the end of these steps. -/
def writtenAt (steps : List String) (db : Database) (machine : Machine) : Machine :=
  { machine with disk := machine.disk.put steps (.file db.toBytes) }

theorem run_save (steps : List String) (db : Database)
    (hstores : ∃ content, machine.disk.Stores (fileAt steps) steps content) :
    (save Machine.host ⟨some (fileAt steps), db⟩).run machine = (.ok (), writtenAt steps db machine) := by
  obtain ⟨content, hstores⟩ := hstores
  simp only [save, Machine.run_write, hstores.write]
  rfl

theorem run_readFile {file : String} {content : ByteArray} (h : machine.disk.read file = .ok content) :
    (readFile Machine.host file).run machine =
      (match ofBytes? content with
        | none => .error (engineFault "file is not a database")
        | some tables => .ok tables, machine) := by
  simp only [readFile, Machine.run_bind, Machine.run_read, h, Machine.run_pure]
  cases ofBytes? content <;> rfl

/-! ## Opening again -/

/-- What opening asks of a disk besides the tables: the settings are sound, the directories around the
file are there, and the engine finds its way to the end of these steps. -/
structure Settled (settings : DatabaseSettings) (steps : List String) (disk : Disk) : Prop where
  path : DatabaseSettings.pathFault? settings.path = none
  timeout : settings.busyTimeout ≤ DatabaseSettings.maxBusyTimeout
  durable : settings.path ≠ transientPath
  plain : settings.path.toList.contains '\x00' = false
  names : ∀ name ∈ disk.current, Path.IsName name
  around : (Path.steps settings.path).reverse.tail = [] ∨ disk.isDirectory (Path.ofSteps
    (Path.isAbsolute settings.path) (Path.steps settings.path).reverse.tail.reverse) = true
  engine : engineSteps? disk.current.path settings.path = some steps
  journal : canHaveJournal steps = true

namespace Settled

variable {steps : List String} {content : ByteArray}

theorem put (h : Settled settings steps disk) {place : Place} (hfree : disk.Free place)
    (entry : DiskEntry) : Settled settings steps (disk.put place entry) :=
  { h with around := h.around.imp_right (Disk.isDirectory_put hfree entry) }

/-- No directory lies at the path, since the file does. -/
theorem not_isDirectory (h : Settled settings steps disk)
    (hstores : disk.Stores (fileAt steps) steps content) : disk.isDirectory settings.path = false := by
  rw [Bool.eq_false_iff]
  intro hdirectory
  obtain ⟨found, hfound, hentry⟩ := Disk.isDirectory_iff.mp hdirectory
  rw [← engineSteps?_eq_locate h.names h.engine hfound, hstores.content] at hentry
  cases hentry

end Settled

theorem start_of_settled {steps : List String} (h : Settled settings steps disk) (db : Database) :
    start settings db = match db.prepare with
      | (.ok (), ready) => .ok ready
      | (.error fault, _) => .error (.database fault) := if_neg (Nat.not_lt.mpr h.timeout)

section

variable {steps : List String} {db : Database} (h : Settled settings steps machine.disk)
  (hstores : machine.disk.Stores (fileAt steps) steps db.toBytes)
include h hstores

theorem openFile_again :
    (openFile Machine.host settings).run machine = match db.prepare with
      | (.ok (), ready) => (.ok ⟨some (fileAt steps), ready⟩, writtenAt steps ready machine)
      | (.error fault, _) => (.error (.database fault), machine) := by
  have hfile : Path.ofSteps true steps.reverse = fileAt steps := rfl
  have hread := run_readFile hstores.read
  rw [ofBytes?_toBytes] at hread
  simp only [openFile, Machine.run_bind, Machine.run_workingDirectory, h.engine, hfile, hread, h.journal,
    start_of_settled h]
  cases hprepared : db.prepare with
  | mk result ready =>
    cases result with
    | error fault => rfl
    | ok value =>
      have hsave := run_save steps ready ⟨_, hstores⟩
      simp only [Bool.not_true, Bool.false_eq_true, if_false, Machine.run_bind, hsave]
      rfl

/-- The tables of the file decide how opening it again ends. -/
theorem openAt_again :
    (openAt Machine.host settings).run machine = match db.prepare with
      | (.ok (), ready) => (.ok ⟨some (fileAt steps), ready⟩, writtenAt steps ready machine)
      | (.error fault, _) => (.error (.database fault), machine) := by
  simp only [openAt, h.path, Machine.run_bind, Machine.run_isDirectory, h.not_isDirectory hstores,
    Bool.false_eq_true, if_false, Machine.makeDirectories_again h.around, h.durable, h.plain]
  exact openFile_again h hstores

end

/-! ## Opening for the first time -/

theorem write_ok {steps : List String} (hne : steps ≠ []) (hnames : ∀ name ∈ steps, Path.IsName name)
    {content : ByteArray} (h : (Machine.host.write (fileAt steps) content).run machine = (.ok (), after)) :
    machine.disk.Free steps ∧ after.disk = machine.disk.put steps (.file content) ∧
      after.disk.Stores (fileAt steps) steps content := by
  rw [Machine.run_write] at h
  cases hwrite : machine.disk.write (fileAt steps) content with
  | error failure =>
    rw [hwrite] at h
    cases h
  | ok disk =>
    rw [hwrite] at h
    cases h
    have hreversed : ∀ name ∈ steps.reverse, Path.IsName name :=
      fun name hname => hnames name (List.mem_reverse.mp hname)
    have hwritten := Disk.stores_of_write (List.reverse_ne_nil_iff.mpr hne) hreversed hwrite
    rwa [List.reverse_reverse] at hwritten

/-- A file that has been read was there, or has been made. -/
theorem readFile_ok {file : String} {db : Database}
    (h : (readFile Machine.host file).run machine = (.ok db, after)) :
    after = machine ∨ (Machine.host.write file .empty).run machine = (.ok (), after) := by
  cases hread : machine.disk.read file with
  | ok content =>
    left
    rw [run_readFile hread] at h
    exact (congrArg Prod.snd h).symm
  | error failure =>
    simp only [readFile, Machine.run_bind, Machine.run_read, hread] at h
    cases failure with
    | noEntry =>
      right
      simp only [Machine.run_bind] at h
      cases hwrite : (Machine.host.write file .empty).run machine with
      | mk result between =>
        rw [hwrite] at h
        cases result with
        | error failure => cases h
        | ok value =>
          cases h
          rfl
    | _ => cases h

theorem prepare_ok {tables ready : Database} (h : tables.prepare = (.ok (), ready)) :
    ready = { tables with layout := some currentLayout } := by
  unfold prepare at h
  split at h
  · exact (Prod.mk.inj h).2.symm
  · rename_i version hversion
    split at h
    · rename_i hcurrent
      rw [← hcurrent, ← hversion]
      exact (Prod.mk.inj h).2.symm
    · cases h

/-- A start that ends well waits for locks no longer than the engine can, and names the layout. -/
theorem start_ok {tables ready : Database} (h : start settings tables = .ok ready) :
    settings.busyTimeout ≤ DatabaseSettings.maxBusyTimeout ∧
      ready = { tables with layout := some currentLayout } := by
  unfold start at h
  split at h
  · cases h
  · rename_i hlong
    refine ⟨Nat.not_lt.mp hlong, ?_⟩
    split at h
    · rename_i hprepare
      cases h
      exact prepare_ok hprepare
    · cases h

/-- A database in memory has no file. -/
theorem start_ne_file (tables : Database) {file : String} {db : Database} :
    (start settings tables).map (fun ready => (⟨none, ready⟩ : OpenDatabase)) ≠ .ok ⟨some file, db⟩ := by
  cases start settings tables with
  | error fault => exact nofun
  | ok ready => exact nofun

/-- What the engine has done when it has opened a file. -/
theorem openFile_ok {file : String} {db : Database}
    (hnames : ∀ name ∈ machine.disk.current, Path.IsName name)
    (h : (openFile Machine.host settings).run machine = (.ok ⟨some file, db⟩, after)) :
    ∃ steps, engineSteps? machine.disk.current.path settings.path = some steps ∧
      canHaveJournal steps = true ∧ settings.busyTimeout ≤ DatabaseSettings.maxBusyTimeout ∧
      db.layout = some currentLayout ∧ file = fileAt steps ∧
      after.disk.Stores file steps db.toBytes ∧
      (Settled settings steps machine.disk → Settled settings steps after.disk) := by
  simp only [openFile, Machine.run_bind, Machine.run_workingDirectory] at h
  cases hengine : engineSteps? machine.disk.current.path settings.path with
  | none =>
    rw [hengine] at h
    cases h
  | some steps =>
    have hsteps := engineSteps?_names hnames hengine
    have hne := (engineSteps?_eq_some hengine).1
    simp only [hengine] at h
    obtain ⟨tables, between, hread, hrest⟩ := Machine.run_ok h fun _ _ => nofun
    by_cases hjournal : canHaveJournal steps = true
    · simp only [hjournal, Bool.not_true, Bool.false_eq_true, if_false] at hrest
      cases hstart : start settings tables with
      | error fault =>
        rw [hstart] at hrest
        cases hrest
      | ok ready =>
        obtain ⟨htimeout, hready⟩ := start_ok hstart
        have hlayout : ready.layout = some currentLayout := by rw [hready]
        simp only [hstart] at hrest
        obtain ⟨_, last, hsave, hend⟩ := Machine.run_ok hrest fun _ _ => nofun
        cases hend
        obtain ⟨hfree, hput, hstores⟩ := write_ok hne hsteps hsave
        refine ⟨steps, rfl, hjournal, htimeout, hlayout, rfl, hstores, fun hsettled => ?_⟩
        rw [hput]
        refine Settled.put ?_ hfree _
        rcases readFile_ok hread with rfl | hmade
        · exact hsettled
        · obtain ⟨hfree, hput, -⟩ := write_ok hne hsteps hmade
          rw [hput]
          exact hsettled.put hfree _
    · simp only [hjournal, Bool.not_false, if_true] at hrest
      cases hrest

/-- A database that has been opened in a file can be opened there again. -/
theorem settled_of_opened {file : String} {db : Database}
    (hnames : ∀ name ∈ machine.disk.current, Path.IsName name)
    (h : (openAt Machine.host settings).run machine = (.ok ⟨some file, db⟩, after)) :
    ∃ steps, file = fileAt steps ∧ db.layout = some currentLayout ∧
      Settled settings steps after.disk ∧ after.disk.Stores file steps db.toBytes := by
  simp only [openAt] at h
  cases hpath : DatabaseSettings.pathFault? settings.path with
  | some fault =>
    rw [hpath] at h
    cases h
  | none =>
    simp only [hpath, Machine.run_bind, Machine.run_isDirectory] at h
    cases hdirectory : machine.disk.isDirectory settings.path with
    | true =>
      simp only [hdirectory, if_true] at h
      cases h
    | false =>
      simp only [hdirectory, Bool.false_eq_true, if_false] at h
      obtain ⟨_, between, hmade, hrest⟩ := Machine.run_ok h fun _ _ => nofun
      obtain ⟨haround, hsame⟩ := Machine.makeDirectories_ok hmade
      dsimp only at hrest
      split at hrest
      · exact absurd (congrArg Prod.fst hrest) (start_ne_file {})
      · rename_i hdurable
        split at hrest
        · cases hrest
        · rename_i hplain
          have hcurrent : ∀ name ∈ between.disk.current, Path.IsName name := by
            rw [hsame]
            exact hnames
          obtain ⟨steps, hengine, hjournal, htimeout, hlayout, hfile, hstores, hsettled⟩ :=
            openFile_ok hcurrent hrest
          exact ⟨steps, hfile, hlayout, hsettled ⟨hpath, htimeout, hdurable, Bool.eq_false_iff.mpr hplain,
            hcurrent, haround, hengine, hjournal⟩, hstores⟩

end Database

end ServiceRegistry
