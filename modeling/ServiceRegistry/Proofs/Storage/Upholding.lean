import ServiceRegistry.Proofs.Storage.Kept
import ServiceRegistry.Proofs.Storage.Opening

/-!
# Keeping a database file

Whatever is done on a machine, the file at one place is kept as the library keeps its databases: nothing
but databases with a current sorted view and events come into it.  A place is meant and not a path, for
many paths lead to one place.

* `Machine.Upholds` relates a machine to a later one; the acts on files are parts of it.
* `Disk.tablesAt?` are the tables that opening finds at a place.
* `Database.openAt_upholds`: opening any database, and what it finds.
-/

namespace ServiceRegistry

namespace Disk

/-- If a file lies at a place then its content is one of those that the library keeps. -/
def Keeps (disk : Disk) (place : Place) : Prop :=
  ∀ content, disk.entry? place = some (.file content) → Database.Kept content

/-- The tables at a place: those of the file there, and none yet if nothing is there. -/
def tablesAt? (disk : Disk) (place : Place) : Option Database :=
  match disk.entry? place with
  | none => some {}
  | some .directory => none
  | some (.file content) => Database.ofBytes? content

variable {disk : Disk} {place : Place}

theorem tablesAt?_of_none (h : disk.entry? place = none) : disk.tablesAt? place = some {} := by
  rw [tablesAt?, h]

theorem tablesAt?_of_file {content : ByteArray} (h : disk.entry? place = some (.file content)) :
    disk.tablesAt? place = Database.ofBytes? content := by
  rw [tablesAt?, h]

theorem Stores.tablesAt? {path : String} {db : Database} (h : disk.Stores path place db.toBytes) :
    disk.tablesAt? place = some db :=
  (tablesAt?_of_file h.content).trans (Database.ofBytes?_toBytes db)

/-- Where a file is kept its tables have a current sorted view. -/
theorem Keeps.synced (h : disk.Keeps place) {tables : Database}
    (htables : disk.tablesAt? place = some tables) : tables.Synced := by
  cases hentry : disk.entry? place with
  | none =>
    rw [tablesAt?_of_none hentry] at htables
    obtain rfl := Option.some.inj htables
    exact Database.synced_empty
  | some entry =>
    cases entry with
    | directory =>
      rw [tablesAt?, hentry] at htables
      cases htables
    | file content =>
      rw [tablesAt?_of_file hentry] at htables
      exact (h content hentry).synced htables

end Disk

namespace Machine

variable {place : Place} {machine between after : Machine}

/-- What a later machine owes to an earlier one: the file at a place is kept if it was, paths lead where
they led, and nothing has been said on the standard output. -/
structure Upholds (place : Place) (machine after : Machine) : Prop where
  keeps : machine.disk.Keeps place → after.disk.Keeps place
  leads : ∀ path found, machine.disk.locate path = .ok found → after.disk.locate path = .ok found
  current : after.disk.current = machine.disk.current
  said : after.said = machine.said

namespace Upholds

theorem rfl : Upholds place machine machine := ⟨id, fun _ _ => id, Eq.refl _, Eq.refl _⟩

theorem trans (h : Upholds place machine between) (hlater : Upholds place between after) :
    Upholds place machine after :=
  ⟨fun hkeeps => hlater.keeps (h.keeps hkeeps), fun path found hfound => hlater.leads path found
    (h.leads path found hfound), hlater.current.trans h.current, hlater.said.trans h.said⟩

/-- A file is changed, in a way that keeps it if it is the one at the place. -/
theorem modify {path : String} {change : ByteArray → ByteArray} {disk : Disk}
    (h : machine.disk.modify path change = .ok disk)
    (hchange : machine.disk.locate path = .ok place → ∀ old, Database.Kept old → Database.Kept (change old)) :
    Upholds place machine { machine with disk := disk } := by
  obtain ⟨found, old, hfile, rfl, hentry⟩ := Disk.modify_ok h
  have hlocate := Disk.locate_of_locateFile hfile
  have hfree := Disk.free_of_file_or_none hentry
  refine ⟨fun hkeeps content hcontent => ?_, fun path' found' hfound => Disk.locate_put hfree _ hfound,
    Eq.refl _, Eq.refl _⟩
  by_cases hplace : place = found
  · subst hplace
    rw [Disk.entry?_put_self hfree.ne_nil] at hcontent
    obtain rfl : change old = content := by simpa using hcontent
    apply hchange hlocate
    rcases hentry with hentry | ⟨-, rfl⟩
    · exact hkeeps old hentry
    · exact .empty
  · rw [Disk.entry?_put_of_ne hplace] at hcontent
    exact hkeeps content hcontent

/-- An attempt to change a file, which may fail. -/
theorem changeDisk {path : String} {change : ByteArray → ByteArray}
    (hchange : machine.disk.locate path = .ok place → ∀ old, Database.Kept old → Database.Kept (change old)) :
    Upholds place machine ((Machine.changeDisk (·.modify path change)).run machine).2 := by
  rw [run_changeDisk]
  cases hmodify : machine.disk.modify path change with
  | error failure => exact rfl
  | ok disk => exact modify hmodify hchange

theorem complain (text : String) :
    Ends (host.complain text) machine fun _ after => Upholds place machine after :=
  ⟨id, fun _ _ => id, Eq.refl _, Eq.refl _⟩

end Upholds

/-! ## Directories -/

/-- A later machine has more directories, and is otherwise as the earlier one. -/
structure MakesRoom (machine after : Machine) : Prop where
  entries : ∀ place, after.disk.entry? place = machine.disk.entry? place ∨
    machine.disk.entry? place = none ∧ after.disk.entry? place = some .directory
  leads : ∀ path found, machine.disk.locate path = .ok found → after.disk.locate path = .ok found
  current : after.disk.current = machine.disk.current
  said : after.said = machine.said

namespace MakesRoom

theorem rfl : MakesRoom machine machine := ⟨fun _ => Or.inl (Eq.refl _), fun _ _ => id, Eq.refl _, Eq.refl _⟩

theorem trans (h : MakesRoom machine between) (hlater : MakesRoom between after) :
    MakesRoom machine after := by
  refine ⟨fun place => ?_, fun path found hfound => hlater.leads path found (h.leads path found hfound),
    hlater.current.trans h.current, hlater.said.trans h.said⟩
  rcases hlater.entries place with hsame | ⟨hnone, hdirectory⟩
  · rw [hsame]
    exact h.entries place
  · rcases h.entries place with hsame | ⟨-, hmade⟩
    · exact Or.inr ⟨hsame ▸ hnone, hdirectory⟩
    · rw [hmade] at hnone
      cases hnone

theorem makeDirectory {path : String} {disk : Disk} (h : machine.disk.makeDirectory path = .ok disk) :
    MakesRoom machine { machine with disk := disk } := by
  obtain ⟨found, -, hmade⟩ := bind_eq_ok.mp h
  split at hmade
  · cases hmade
  · rename_i hnone
    obtain rfl := Except.ok.inj hmade
    have hfree : machine.disk.Free found := by simp [Disk.Free, hnone]
    refine ⟨fun place => ?_, fun _ _ hfound => Disk.locate_put hfree _ hfound, Eq.refl _, Eq.refl _⟩
    by_cases hplace : place = found
    · subst hplace
      exact Or.inr ⟨hnone, Disk.entry?_put_self hfree.ne_nil⟩
    · exact Or.inl (Disk.entry?_put_of_ne hplace)

theorem makeDirectoryOr {path : String} {retry : StateM Machine (Except FileFailure Unit)}
    (hretry : ∀ machine, MakesRoom machine (retry.run machine).2) :
    MakesRoom machine ((host.makeDirectoryOr path retry).run machine).2 := by
  simp only [Host.makeDirectoryOr, run_bind, run_makeDirectory]
  cases hmade : machine.disk.makeDirectory path with
  | ok disk => exact makeDirectory hmade
  | error failure =>
    cases failure with
    | noEntry => exact hretry machine
    | _ => exact rfl

theorem makeDirectories (absolute : Bool) (steps : List String) (machine : Machine) :
    MakesRoom machine ((host.makeDirectories absolute steps).run machine).2 := by
  induction steps generalizing machine with
  | nil => exact rfl
  | cons step around ih =>
    refine makeDirectoryOr fun machine => ?_
    have haround := ih machine
    simp only [run_bind]
    generalize (host.makeDirectories absolute around).run machine = made at haround ⊢
    obtain ⟨result, between⟩ := made
    cases result with
    | error failure => exact haround
    | ok value => exact haround.trans (makeDirectoryOr fun _ => rfl)

theorem upholds (h : MakesRoom machine after) : Upholds place machine after := by
  refine ⟨fun hkeeps content hcontent => ?_, h.leads, h.current, h.said⟩
  rcases h.entries place with hsame | ⟨-, hdirectory⟩
  · exact hkeeps content (hsame ▸ hcontent)
  · rw [hdirectory] at hcontent
    cases hcontent

/-- The tables at a place were there before. -/
theorem tablesAt? (h : MakesRoom machine after) {tables : Database}
    (htables : after.disk.tablesAt? place = some tables) : machine.disk.tablesAt? place = some tables := by
  rcases h.entries place with hsame | ⟨-, hdirectory⟩
  · rwa [Disk.tablesAt?, hsame] at htables
  · rw [Disk.tablesAt?, hdirectory] at htables
    cases htables

end MakesRoom

end Machine

/-! ## Opening databases -/

namespace Database

open Machine (Ends Upholds MakesRoom)

variable {place : Place} {machine after : Machine} {settings : DatabaseSettings}

/-- Nothing is asked of the value of what has failed. -/
theorem forall_ok_of_error {ε α : Type} {fault : ε} {P : α → Prop} :
    ∀ value, (Except.error fault : Except ε α) = .ok value → P value := by
  intro value h
  cases h

theorem run_readFile_made {file : String} (hread : machine.disk.read file = .error .noEntry) :
    (readFile Machine.host file).run machine =
      match (Machine.host.write file .empty).run machine with
      | (.ok (), between) => (.ok {}, between)
      | (.error failure, between) => (.error (engineFault failure.message), between) := by
  simp only [readFile, Machine.run_bind, Machine.run_read, hread]
  cases (Machine.host.write file .empty).run machine with
  | mk result between => cases result <;> rfl

/-- Reading a file, or making it, finds the tables at the place to which its path leads. -/
theorem readFile_upholds (place : Place) (file : String) (machine : Machine) :
    Ends (readFile Machine.host file) machine fun result after => Upholds place machine after ∧
      ∀ tables, result = .ok tables → ∃ found, after.disk.locate file = .ok found ∧
        machine.disk.tablesAt? found = some tables := by
  unfold Ends
  cases hread : machine.disk.read file with
  | ok content =>
    obtain ⟨found, hlocate, hentry⟩ := Disk.read_eq_ok hread
    rw [run_readFile hread]
    refine ⟨.rfl, fun tables htables => ⟨found, hlocate, ?_⟩⟩
    rw [Disk.tablesAt?_of_file hentry]
    cases hcontent : ofBytes? content with
    | none =>
      rw [hcontent] at htables
      cases htables
    | some found =>
      rw [hcontent] at htables
      exact congrArg some (Except.ok.inj htables)
  | error failure =>
    by_cases hnone : failure = .noEntry
    · subst hnone
      rw [run_readFile_made hread, Machine.run_write]
      cases hwrite : machine.disk.write file .empty with
      | error failure => exact ⟨.rfl, forall_ok_of_error⟩
      | ok disk =>
        have hupholds : Upholds place machine { machine with disk := disk } :=
          .modify hwrite fun _ _ _ => .empty
        obtain ⟨found, old, hfile, -, hentry⟩ := Disk.modify_ok hwrite
        have hlocate := Disk.locate_of_locateFile hfile
        refine ⟨hupholds, fun tables htables => ⟨found, hupholds.leads file found hlocate, ?_⟩⟩
        obtain rfl := Except.ok.inj htables
        rcases hentry with hentry | ⟨hentry, -⟩
        · rw [Disk.read, Disk.find_eq hlocate, hentry] at hread
          cases hread
        · exact Disk.tablesAt?_of_none hentry
    · have hrun : (readFile Machine.host file).run machine = (.error (engineFault failure.message), machine) := by
        simp only [readFile, Machine.run_bind, Machine.run_read, hread]
        cases failure with
        | noEntry => exact absurd rfl hnone
        | _ => rfl
      rw [hrun]
      exact ⟨.rfl, forall_ok_of_error⟩

/-- Saving a database in the file at the place asks that its sorted view is current. -/
theorem save_upholds {file : String} {tables : Database}
    (h : machine.disk.locate file = .ok place → tables.Synced) :
    Ends (save Machine.host ⟨some file, tables⟩) machine fun _ after => Upholds place machine after := by
  unfold Ends
  rw [save, Machine.run_write]
  cases hwrite : machine.disk.write file tables.toBytes with
  | error failure => exact .rfl
  | ok disk => exact .modify hwrite fun hlocate _ _ => .written (h hlocate)

/-- A database as opening leaves it: its tables are those that were at its place, made ready for use. -/
structure Opened (settings : DatabaseSettings) (machine after : Machine) (db : OpenDatabase) : Prop where
  file : settings.path ≠ transientPath →
    db.file = (engineSteps? machine.disk.current.path settings.path).map fileAt
  found : ∀ file, db.file = some file → ∃ found tables, after.disk.locate file = .ok found ∧
    machine.disk.tablesAt? found = some tables ∧ db.tables = { tables with layout := some currentLayout }

theorem openFile_upholds (hkeeps : machine.disk.Keeps place) :
    Ends (openFile Machine.host settings) machine fun result after =>
      Upholds place machine after ∧ ∀ db, result = .ok db → Opened settings machine after db := by
  refine Machine.ends_bind_of_run (Machine.run_workingDirectory machine) ?_
  cases hengine : engineSteps? machine.disk.current.path settings.path with
  | none => exact ⟨.rfl, forall_ok_of_error⟩
  | some steps =>
    refine (readFile_upholds place (fileAt steps) machine).bind ?_
    rintro result between ⟨hread, htables⟩
    cases result with
    | error fault => exact ⟨hread, forall_ok_of_error⟩
    | ok tables =>
      obtain ⟨found, hfound, htables⟩ := htables tables rfl
      dsimp only
      split
      · exact ⟨hread, forall_ok_of_error⟩
      · cases hstart : start settings tables with
        | error fault => exact ⟨hread, forall_ok_of_error⟩
        | ok ready =>
          obtain ⟨-, hready⟩ := start_ok hstart
          have hsynced : between.disk.locate (fileAt steps) = .ok place → ready.Synced := by
            intro hplace
            obtain rfl : found = place := Except.ok.inj (hfound.symm.trans hplace)
            rw [hready]
            exact (hkeeps.synced htables).withLayout _
          refine (save_upholds hsynced).bind ?_
          rintro saved after hsave
          have hupholds := hread.trans hsave
          cases saved with
          | error failure => exact ⟨hupholds, forall_ok_of_error⟩
          | ok value =>
            refine ⟨hupholds, fun db hdb => ?_⟩
            obtain rfl := Except.ok.inj hdb
            refine ⟨fun _ => by rw [hengine]; rfl, fun file hfile => ⟨found, tables, ?_, htables, hready⟩⟩
            obtain rfl := Option.some.inj hfile
            exact hsave.leads _ _ hfound

theorem openAt_upholds (hkeeps : machine.disk.Keeps place) :
    Ends (openAt Machine.host settings) machine fun result after =>
      Upholds place machine after ∧ ∀ db, result = .ok db → Opened settings machine after db := by
  simp only [openAt]
  cases hpath : DatabaseSettings.pathFault? settings.path with
  | some fault => exact ⟨.rfl, forall_ok_of_error⟩
  | none =>
    refine Machine.ends_bind_of_run (Machine.run_isDirectory settings.path machine) ?_
    split
    · exact ⟨.rfl, forall_ok_of_error⟩
    · have hroom : Ends (Machine.host.makeDirectories (Path.isAbsolute settings.path)
          (Path.steps settings.path).reverse.tail) machine fun _ between => MakesRoom machine between :=
        MakesRoom.makeDirectories _ _ machine
      refine hroom.bind ?_
      rintro result between hroom
      cases result with
      | error failure => exact ⟨hroom.upholds, forall_ok_of_error⟩
      | ok value =>
        dsimp only
        split
        · rename_i htransient
          refine ⟨hroom.upholds, fun db hdb => ⟨fun hdurable => absurd htransient hdurable, fun file hfile => ?_⟩⟩
          obtain ⟨_, tables⟩ := db
          obtain rfl : _ = some file := hfile
          exact absurd hdb (start_ne_file {})
        · split
          · exact ⟨hroom.upholds, forall_ok_of_error⟩
          · refine (openFile_upholds (hroom.upholds.keeps hkeeps)).mono ?_
            rintro result after ⟨hupholds, hopened⟩
            refine ⟨hroom.upholds.trans hupholds, fun db hdb => ?_⟩
            obtain ⟨hfile, hfound⟩ := hopened db hdb
            refine ⟨fun hdurable => hroom.current ▸ hfile hdurable, fun file hfile => ?_⟩
            obtain ⟨found, tables, hlocate, htables, hready⟩ := hfound file hfile
            exact ⟨found, tables, hlocate, hroom.tablesAt? htables, hready⟩

end Database

end ServiceRegistry
