import ServiceRegistry.Host.Machine
import ServiceRegistry.Proofs.Files.Disk

/-!
# Acts on a machine in memory

What each act on the machine answers and leaves behind, so that whatever the library does on a host
can be followed act by act.

* `Machine.run_bind` and `Machine.run_read` and the like: one equation for each act.
* `Machine.run_ok` takes apart an act that has ended well.
* `Machine.Ends` says how an act ends in any case, and `Machine.Ends.bind` follows one act after another.
* `Machine.makeDirectories_ok` and `Machine.makeDirectories_again`: directories that have been made
  are there, and making them again changes nothing.
-/

namespace ServiceRegistry.Machine

variable {α β : Type} {machine after : Machine} {path : String}

@[simp] theorem run_pure (value : α) (machine : Machine) :
    (pure value : StateM Machine α).run machine = (value, machine) := rfl

@[simp] theorem run_bind (act : StateM Machine α) (next : α → StateM Machine β) (machine : Machine) :
    (act >>= next).run machine = (next (act.run machine).1).run (act.run machine).2 := rfl

@[simp] theorem run_now (machine : Machine) : host.now.run machine = (machine.clock.millis, machine) := rfl

@[simp] theorem run_workingDirectory (machine : Machine) :
    host.workingDirectory.run machine = (machine.disk.current.path, machine) := rfl

@[simp] theorem run_isDirectory (path : String) (machine : Machine) :
    (host.isDirectory path).run machine = (machine.disk.isDirectory path, machine) := rfl

@[simp] theorem run_read (path : String) (machine : Machine) :
    (host.read path).run machine = (machine.disk.read path, machine) := rfl

theorem run_changeDisk (change : Disk → Except FileFailure Disk) (machine : Machine) :
    (changeDisk change).run machine = match change machine.disk with
      | .ok disk => (.ok (), { machine with disk := disk })
      | .error failure => (.error failure, machine) := rfl

theorem run_makeDirectory (path : String) (machine : Machine) :
    (host.makeDirectory path).run machine = match machine.disk.makeDirectory path with
      | .ok disk => (.ok (), { machine with disk := disk })
      | .error failure => (.error failure, machine) := rfl

theorem run_write (path : String) (content : ByteArray) (machine : Machine) :
    (host.write path content).run machine = match machine.disk.write path content with
      | .ok disk => (.ok (), { machine with disk := disk })
      | .error failure => (.error failure, machine) := rfl

theorem run_append (path : String) (content : ByteArray) (machine : Machine) :
    (host.append path content).run machine = match machine.disk.append path content with
      | .ok disk => (.ok (), { machine with disk := disk })
      | .error failure => (.error failure, machine) := rfl

/-- An act that ends well where each failure of its first part is final. -/
theorem run_ok {ε δ : Type} {act : StateM Machine (Except ε α)}
    {next : Except ε α → StateM Machine (Except δ β)} {value : β}
    (h : (act >>= next).run machine = (.ok value, after))
    (hfails : ∀ failure between, ((next (.error failure)).run between).1 ≠ .ok value) :
    ∃ result between, act.run machine = (.ok result, between) ∧
      (next (.ok result)).run between = (.ok value, after) := by
  rw [run_bind] at h
  cases hact : act.run machine with
  | mk result between =>
    rw [hact] at h
    cases result with
    | error failure => exact absurd (congrArg Prod.fst h) (hfails failure between)
    | ok result => exact ⟨result, between, rfl, h⟩

/-! ## How acts end -/

/-- The act on a machine ends with a value and a machine in this relation. -/
def Ends (act : StateM Machine α) (machine : Machine) (post : α → Machine → Prop) : Prop :=
  post (act.run machine).1 (act.run machine).2

theorem Ends.mono {act : StateM Machine α} {post later : α → Machine → Prop} (h : Ends act machine post)
    (hpost : ∀ value machine, post value machine → later value machine) : Ends act machine later :=
  hpost _ _ h

theorem Ends.bind {act : StateM Machine α} {next : α → StateM Machine β} {between : α → Machine → Prop}
    {post : β → Machine → Prop} (h : Ends act machine between)
    (hnext : ∀ value machine, between value machine → Ends (next value) machine post) :
    Ends (act >>= next) machine post := hnext _ _ h

/-- An act is followed by another from the value and the machine with which it has ended. -/
theorem ends_bind_of_run {act : StateM Machine α} {next : α → StateM Machine β}
    {post : β → Machine → Prop} {value : α} (hrun : act.run machine = (value, after))
    (h : Ends (next value) after post) : Ends (act >>= next) machine post := by
  rw [Ends, run_bind, hrun]
  exact h

/-! ## Directories -/

/-- The machine has gone on in the same working directory. -/
def SamePlace (machine after : Machine) : Prop := after.disk.current = machine.disk.current

/-- A directory that has been made was made now, or after those around it, or was there before. -/
theorem makeDirectoryOr_ok {retry : StateM Machine (Except FileFailure Unit)}
    (h : (host.makeDirectoryOr path retry).run machine = (.ok (), after)) :
    (after.disk.isDirectory path = true ∧ SamePlace machine after) ∨
      retry.run machine = (.ok (), after) := by
  simp only [Host.makeDirectoryOr, run_bind, run_makeDirectory] at h
  cases hmade : machine.disk.makeDirectory path with
  | ok disk =>
    rw [hmade] at h
    cases h
    exact Or.inl (Disk.makeDirectory_eq_ok hmade)
  | error failure =>
    rw [hmade] at h
    cases failure with
    | noEntry => exact Or.inr h
    | _ =>
      by_cases hthere : machine.disk.isDirectory path = true
      · simp only [run_bind, run_isDirectory, hthere, if_true, run_pure] at h
        cases h
        exact Or.inl ⟨hthere, rfl⟩
      · simp only [run_bind, run_isDirectory, hthere, run_pure] at h
        cases h

/-- Directories that have been made are there. -/
theorem makeDirectories_ok {absolute : Bool} {steps : List String}
    (h : (host.makeDirectories absolute steps).run machine = (.ok (), after)) :
    (steps = [] ∨ after.disk.isDirectory (Path.ofSteps absolute steps.reverse) = true) ∧
      SamePlace machine after := by
  induction steps generalizing machine after with
  | nil =>
    cases h
    exact ⟨Or.inl rfl, rfl⟩
  | cons step around ih =>
    rcases makeDirectoryOr_ok h with ⟨hthere, hsame⟩ | hretry
    · exact ⟨Or.inr hthere, hsame⟩
    · obtain ⟨_, between, haround, hmade⟩ := run_ok hretry fun _ _ => nofun
      rcases makeDirectoryOr_ok hmade with ⟨hthere, hsame⟩ | hagain
      · exact ⟨Or.inr hthere, hsame.trans (ih haround).2⟩
      · cases hagain

/-- Directories that are there are left as they are. -/
theorem makeDirectories_again {absolute : Bool} {steps : List String}
    (h : steps = [] ∨ machine.disk.isDirectory (Path.ofSteps absolute steps.reverse) = true) :
    (host.makeDirectories absolute steps).run machine = (.ok (), machine) := by
  cases steps with
  | nil => rfl
  | cons step around =>
    have hthere := h.resolve_left (List.cons_ne_nil _ _)
    simp only [Host.makeDirectories, Host.makeDirectoryOr, run_bind, run_makeDirectory,
      Disk.makeDirectory_of_isDirectory hthere, run_isDirectory, hthere, if_true, run_pure]

end ServiceRegistry.Machine
