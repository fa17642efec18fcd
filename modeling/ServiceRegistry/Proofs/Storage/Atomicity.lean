import ServiceRegistry.Proofs.Storage.Landing

/-!
# What a failed call leaves behind

A call on a database that fails leaves all its tables as they were, whatever numbers the rows hold,
but for two calls that write a row first and look at it afterwards, outside of any transaction:

* a change of a service reads the row back, and a row whose count is damaged can be written but not
  read (`Database.ChangesDamaged`);
* an insertion takes the new row's id for that of the service, and where all row ids so far have been
  moved far enough below zero the new one is negative too (`Database.AddsDamaged`).

`Database.failed_call_changes_nothing` is what holds of every call on every database, these two
included.  `Database.failed_change_is_kept` is a change that is answered with a fault and stays in the
table.
-/

namespace ServiceRegistry

/-- A row is found by an id that is not negative, so only its count can be damaged. -/
theorem ServiceRow.intact_iff {row : ServiceRow} (hid : 0 ≤ row.id) :
    row.Intact ↔ 0 ≤ row.versionCount ∧ row.versionCount ≤ maxSigned :=
  ⟨fun h => ⟨h.count, h.readable⟩, fun h => ⟨hid, h.1, h.2⟩⟩

namespace Database

variable {db : Database} {id : Nat}

/-! ## Reading back -/

theorem id_of_serviceRow? {row : ServiceRow} (h : db.serviceRow? id = some row) :
    row.id = toSigned id := by
  simpa using List.find?_some h

theorem owner_of_versionRow? {tag : String} {row : VersionRow}
    (h : db.versionRow? id tag = some row) : row.serviceId = toSigned id := by
  have hkey := List.find?_some h
  simp only [isVersion, Bool.and_eq_true, beq_iff_eq] at hkey
  exact hkey.1

/-- A row with a damaged count is not read. -/
theorem loadService_of_damaged {row : ServiceRow} (h : db.serviceRow? id = some row)
    (hdamaged : ¬ row.Intact) : ∃ fault, db.loadService id = .error fault := by
  have hid : 0 ≤ row.id := id_of_serviceRow? h ▸ toSigned_nonneg id
  rw [ServiceRow.intact_iff hid] at hdamaged
  rw [loadService, h]
  dsimp only [readServices]
  by_cases hreadable : row.versionCount ≤ maxSigned
  · have hnegative : row.versionCount < 0 := by omega
    have hnot : ¬ row.id < 0 := by omega
    simp [ServiceRow.readable, hreadable, ServiceRow.toService, readNatural, hnot, hnegative, bind,
      Except.bind, Except.map, List.mapM_cons]
  · simp [ServiceRow.readable, hreadable, Except.map]

theorem loadService_of_intact {row : ServiceRow} (h : db.serviceRow? id = some row)
    (hintact : row.Intact) : db.loadService id = .ok (some row.service) := by
  have hread : readServices [row] = .ok [row.service] :=
    readServices_of_intact fun r hr => List.mem_singleton.mp hr ▸ hintact
  rw [loadService, h]
  dsimp only
  rw [hread]
  rfl

/-- A version is looked up by an owner that is not negative, so it is always read. -/
theorem loadVersion_ne_error (db : Database) (id : Nat) (tag : String) (fault : DatabaseFault) :
    db.loadVersion id tag ≠ .error fault := by
  rw [loadVersion]
  cases hrow : db.versionRow? id tag with
  | none => simp
  | some row =>
    have howner : 0 ≤ row.serviceId := owner_of_versionRow? hrow ▸ toSigned_nonneg id
    simp [VersionRow.toVersion_of_nonneg howner, Except.map]

/-! ## Failed writes -/

/-- If it fails, the outcome has left the database as it was. -/
def Spares {α : Type} (db : Database) (outcome : Except DatabaseFault α × Database) : Prop :=
  ∀ fault, outcome.1 = .error fault → outcome.2 = db

theorem spares_unchanged {α : Type} (reply : Except DatabaseFault α) : db.Spares (reply, db) :=
  fun _ _ => rfl

theorem spares_ok {α : Type} (value : α) (after : Database) : db.Spares (.ok value, after) := by
  intro fault h
  cases h

theorem spares_deleteService (db : Database) (id : Nat) : db.Spares (db.deleteService id) := by
  unfold deleteService
  split
  · exact spares_unchanged _
  · exact spares_ok _ _

theorem spares_insertVersion (db : Database) (now : Int) (id : Nat) (tag info : String) :
    db.Spares (db.insertVersion now id tag info) := by
  obtain ⟨fault, hrefused⟩ | ⟨row, given, -, -, -, hadded⟩ :=
    db.insertVersion_cases now id tag info
  · rw [hrefused]
    exact spares_unchanged _
  · rw [hadded]
    exact spares_ok _ _

theorem spares_updateVersion (db : Database) (now : Int) (id : Nat) (tag info : String) :
    db.Spares (db.updateVersion now id tag info) := by
  intro fault h
  exact absurd h (loadVersion_ne_error _ id tag fault)

theorem spares_deleteVersion (db : Database) (now : Int) (id : Nat) (tag : String) :
    db.Spares (db.deleteVersion now id tag) := by
  unfold deleteVersion
  split
  · exact spares_unchanged _
  · exact spares_ok _ _

/-! ## The change that is written and not read back -/

/-- The database with the change of a service written. -/
def changed (db : Database) (now : Int) (id : Nat) (name description : String) : Database :=
  db.changeService id fun row =>
    { row with name := name, description := description, updatedAt := now }

/-- The call changes a service whose count is damaged to a name that no other service has. -/
def ChangesDamaged (db : Database) : Call → Prop
  | .updateService id name _ =>
    ∃ row, db.serviceRow? id = some row ∧ ¬ row.Intact ∧
      ∀ other ∈ db.services, other.name = name → other.id = row.id
  | _ => False

theorem name_free_iff {name : String} {row : ServiceRow} (h : db.serviceRow? id = some row) :
    ¬ (db.services.any fun other => other.name == name && other.id != toSigned id) = true ↔
      ∀ other ∈ db.services, other.name = name → other.id = row.id := by
  simp [id_of_serviceRow? h]

theorem serviceRow?_changed (now : Int) {row : ServiceRow} (h : db.serviceRow? id = some row)
    (name description : String) :
    (db.changed now id name description).serviceRow? id =
      some { row with name := name, description := description, updatedAt := now } := by
  have hid : ∀ row : ServiceRow, ServiceRow.id
      { row with name := name, description := description, updatedAt := now } = row.id :=
    fun _ => rfl
  rw [changed, changeService_serviceRow? db id hid, h]
  rfl

theorem spares_updateService (now : Int) (name description : String)
    (h : ¬ db.ChangesDamaged (.updateService id name description)) :
    db.Spares (db.updateService now id name description) := by
  rw [updateService]
  split
  · exact spares_unchanged _
  · rename_i row hrow
    split
    · exact spares_unchanged _
    · rename_i hfree
      have hintact : row.Intact := by
        by_contra hdamaged
        exact h ⟨row, hrow, hdamaged, (name_free_iff hrow).mp hfree⟩
      have hread := loadService_of_intact (serviceRow?_changed now hrow name description)
        ⟨hintact.id, hintact.count, hintact.readable⟩
      intro fault hfault
      cases hread.symm.trans hfault

theorem updateService_of_damaged (now : Int) {name : String} (description : String)
    (h : db.ChangesDamaged (.updateService id name description)) :
    (∃ fault, (db.updateService now id name description).1 = .error fault) ∧
      (db.updateService now id name description).2 = db.changed now id name description := by
  obtain ⟨row, hrow, hdamaged, hfree⟩ := h
  have hchanged : ¬ ServiceRow.Intact
      { row with name := name, description := description, updatedAt := now } :=
    fun hintact => hdamaged ⟨hintact.id, hintact.count, hintact.readable⟩
  rw [updateService, hrow]
  dsimp only
  rw [if_neg ((name_free_iff hrow).mpr hfree)]
  exact ⟨loadService_of_damaged (serviceRow?_changed now hrow name description) hchanged, rfl⟩

/-! ## The row that is added with a damaged id -/

/-- The database with a service added in the row after the last one. -/
def added (db : Database) (now : Int) (name description : String) : Database :=
  let rowId := greatestRowId (db.services.map (·.id)) db.lastServiceId + 1
  { db with
    services := db.services ++ [⟨rowId, name, description, 0, now, now⟩]
    lastServiceId := rowId }

/-- The call adds a service, of a name that no other has, to a table with rows of which all ids, and
the last one given, are below -1. -/
def AddsDamaged (db : Database) : Call → Prop
  | .insertService name _ =>
    db.services ≠ [] ∧ db.lastServiceId < -1 ∧ ∀ row ∈ db.services, row.id < -1 ∧ row.name ≠ name
  | _ => False

theorem addsDamaged_iff {name description : String} :
    db.AddsDamaged (.insertService name description) ↔
      greatestRowId (db.services.map (·.id)) db.lastServiceId < -1 ∧
        ¬ (db.services.any fun row => row.name == name) = true := by
  rw [greatestRowId_lt_iff (by decide)]
  simp only [AddsDamaged, ne_eq, List.map_eq_nil_iff, List.forall_mem_map, List.any_eq_true,
    beq_iff_eq, not_exists, not_and, forall_and, and_assoc]

theorem spares_insertService (now : Int) (name description : String)
    (h : ¬ db.AddsDamaged (.insertService name description)) :
    db.Spares (db.insertService now name description) := by
  obtain ⟨fault, hrefused⟩ | ⟨given, hnext, hfree, hadded⟩ :=
    db.insertService_cases now name description
  · rw [hrefused]
    exact spares_unchanged _
  · have hgiven : 0 ≤ given := by
      by_contra hnegative
      obtain ⟨-, rfl⟩ := nextRowId_eq_ok_iff.mp hnext
      exact h (addsDamaged_iff.mpr ⟨by omega, hfree⟩)
    rw [hadded, readNatural_of_nonneg hgiven]
    exact spares_ok _ _

theorem insertService_of_damaged (now : Int) {name description : String}
    (h : db.AddsDamaged (.insertService name description)) :
    (∃ fault, (db.insertService now name description).1 = .error fault) ∧
      (db.insertService now name description).2 = db.added now name description := by
  obtain ⟨hlow, hfree⟩ := addsDamaged_iff.mp h
  have hroom : greatestRowId (db.services.map (·.id)) db.lastServiceId < maxSigned :=
    hlow.trans (by decide)
  have hnegative : greatestRowId (db.services.map (·.id)) db.lastServiceId + 1 < 0 := by omega
  rw [insertService_added (nextRowId_eq_ok_iff.mpr ⟨hroom, rfl⟩) hfree, readNatural, if_pos hnegative]
  exact ⟨⟨_, rfl⟩, rfl⟩

/-! ## Every call -/

theorem spares_respond (now : Int) {call : Call} (hchange : ¬ db.ChangesDamaged call)
    (hadd : ¬ db.AddsDamaged call) : db.Spares (db.respond now call) := by
  cases call with
  | refreshView => exact spares_ok _ _
  | insertService name description => exact spares_insertService now name description hadd
  | updateService id name description => exact spares_updateService now name description hchange
  | deleteService id => exact spares_deleteService db id
  | insertVersion id tag info => exact spares_insertVersion db now id tag info
  | updateVersion id tag info => exact spares_updateVersion db now id tag info
  | deleteVersion id tag => exact spares_deleteVersion db now id tag
  | _ => exact spares_unchanged _

theorem answer_eq_error_iff {now : Int} {call : Call} :
    (∃ fault, (answer now call db).1 = .error fault) ↔
      ∃ fault, (db.respond now call).1 = .error fault := by
  change (∃ fault, (db.respond now call).1.mapError DatabaseFault.reported = .error fault) ↔ _
  cases hreply : (db.respond now call).1 with
  | error fault => simp [Except.mapError]
  | ok value => simp [Except.mapError]

/-- Whatever the rows hold: a call that fails leaves the database as it was, unless it changes a
damaged service or adds one whose row id is damage.  Such a call is answered with a fault, and what it
writes stays. -/
theorem failed_call_changes_nothing (db : Database) (now : Int) (call : Call) :
    (¬ db.ChangesDamaged call → ¬ db.AddsDamaged call →
      (∃ fault, (answer now call db).1 = .error fault) → (answer now call db).2 = db) ∧
    (∀ id name description, call = .updateService id name description → db.ChangesDamaged call →
      (∃ fault, (answer now call db).1 = .error fault) ∧
        (answer now call db).2 = db.changed now id name description) ∧
    ∀ name description, call = .insertService name description → db.AddsDamaged call →
      (∃ fault, (answer now call db).1 = .error fault) ∧
        (answer now call db).2 = db.added now name description := by
  refine ⟨?_, ?_, ?_⟩
  · intro hchange hadd hfails
    obtain ⟨fault, hfault⟩ := answer_eq_error_iff.mp hfails
    exact spares_respond now hchange hadd fault hfault
  · intro id name description heq hdamaged
    subst heq
    rw [answer_eq_error_iff]
    exact updateService_of_damaged now description hdamaged
  · intro name description heq hdamaged
    subst heq
    rw [answer_eq_error_iff]
    exact insertService_of_damaged now hdamaged

/-- A service with a count below zero is renamed by a call that fails. -/
theorem failed_change_is_kept :
    let db : Database :=
      { layout := some 1, services := [⟨1, "a", "", -1, 5, 5⟩], lastServiceId := 1 }
    let after := answer 6 (.updateService 1 "b" "") db
    after.1 = .error ⟨.corrupt, "negative version count: -1"⟩ ∧
      after.2.services = [⟨1, "b", "", -1, 5, 6⟩] ∧ after.2.services ≠ db.services := by
  decide

/-- One database, whose owner of a version is damaged: a tag that is taken is refused with no trace of
the count that was raised for it, and a new name of the owner stays.  In another, of which all ids are
far below zero, a row stays that has been added with no service to tell of. -/
theorem failed_call_changes_nothing_but_names :
    let db : Database :=
      { layout := some 1, services := [⟨1, "a", "", -1, 5, 5⟩], lastServiceId := 1
        versions := [⟨1, 1, "v1", "", 5, 5⟩], lastVersionRow := 1 }
    let low : Database :=
      { layout := some 1, services := [⟨-7, "a", "", 0, 5, 5⟩], lastServiceId := -7 }
    (answer 6 (.insertVersion 1 "v1" "again") db).2 = db ∧
      (answer 6 (.updateService 1 "b" "") db).2 = db.changed 6 1 "b" "" ∧
      (answer 6 (.insertService "b" "") low).2 = low.added 6 "b" "" := by
  intro db low
  have hchange : ¬ db.ChangesDamaged (.insertVersion 1 "v1" "again") := nofun
  have hadd : ¬ db.AddsDamaged (.insertVersion 1 "v1" "again") := nofun
  have hchanges : db.ChangesDamaged (.updateService 1 "b" "") := by
    refine ⟨⟨1, "a", "", -1, 5, 5⟩, rfl, fun h => ?_, ?_⟩
    · exact absurd h.count (by decide)
    · decide
  have hadds : low.AddsDamaged (.insertService "b" "") := by
    refine ⟨List.cons_ne_nil _ _, ?_, ?_⟩
    · decide
    · decide
  refine ⟨(failed_call_changes_nothing db 6 (.insertVersion 1 "v1" "again")).1 hchange hadd ?_, ?_, ?_⟩
  · exact ⟨⟨.conflict, "version v1 already exists for service 1"⟩, by decide⟩
  · exact ((failed_call_changes_nothing db 6 (.updateService 1 "b" "")).2.1 1 "b" "" rfl hchanges).2
  · exact ((failed_call_changes_nothing low 6 (.insertService "b" "")).2.2 "b" "" rfl hadds).2

end Database

end ServiceRegistry
