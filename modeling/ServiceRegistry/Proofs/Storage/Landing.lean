import ServiceRegistry.Proofs.Storage.Reading

/-!
# What a write finds

A write lands or it does not.  If it lands it has found the store as the checks before it want it, so
they would pass at its instant.  If it does not, it leaves the store as it is, and says why: a name or
a tag is taken, an owner or a row is gone, or a database has no row id left to give.

* `RecordStore.Roomy` says that there are row ids left.
* `RecordStore.Consistent.insertService_lands` and the like: the two outcomes of each write.
-/

namespace ServiceRegistry

namespace Memory

variable {m : Memory} {name : String}

theorem countServicesNamed_of_free
    (h : ¬ (m.services.any fun s => s.name == name) = true) : m.countServicesNamed name none = 0 := by
  refine List.length_eq_zero_iff.mpr (List.filter_eq_nil_iff.mpr fun s hs hnamed => h ?_)
  exact List.any_eq_true.mpr ⟨s, hs, (Bool.and_eq_true_iff.mp hnamed).1⟩

theorem countServicesNamed_of_othersFree {id : Nat}
    (h : ¬ (m.services.any fun s => s.name == name && s.id != id) = true) :
    m.countServicesNamed name (some id) = 0 := by
  refine List.length_eq_zero_iff.mpr (List.filter_eq_nil_iff.mpr fun s hs hnamed => h ?_)
  obtain ⟨hname, hid⟩ := Bool.and_eq_true_iff.mp hnamed
  refine List.any_eq_true.mpr ⟨s, hs, Bool.and_eq_true_iff.mpr ⟨hname, ?_⟩⟩
  exact bne_iff_ne.mpr fun heq => bne_iff_ne.mp hid (congrArg some heq)

variable {id : Nat} {tag : String}

theorem deleteService_none (h : m.service? id = none) : m.deleteService id = (.ok false, m) := by
  rw [deleteService, h]

theorem insertVersion_none (h : m.service? id = none) (now : Int) (info : String) :
    m.insertVersion now id tag info =
      (.error ⟨.invalid, "service " ++ toString id ++ " does not exist"⟩, m) := by
  rw [insertVersion, h]

theorem insertVersion_taken {s : Service} {v : Version} (h : m.service? id = some s)
    (htaken : m.version? id tag = some v) (now : Int) (info : String) :
    m.insertVersion now id tag info =
      (.error ⟨.conflict,
        "version " ++ tag ++ " already exists for service " ++ toString id⟩, m) := by
  rw [insertVersion, h, htaken]

theorem updateVersion_none (h : m.version? id tag = none) (now : Int) (info : String) :
    m.updateVersion now id tag info = (.ok none, m) := by
  have hsame : (m.versions.map fun v =>
      if isVersion id tag v then { v with info := info, updatedAt := now } else v) = m.versions := by
    refine (List.map_congr_left fun v hv => if_neg ?_).trans (List.map_id _)
    exact List.find?_eq_none.mp h v hv
  simp only [Memory.updateVersion, h, hsame, Option.map_none]

theorem updateVersion_some {v : Version} (h : m.version? id tag = some v) (now : Int)
    (info : String) :
    m.updateVersion now id tag info =
      (.ok (some { v with info := info, updatedAt := now }),
        { m with
          versions := m.versions.map fun v =>
            if isVersion id tag v then { v with info := info, updatedAt := now } else v }) := by
  rw [updateVersion, h]
  rfl

theorem deleteVersion_none (h : m.version? id tag = none) (now : Int) :
    m.deleteVersion now id tag = (.ok false, m) := by
  rw [deleteVersion, h]

end Memory

namespace Database

variable {db : Database} {id : Nat} {tag : String}

/-! ## What the writes do -/

theorem updateService_none (h : db.serviceRow? id = none) (now : Int) (name description : String) :
    db.updateService now id name description = (.ok none, db) := by
  rw [updateService, h]

theorem updateService_taken {row : ServiceRow} {name : String} (h : db.serviceRow? id = some row)
    (htaken : (db.services.any fun row => row.name == name && row.id != toSigned id) = true)
    (now : Int) (description : String) :
    db.updateService now id name description = (.error (nameTaken name), db) := by
  rw [updateService, h]
  exact if_pos htaken

theorem updateService_free (hdb : db.Undamaged) {row : ServiceRow} {name : String}
    (h : db.serviceRow? id = some row)
    (hfree : ¬ (db.services.any fun row => row.name == name && row.id != toSigned id) = true)
    (now : Int) (description : String) :
    db.updateService now id name description =
      (.ok (some { row.service with name := name, description := description, updatedAt := now }),
        db.changeService id fun row =>
          { row with name := name, description := description, updatedAt := now }) := by
  have hread := hdb.loadService_changed h
    (fun row => { row with name := name, description := description, updatedAt := now })
    (fun _ => rfl) (fun _ => rfl)
  rw [updateService, h]
  exact (if_neg hfree).trans (Prod.ext hread rfl)

theorem deleteService_none (h : db.serviceRow? id = none) : db.deleteService id = (.ok false, db) := by
  rw [deleteService, h]

theorem deleteService_some {row : ServiceRow} (h : db.serviceRow? id = some row) :
    db.deleteService id =
      (.ok true,
        { db with
          services := db.services.filter fun row => row.id != toSigned id
          versions := db.versions.filter fun row => row.serviceId != toSigned id }) := by
  rw [deleteService, h]

theorem updateVersion_none (h : db.versionRow? id tag = none) (now : Int) (info : String) :
    db.updateVersion now id tag info = (.ok none, db) := by
  have hsame : (db.versions.map fun row =>
      if isVersion id tag row then { row with info := info, updatedAt := now } else row) =
      db.versions := by
    refine (List.map_congr_left fun row hrow => if_neg ?_).trans (List.map_id _)
    exact List.find?_eq_none.mp h row hrow
  simp only [updateVersion, hsame, loadVersion, h]

theorem updateVersion_some (howners : ∀ row ∈ db.versions, 0 ≤ row.serviceId) {row : VersionRow}
    (h : db.versionRow? id tag = some row) (now : Int) (info : String) :
    db.updateVersion now id tag info =
      (.ok (some { row.version with info := info, updatedAt := now }),
        { db with
          versions := db.versions.map fun row =>
            if isVersion id tag row then { row with info := info, updatedAt := now } else row }) := by
  let change (row : VersionRow) : VersionRow := { row with info := info, updatedAt := now }
  have hchanged : (db.versions.map fun row => if isVersion id tag row then change row else row).find?
      (isVersion id tag) = some (change row) := by
    have hkeep : ∀ row, isVersion id tag row = true → isVersion id tag (change row) = true :=
      fun _ hrow => hrow
    exact (find?_map_if hkeep db.versions).trans (congrArg (Option.map change) h)
  have hread : (change row).toVersion = .ok (change row).version :=
    VersionRow.toVersion_of_nonneg (howners row (List.mem_of_find?_eq_some h))
  simp only [change] at hchanged hread
  simp only [updateVersion, loadVersion, versionRow?, hchanged, hread]
  rfl

theorem deleteVersion_none (h : db.versionRow? id tag = none) (now : Int) :
    db.deleteVersion now id tag = (.ok false, db) := by
  rw [deleteVersion, h]

theorem deleteVersion_some {row : VersionRow} (h : db.versionRow? id tag = some row) (now : Int) :
    db.deleteVersion now id tag =
      (.ok true,
        { db.changeService id fun row =>
            { row with versionCount := lowerCount row.versionCount, updatedAt := now } with
          versions := db.versions.filter fun row => !isVersion id tag row }) := by
  rw [deleteVersion, h]
  rfl

/-- Row ids are only given, never taken back. -/
theorem last_le_respond (now : Int) (call : Call) (db : Database) :
    db.lastServiceId ≤ (db.respond now call).2.lastServiceId ∧
      db.lastVersionRow ≤ (db.respond now call).2.lastVersionRow := by
  cases call with
  | insertService name description =>
    simp only [respond]
    obtain ⟨fault, hrefused⟩ | ⟨given, hnext, -, hadded⟩ :=
      db.insertService_cases now name description
    · rw [hrefused]
      exact ⟨le_rfl, le_rfl⟩
    · rw [hadded]
      exact ⟨(nextRowId_spec hnext).1.le, le_rfl⟩
  | insertVersion id tag info =>
    simp only [respond]
    obtain ⟨fault, hrefused⟩ | ⟨row, given, -, hnext, -, hadded⟩ :=
      db.insertVersion_cases now id tag info
    · rw [hrefused]
      exact ⟨le_rfl, le_rfl⟩
    · rw [hadded]
      exact ⟨le_rfl, (nextRowId_spec hnext).1.le⟩
  | updateService id name description =>
    simp only [respond, updateService]
    split
    · exact ⟨le_rfl, le_rfl⟩
    · split <;> exact ⟨le_rfl, le_rfl⟩
  | deleteService id =>
    simp only [respond, deleteService]
    split <;> exact ⟨le_rfl, le_rfl⟩
  | deleteVersion id tag =>
    simp only [respond, deleteVersion]
    split <;> exact ⟨le_rfl, le_rfl⟩
  | _ => exact ⟨le_rfl, le_rfl⟩

namespace Consistent

theorem nextServiceId (h : db.Consistent) (hroom : db.lastServiceId < maxSigned) :
    nextRowId (db.services.map (·.id)) db.lastServiceId = .ok (db.lastServiceId + 1) :=
  nextRowId_of_le h.undamaged.lastService h.service_ids_le hroom

theorem nextVersionRow (h : db.Consistent) (hroom : db.lastVersionRow < maxSigned) :
    nextRowId (db.versions.map (·.rowId)) db.lastVersionRow = .ok (db.lastVersionRow + 1) := by
  refine nextRowId_of_le h.undamaged.lastVersion.1 (fun n hn => ?_) hroom
  obtain ⟨row, hrow, rfl⟩ := List.mem_map.mp hn
  exact (h.numbered.given row hrow).2

end Consistent

end Database

namespace RecordStore

/-- There are row ids left for another service and for another version. -/
def Roomy : RecordStore → Prop
  | memory _ => True
  | database db => db.lastServiceId < maxSigned ∧ db.lastVersionRow < maxSigned

variable {store : RecordStore}

/-- A store that is not used up after a call was not used up before it. -/
theorem Roomy.of_answer {now : Int} {call : Call} (h : (answer now call store).2.Roomy) :
    store.Roomy := by
  cases store with
  | memory m => trivial
  | database db =>
    obtain ⟨hservice, hversion⟩ := db.last_le_respond now call
    exact ⟨lt_of_le_of_lt hservice h.1, lt_of_le_of_lt hversion h.2⟩

theorem answer_memory {now : Int} {call : Call} {m after : Memory} {reply : Reply call.method}
    (h : Memory.answer now call m = (reply, after)) :
    answer now call (memory m) = (reply, memory after) := by
  simp only [answer, h]

theorem answer_database {now : Int} {call : Call} {db after : Database}
    {reply : Except DatabaseFault call.Answer} (h : db.respond now call = (reply, after)) :
    answer now call (database db) = (reply.mapError DatabaseFault.reported, database after) := by
  simp only [answer, Database.answer, h]

namespace Consistent

theorem finds_service (h : store.Consistent) (now : Int) {id : Nat} {found : Option Service}
    (hfound : store.records.service? (store.address id) = found) :
    RecordStore.answer now (.getService id) store = (.ok found, store) :=
  hfound ▸ h.getService now id

theorem finds_version (h : store.Consistent) (now : Int) {id : Nat} {tag : String}
    {found : Option Version} (hfound : store.records.version? (store.address id) tag = found) :
    RecordStore.answer now (.getVersion id tag) store = (.ok found, store) :=
  hfound ▸ h.getVersion now id tag

theorem counts_none (h : store.Consistent) (now : Int) {name : String}
    (hfree : ¬ (store.records.services.any fun s => s.name == name) = true) :
    RecordStore.answer now (.countServicesNamed name none) store = (.ok 0, store) := by
  rw [h.countServicesNamed, Option.map_none, Memory.countServicesNamed_of_free hfree]

theorem counts_no_other (h : store.Consistent) (now : Int) {name : String} {id : Nat}
    (hfree : ¬ (store.records.services.any fun s =>
      s.name == name && s.id != store.address id) = true) :
    RecordStore.answer now (.countServicesNamed name (some id)) store = (.ok 0, store) := by
  rw [h.countServicesNamed, Option.map_some, Memory.countServicesNamed_of_othersFree hfree]

theorem insertService_lands (h : store.Consistent) (now : Int) (name description : String) :
    (∃ fault, RecordStore.answer now (.insertService name description) store = (.error fault, store) ∧
      (fault.kind = .conflict ∨ ¬ store.Roomy)) ∨
    ∃ s after, RecordStore.answer now (.insertService name description) store = (.ok s, after) ∧
      RecordStore.answer now (.countServicesNamed name none) store = (.ok 0, store) := by
  cases store with
  | memory m =>
    by_cases htaken : (m.services.any fun s => s.name == name) = true
    · exact Or.inl ⟨_, answer_memory (Memory.insertService_taken htaken _ _), Or.inl rfl⟩
    · exact Or.inr ⟨_, _, answer_memory (Memory.insertService_free htaken _ _),
        h.counts_none now htaken⟩
  | database db =>
    cases hnext : nextRowId (db.services.map (·.id)) db.lastServiceId with
    | error fault =>
      have hrefused : db.respond now (.insertService name description) = _ :=
        Database.insertService_full hnext now description
      refine Or.inl ⟨_, answer_database hrefused, Or.inr fun hroomy => ?_⟩
      rw [Database.Consistent.nextServiceId h hroomy.1] at hnext
      cases hnext
    | ok given =>
      by_cases htaken : (db.services.any fun row => row.name == name) = true
      · have hrefused : db.respond now (.insertService name description) = _ :=
          Database.insertService_taken hnext htaken now description
        exact Or.inl ⟨_, answer_database hrefused, Or.inl rfl⟩
      · have hgiven : 0 ≤ given := le_trans h.sound.lastService (nextRowId_spec hnext).1.le
        have hinserted : db.respond now (.insertService name description) = _ :=
          Database.insertService_free hnext hgiven htaken now description
        exact Or.inr ⟨_, _, answer_database hinserted,
          h.counts_none now (mt (db.any_name name).trans htaken)⟩

theorem updateService_lands (h : store.Consistent) (now : Int) (id : Nat)
    (name description : String) :
    (∃ fault, RecordStore.answer now (.updateService id name description) store =
      (.error fault, store) ∧ fault.kind = .conflict) ∨
    RecordStore.answer now (.updateService id name description) store = (.ok none, store) ∨
    ∃ s after before,
      RecordStore.answer now (.updateService id name description) store = (.ok (some s), after) ∧
      RecordStore.answer now (.getService id) store = (.ok (some before), store) ∧
      RecordStore.answer now (.countServicesNamed name (some id)) store = (.ok 0, store) := by
  cases store with
  | memory m =>
    by_cases htaken : (m.services.any fun s => s.name == name && s.id != id) = true
    · exact Or.inl ⟨_, answer_memory (Memory.updateService_taken htaken _ _), rfl⟩
    · have hupdated := Memory.updateService_free htaken now description
      refine Or.inr ?_
      cases hservice : m.service? id with
      | none =>
        rw [hservice, Memory.changeService_of_none hservice] at hupdated
        exact Or.inl (answer_memory hupdated)
      | some before =>
        rw [hservice] at hupdated
        exact Or.inr ⟨_, _, before, answer_memory hupdated, h.finds_service now hservice,
          h.counts_no_other now htaken⟩
  | database db =>
    have hrow := Database.Consistent.serviceRow? h id
    cases hservice : db.serviceRow? id with
    | none =>
      have hmissing : db.respond now (.updateService id name description) = _ :=
        Database.updateService_none hservice now name description
      exact Or.inr (Or.inl (answer_database hmissing))
    | some row =>
      by_cases htaken :
          (db.services.any fun row => row.name == name && row.id != toSigned id) = true
      · have hrefused : db.respond now (.updateService id name description) = _ :=
          Database.updateService_taken hservice htaken now description
        exact Or.inl ⟨_, answer_database hrefused, rfl⟩
      · have hupdated : db.respond now (.updateService id name description) = _ :=
          Database.updateService_free h.sound hservice htaken now description
        rw [hservice] at hrow
        rw [Database.Consistent.any_named h] at htaken
        exact Or.inr (Or.inr ⟨_, _, row.service, answer_database hupdated,
          h.finds_service now hrow.symm, h.counts_no_other now htaken⟩)

theorem deleteService_lands (h : store.Consistent) (now : Int) (id : Nat) :
    RecordStore.answer now (.deleteService id) store = (.ok false, store) ∨
    ∃ after before, RecordStore.answer now (.deleteService id) store = (.ok true, after) ∧
      RecordStore.answer now (.getService id) store = (.ok (some before), store) := by
  cases store with
  | memory m =>
    cases hservice : m.service? id with
    | none =>
      exact Or.inl (answer_memory (Memory.deleteService_none hservice))
    | some before =>
      exact Or.inr ⟨_, before, answer_memory (Memory.deleteService_some hservice),
        h.finds_service now hservice⟩
  | database db =>
    have hrow := Database.Consistent.serviceRow? h id
    cases hservice : db.serviceRow? id with
    | none =>
      have hmissing : db.respond now (.deleteService id) = _ := Database.deleteService_none hservice
      exact Or.inl (answer_database hmissing)
    | some row =>
      have hdeleted : db.respond now (.deleteService id) = _ := Database.deleteService_some hservice
      rw [hservice] at hrow
      exact Or.inr ⟨_, row.service, answer_database hdeleted, h.finds_service now hrow.symm⟩

theorem insertVersion_lands (h : store.Consistent) (now : Int) (id : Nat) (tag info : String) :
    (∃ fault, RecordStore.answer now (.insertVersion id tag info) store = (.error fault, store) ∧
      (fault.kind = .conflict ∨ fault.kind = .invalid ∨ ¬ store.Roomy)) ∨
    ∃ v after owner, RecordStore.answer now (.insertVersion id tag info) store = (.ok v, after) ∧
      RecordStore.answer now (.getService id) store = (.ok (some owner), store) ∧
      RecordStore.answer now (.getVersion id tag) store = (.ok none, store) := by
  cases store with
  | memory m =>
    cases hservice : m.service? id with
    | none =>
      exact Or.inl ⟨_, answer_memory (Memory.insertVersion_none hservice now info),
        Or.inr (Or.inl rfl)⟩
    | some owner =>
      cases hversion : m.version? id tag with
      | some v =>
        exact Or.inl ⟨_, answer_memory (Memory.insertVersion_taken hservice hversion now info),
          Or.inl rfl⟩
      | none =>
        exact Or.inr ⟨_, _, owner, answer_memory (Memory.insertVersion_new hservice hversion now info),
          h.finds_service now hservice, h.finds_version now hversion⟩
  | database db =>
    have hrow := Database.Consistent.serviceRow? h id
    have htagged := Database.Consistent.versionRow? h id tag
    cases hservice : db.serviceRow? id with
    | none =>
      have hrefused : db.respond now (.insertVersion id tag info) = _ :=
        Database.insertVersion_none hservice now info
      exact Or.inl ⟨_, answer_database hrefused, Or.inr (Or.inl rfl)⟩
    | some row =>
      cases hnext : nextRowId (db.versions.map (·.rowId)) db.lastVersionRow with
      | error fault =>
        have hrefused : db.respond now (.insertVersion id tag info) = _ :=
          Database.insertVersion_full hservice hnext now info
        refine Or.inl ⟨_, answer_database hrefused, Or.inr (Or.inr fun hroomy => ?_)⟩
        rw [Database.Consistent.nextVersionRow h hroomy.2] at hnext
        cases hnext
      | ok given =>
        cases hversion : db.versionRow? id tag with
        | some version =>
          have hrefused : db.respond now (.insertVersion id tag info) = _ :=
            Database.insertVersion_taken hservice hnext hversion now info
          exact Or.inl ⟨_, answer_database hrefused, Or.inl rfl⟩
        | none =>
          rw [hservice] at hrow
          rw [hversion] at htagged
          have hinserted : db.respond now (.insertVersion id tag info) = _ :=
            Database.insertVersion_free hservice hnext hversion now info
          exact Or.inr ⟨_, _, row.service, answer_database hinserted,
            h.finds_service now hrow.symm, h.finds_version now htagged.symm⟩

theorem updateVersion_lands (h : store.Consistent) (now : Int) (id : Nat) (tag info : String) :
    RecordStore.answer now (.updateVersion id tag info) store = (.ok none, store) ∨
    ∃ v after before,
      RecordStore.answer now (.updateVersion id tag info) store = (.ok (some v), after) ∧
      RecordStore.answer now (.getVersion id tag) store = (.ok (some before), store) := by
  cases store with
  | memory m =>
    cases hversion : m.version? id tag with
    | none => exact Or.inl (answer_memory (Memory.updateVersion_none hversion now info))
    | some before =>
      exact Or.inr ⟨_, _, before, answer_memory (Memory.updateVersion_some hversion now info),
        h.finds_version now hversion⟩
  | database db =>
    have htagged := Database.Consistent.versionRow? h id tag
    cases hversion : db.versionRow? id tag with
    | none =>
      have hmissing : db.respond now (.updateVersion id tag info) = _ :=
        Database.updateVersion_none hversion now info
      exact Or.inl (answer_database hmissing)
    | some row =>
      rw [hversion] at htagged
      have hupdated : db.respond now (.updateVersion id tag info) = _ :=
        Database.updateVersion_some h.numbered.owners hversion now info
      exact Or.inr ⟨_, _, row.version, answer_database hupdated, h.finds_version now htagged.symm⟩

theorem deleteVersion_lands (h : store.Consistent) (now : Int) (id : Nat) (tag : String) :
    RecordStore.answer now (.deleteVersion id tag) store = (.ok false, store) ∨
    ∃ after before, RecordStore.answer now (.deleteVersion id tag) store = (.ok true, after) ∧
      RecordStore.answer now (.getVersion id tag) store = (.ok (some before), store) := by
  cases store with
  | memory m =>
    cases hversion : m.version? id tag with
    | none =>
      exact Or.inl (answer_memory (Memory.deleteVersion_none hversion now))
    | some before =>
      exact Or.inr ⟨_, before, answer_memory (Memory.deleteVersion_some hversion now),
        h.finds_version now hversion⟩
  | database db =>
    have htagged := Database.Consistent.versionRow? h id tag
    cases hversion : db.versionRow? id tag with
    | none =>
      have hmissing : db.respond now (.deleteVersion id tag) = _ :=
        Database.deleteVersion_none hversion now
      exact Or.inl (answer_database hmissing)
    | some row =>
      have hdeleted : db.respond now (.deleteVersion id tag) = _ :=
        Database.deleteVersion_some hversion now
      rw [hversion] at htagged
      exact Or.inr ⟨_, row.version, answer_database hdeleted, h.finds_version now htagged.symm⟩

end Consistent

end RecordStore

end ServiceRegistry
