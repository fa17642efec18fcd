import ServiceRegistry.Proofs.Storage.Rows

/-!
# What calls leave alone

A reply says whether the service table may have changed (`Call.changesTable`); only a refresh
changes the sorted view.

* `RecordStore.Current.answer`: a call of which the reply does not tell of a change keeps a current
  view current, and a refresh that succeeds makes it so.
* A database that has been edited from outside may hold rows that cannot be read.  Renaming such a
  service fails after the row has been written.  `Database.Undamaged` excludes these rows; it holds of
  a new database and every call keeps it (`Database.Undamaged.respond`).
* `Database.insertService_cases` and `Database.insertVersion_cases` are all that an insertion can do:
  it is refused and changes nothing, or it adds a row under the next row id.
-/

namespace ServiceRegistry

/-- Whether the reply to a call tells that the service table may have changed. -/
def Call.changesTable : (call : Call) → Reply call.method → Bool
  | .insertService .., .ok _ => true
  | .updateService .., .ok (some _) => true
  | .deleteService _, .ok true => true
  | .insertVersion .., .ok _ => true
  | .deleteVersion .., .ok true => true
  | _, _ => false

/-- What is changed where a test holds, and still passes it, is found where it was. -/
theorem find?_map_if {α : Type} {p : α → Bool} {change : α → α}
    (h : ∀ a, p a = true → p (change a) = true) (l : List α) :
    (l.map fun a => if p a then change a else a).find? p = (l.find? p).map change := by
  induction l with
  | nil => rfl
  | cons a rest ih =>
    by_cases ha : p a = true
    · rw [List.map_cons, if_pos ha, List.find?_cons_of_pos (h a ha), List.find?_cons_of_pos ha]
      rfl
    · rw [List.map_cons, if_neg ha, List.find?_cons_of_neg ha, List.find?_cons_of_neg ha, ih]

/-! ## The store in memory -/

namespace Memory

theorem service?_eq_none {m : Memory} {id : Nat} :
    m.service? id = none ↔ ∀ s ∈ m.services, s.id ≠ id := by
  simp [service?, List.find?_eq_none]

theorem changeService_of_none {m : Memory} {id : Nat} (h : m.service? id = none)
    (change : Service → Service) : m.changeService id change = m := by
  have hmap : (m.services.map fun s => if s.id == id then change s else s) = m.services := by
    refine (List.map_congr_left fun s hs => ?_).trans (List.map_id _)
    simp [service?_eq_none.mp h s hs]
  simp only [changeService, hmap]

theorem answer_view (now : Int) {call : Call} (h : call ≠ .refreshView) (m : Memory) :
    (answer now call m).2.view = m.view := by
  cases call with
  | refreshView => exact absurd rfl h
  | insertService name description =>
    simp only [answer, insertService]
    split <;> rfl
  | updateService id name description =>
    simp only [answer, updateService]
    split <;> rfl
  | deleteService id =>
    simp only [answer, deleteService]
    split <;> rfl
  | insertVersion id tag info =>
    simp only [answer, insertVersion]
    split <;> rfl
  | deleteVersion id tag =>
    simp only [answer, deleteVersion]
    split <;> rfl
  | _ => rfl

theorem answer_services (now : Int) (call : Call) (m : Memory)
    (h : call.changesTable (answer now call m).1 = false) :
    (answer now call m).2.services = m.services := by
  revert h
  cases call with
  | refreshView =>
    simp only [answer, refreshView]
    split <;> exact fun _ => rfl
  | insertService name description =>
    simp only [answer, insertService]
    split
    · exact fun _ => rfl
    · intro h; cases h
  | updateService id name description =>
    simp only [answer, updateService]
    split
    · exact fun _ => rfl
    · cases hid : m.service? id with
      | none => exact fun _ => by rw [changeService_of_none hid]
      | some s => intro h; cases h
  | deleteService id =>
    simp only [answer, deleteService]
    split
    · exact fun _ => rfl
    · intro h; cases h
  | insertVersion id tag info =>
    simp only [answer, insertVersion]
    split
    · exact fun _ => rfl
    · exact fun _ => rfl
    · intro h; cases h
  | deleteVersion id tag =>
    simp only [answer, deleteVersion]
    split
    · exact fun _ => rfl
    · intro h; cases h
  | _ => exact fun _ => rfl

end Memory

/-! ## The store in a database -/

structure ServiceRow.Intact (row : ServiceRow) : Prop where
  id : 0 ≤ row.id
  count : 0 ≤ row.versionCount
  readable : row.versionCount ≤ maxSigned

/-- The service that an intact row holds. -/
def ServiceRow.service (row : ServiceRow) : Service :=
  ⟨row.id.toNat, row.name, row.description, row.versionCount.toNat, row.createdAt, row.updatedAt⟩

theorem readNatural_of_nonneg {what : String} {n : Int} (h : 0 ≤ n) :
    readNatural what n = .ok n.toNat :=
  if_neg (by omega)

theorem ServiceRow.Intact.toService {row : ServiceRow} (h : row.Intact) :
    row.toService = .ok row.service := by
  unfold ServiceRow.toService
  rw [readNatural_of_nonneg h.id, readNatural_of_nonneg h.count]
  rfl

theorem readServices_of_intact {rows : List ServiceRow} (h : ∀ row ∈ rows, row.Intact) :
    readServices rows = .ok (rows.map ServiceRow.service) := by
  have hread : rows.all ServiceRow.readable = true :=
    List.all_eq_true.mpr fun row hrow => decide_eq_true (h row hrow).readable
  unfold readServices
  rw [if_pos hread]
  clear hread
  induction rows with
  | nil => rfl
  | cons row rest ih =>
    rw [List.mapM_cons, (h row List.mem_cons_self).toService,
      ih fun r hr => h r (List.mem_cons_of_mem _ hr)]
    rfl

theorem foldl_max_lt_iff {present : List Int} {last bound : Int} :
    present.foldl max last < bound ↔ last < bound ∧ ∀ n ∈ present, n < bound := by
  induction present generalizing last with
  | nil => simp
  | cons n rest ih => rw [List.foldl_cons, ih, max_lt_iff, List.forall_mem_cons, and_assoc]

theorem le_greatestRowId (present : List Int) (last : Int) :
    last ≤ greatestRowId present last ∧ ∀ n ∈ present, n ≤ greatestRowId present last := by
  unfold greatestRowId
  split
  · rename_i hempty
    rw [List.isEmpty_iff.mp hempty]
    exact ⟨le_max_left last 0, fun _ => nofun⟩
  · obtain ⟨hlast, hpresent⟩ := foldl_max_lt_iff.mp (Int.lt_succ (present.foldl max last))
    exact ⟨Int.lt_add_one_iff.mp hlast, fun n hn => Int.lt_add_one_iff.mp (hpresent n hn)⟩

/-- Where no row id exceeds the last one given, that is the greatest. -/
theorem greatestRowId_of_le {present : List Int} {last : Int} (hpos : 0 ≤ last)
    (h : ∀ n ∈ present, n ≤ last) : greatestRowId present last = last := by
  refine le_antisymm ?_ (le_greatestRowId present last).1
  unfold greatestRowId
  split
  · exact (max_eq_left hpos).le
  · rw [← Int.lt_add_one_iff, foldl_max_lt_iff]
    exact ⟨Int.lt_succ last, fun n hn => Int.lt_add_one_iff.mpr (h n hn)⟩

/-- The first row of a table is never given a negative id. -/
theorem greatestRowId_lt_iff {present : List Int} {last bound : Int} (hbound : bound ≤ 0) :
    greatestRowId present last < bound ↔
      present ≠ [] ∧ last < bound ∧ ∀ n ∈ present, n < bound := by
  cases present with
  | nil =>
    have hpos : 0 ≤ greatestRowId [] last := le_max_right last 0
    exact iff_of_false (by omega) fun h => h.1 rfl
  | cons n rest =>
    have hgreatest : greatestRowId (n :: rest) last = (n :: rest).foldl max last := rfl
    rw [hgreatest, foldl_max_lt_iff]
    exact (and_iff_right (List.cons_ne_nil n rest)).symm

theorem nextRowId_eq_ok_iff {present : List Int} {last given : Int} :
    nextRowId present last = .ok given ↔
      greatestRowId present last < maxSigned ∧ greatestRowId present last + 1 = given := by
  unfold nextRowId
  dsimp only
  split
  · rename_i hroom
    rw [Except.ok.injEq, and_iff_right hroom]
  · rename_i hfull
    exact iff_of_false (by simp) fun h => hfull h.1

/-- A new row id is a signed word past all row ids so far. -/
theorem nextRowId_spec {present : List Int} {last id : Int} (h : nextRowId present last = .ok id) :
    last < id ∧ (∀ n ∈ present, n < id) ∧ id ≤ maxSigned := by
  obtain ⟨hlast, hpresent⟩ := le_greatestRowId present last
  obtain ⟨hroom, rfl⟩ := nextRowId_eq_ok_iff.mp h
  exact ⟨Int.lt_add_one_iff.mpr hlast, fun n hn => Int.lt_add_one_iff.mpr (hpresent n hn), hroom⟩

namespace Database

/-! ### What an insertion does

The next row id is found first, then the row is checked against the others. -/

section Insertion

variable {db : Database} {id : Nat} {name tag : String} {given : Int} {fault : DatabaseFault}

theorem insertService_full
    (hnext : nextRowId (db.services.map (·.id)) db.lastServiceId = .error fault) (now : Int)
    (description : String) : db.insertService now name description = (.error fault, db) := by
  rw [insertService, hnext]

theorem insertService_taken (hnext : nextRowId (db.services.map (·.id)) db.lastServiceId = .ok given)
    (htaken : (db.services.any fun row => row.name == name) = true) (now : Int)
    (description : String) :
    db.insertService now name description = (.error (nameTaken name), db) := by
  rw [insertService, hnext]
  exact if_pos htaken

/-- A row is added also if its id is none that a service can have. -/
theorem insertService_added (hnext : nextRowId (db.services.map (·.id)) db.lastServiceId = .ok given)
    (hfree : ¬ (db.services.any fun row => row.name == name) = true) (now : Int)
    (description : String) :
    db.insertService now name description =
      ((readNatural "service id" given).map fun id => ⟨id, name, description, 0, now, now⟩,
        { db with
          services := db.services ++ [⟨given, name, description, 0, now, now⟩]
          lastServiceId := given }) := by
  rw [insertService, hnext]
  exact if_neg hfree

theorem insertService_free (hnext : nextRowId (db.services.map (·.id)) db.lastServiceId = .ok given)
    (hgiven : 0 ≤ given) (hfree : ¬ (db.services.any fun row => row.name == name) = true) (now : Int)
    (description : String) :
    db.insertService now name description =
      (.ok ⟨given.toNat, name, description, 0, now, now⟩,
        { db with
          services := db.services ++ [⟨given, name, description, 0, now, now⟩]
          lastServiceId := given }) := by
  rw [insertService_added hnext hfree, readNatural_of_nonneg hgiven]
  rfl

/-- An insertion is refused and changes nothing, or a row is added. -/
theorem insertService_cases (db : Database) (now : Int) (name description : String) :
    (∃ fault, db.insertService now name description = (.error fault, db)) ∨
    ∃ given, nextRowId (db.services.map (·.id)) db.lastServiceId = .ok given ∧
      ¬ (db.services.any fun row => row.name == name) = true ∧
      db.insertService now name description =
        ((readNatural "service id" given).map fun id => ⟨id, name, description, 0, now, now⟩,
          { db with
            services := db.services ++ [⟨given, name, description, 0, now, now⟩]
            lastServiceId := given }) := by
  cases hnext : nextRowId (db.services.map (·.id)) db.lastServiceId with
  | error fault => exact Or.inl ⟨fault, insertService_full hnext now description⟩
  | ok given =>
    by_cases htaken : (db.services.any fun row => row.name == name) = true
    · exact Or.inl ⟨_, insertService_taken hnext htaken now description⟩
    · exact Or.inr ⟨given, rfl, htaken, insertService_added hnext htaken now description⟩

theorem insertVersion_none (h : db.serviceRow? id = none) (now : Int) (info : String) :
    db.insertVersion now id tag info =
      (.error ⟨.invalid, "service " ++ toString id ++ " does not exist"⟩, db) := by
  rw [insertVersion, h]

theorem insertVersion_full {row : ServiceRow} (h : db.serviceRow? id = some row)
    (hnext : nextRowId (db.versions.map (·.rowId)) db.lastVersionRow = .error fault) (now : Int)
    (info : String) : db.insertVersion now id tag info = (.error fault, db) := by
  have hgiven : ∀ change, nextRowId ((db.changeService id change).versions.map (·.rowId))
      (db.changeService id change).lastVersionRow = .error fault := fun _ => hnext
  simp only [insertVersion, h, hgiven]

theorem insertVersion_taken {row : ServiceRow} {version : VersionRow}
    (h : db.serviceRow? id = some row)
    (hnext : nextRowId (db.versions.map (·.rowId)) db.lastVersionRow = .ok given)
    (htaken : db.versionRow? id tag = some version) (now : Int) (info : String) :
    db.insertVersion now id tag info =
      (.error ⟨.conflict,
        "version " ++ tag ++ " already exists for service " ++ toString id⟩, db) := by
  have hgiven : ∀ change, nextRowId ((db.changeService id change).versions.map (·.rowId))
      (db.changeService id change).lastVersionRow = .ok given := fun _ => hnext
  have hraised : ∀ change, (db.changeService id change).versionRow? id tag = some version :=
    fun _ => htaken
  simp only [insertVersion, h, hgiven, hraised]

theorem insertVersion_free {row : ServiceRow} (h : db.serviceRow? id = some row)
    (hnext : nextRowId (db.versions.map (·.rowId)) db.lastVersionRow = .ok given)
    (hfree : db.versionRow? id tag = none) (now : Int) (info : String) :
    db.insertVersion now id tag info =
      (.ok ⟨id, tag, info, now, now⟩,
        { db.changeService id fun row =>
            { row with versionCount := raiseCount row.versionCount, updatedAt := now } with
          versions := db.versions ++ [⟨given, toSigned id, tag, info, now, now⟩]
          lastVersionRow := given }) := by
  have hgiven : ∀ change, nextRowId ((db.changeService id change).versions.map (·.rowId))
      (db.changeService id change).lastVersionRow = .ok given := fun _ => hnext
  have hraised : ∀ change, (db.changeService id change).versionRow? id tag = none :=
    fun _ => hfree
  simp only [insertVersion, h, hgiven, hraised]
  rfl

/-- An insertion is refused and changes nothing, or a row is added and the owner counts it. -/
theorem insertVersion_cases (db : Database) (now : Int) (id : Nat) (tag info : String) :
    (∃ fault, db.insertVersion now id tag info = (.error fault, db)) ∨
    ∃ row given, db.serviceRow? id = some row ∧
      nextRowId (db.versions.map (·.rowId)) db.lastVersionRow = .ok given ∧
      db.versionRow? id tag = none ∧
      db.insertVersion now id tag info =
        (.ok ⟨id, tag, info, now, now⟩,
          { db.changeService id fun row =>
              { row with versionCount := raiseCount row.versionCount, updatedAt := now } with
            versions := db.versions ++ [⟨given, toSigned id, tag, info, now, now⟩]
            lastVersionRow := given }) := by
  cases hrow : db.serviceRow? id with
  | none => exact Or.inl ⟨_, insertVersion_none hrow now info⟩
  | some row =>
    cases hnext : nextRowId (db.versions.map (·.rowId)) db.lastVersionRow with
    | error fault => exact Or.inl ⟨fault, insertVersion_full hrow hnext now info⟩
    | ok given =>
      cases hversion : db.versionRow? id tag with
      | some version => exact Or.inl ⟨_, insertVersion_taken hrow hnext hversion now info⟩
      | none =>
        exact Or.inr ⟨row, given, rfl, rfl, rfl, insertVersion_free hrow hnext hversion now info⟩

end Insertion

/-- No row of the service table is damaged, and no count of versions exceeds the row ids given to
versions so far. -/
structure Undamaged (db : Database) : Prop where
  ids : ∀ row ∈ db.services, 0 ≤ row.id
  counts : ∀ row ∈ db.services, 0 ≤ row.versionCount ∧ row.versionCount ≤ db.lastVersionRow
  lastService : 0 ≤ db.lastServiceId
  lastVersion : 0 ≤ db.lastVersionRow ∧ db.lastVersionRow ≤ maxSigned

theorem undamaged_of_new {db : Database} (hs : db.services = []) (hi : db.lastServiceId = 0)
    (hv : db.lastVersionRow = 0) : db.Undamaged := by
  refine ⟨?_, ?_, by omega, by rw [hv]; decide⟩ <;> simp [hs]

theorem Undamaged.intact {db : Database} (h : db.Undamaged) {row : ServiceRow}
    (hrow : row ∈ db.services) : row.Intact :=
  ⟨h.ids row hrow, (h.counts row hrow).1, (h.counts row hrow).2.trans h.lastVersion.2⟩

theorem Undamaged.loadService {db : Database} (h : db.Undamaged) (id : Nat) :
    db.loadService id = .ok ((db.serviceRow? id).map ServiceRow.service) := by
  unfold Database.loadService
  cases hrow : db.serviceRow? id with
  | none => rfl
  | some row =>
    have hintact : row.Intact := h.intact (List.mem_of_find?_eq_some hrow)
    dsimp only
    have hread : readServices [row] = .ok ([row].map ServiceRow.service) :=
      readServices_of_intact (by simpa using hintact)
    rw [hread]
    rfl

theorem changeService_serviceRow? (db : Database) (id : Nat) {change : ServiceRow → ServiceRow}
    (hid : ∀ row, (change row).id = row.id) :
    (db.changeService id change).serviceRow? id = (db.serviceRow? id).map change := by
  refine find?_map_if ?_ db.services
  intro row hrow
  rw [hid]
  exact hrow

theorem Undamaged.changeService {db : Database} (h : db.Undamaged) (id : Nat)
    (change : ServiceRow → ServiceRow) {last : Int}
    (hlast : db.lastVersionRow ≤ last ∧ last ≤ maxSigned) (hid : ∀ row, (change row).id = row.id)
    (hcount : ∀ row ∈ db.services,
      0 ≤ (change row).versionCount ∧ (change row).versionCount ≤ last) :
    { db.changeService id change with lastVersionRow := last }.Undamaged := by
  have hrow : ∀ row ∈ db.services, (if row.id == toSigned id then change row else row).id = row.id := by
    intro row _
    split
    · exact hid row
    · rfl
  refine ⟨?_, ?_, h.lastService, le_trans h.lastVersion.1 hlast.1, hlast.2⟩
  · intro row hmem
    obtain ⟨old, hold, rfl⟩ := List.mem_map.mp hmem
    rw [hrow old hold]
    exact h.ids old hold
  · intro row hmem
    obtain ⟨old, hold, rfl⟩ := List.mem_map.mp hmem
    dsimp only
    split
    · exact hcount old hold
    · exact ⟨(h.counts old hold).1, (h.counts old hold).2.trans hlast.1⟩

/-- A row that has been written is read back, unless the change touches its numbers. -/
theorem Undamaged.loadService_changed {db : Database} (h : db.Undamaged) {id : Nat}
    {row : ServiceRow} (hrow : db.serviceRow? id = some row) (change : ServiceRow → ServiceRow)
    (hid : ∀ row, (change row).id = row.id)
    (hcount : ∀ row, (change row).versionCount = row.versionCount) :
    (db.changeService id change).loadService id = .ok (some (change row).service) := by
  have hchanged : (db.changeService id change).Undamaged :=
    h.changeService id change ⟨le_rfl, h.lastVersion.2⟩ hid fun row hmem =>
      hcount row ▸ h.counts row hmem
  rw [hchanged.loadService, changeService_serviceRow? db id hid, hrow]
  rfl

theorem Undamaged.insertService {db : Database} (h : db.Undamaged) (now : Int)
    (name description : String) : (db.insertService now name description).2.Undamaged := by
  obtain ⟨fault, hrefused⟩ | ⟨given, hnext, -, hadded⟩ :=
    db.insertService_cases now name description
  · rw [hrefused]
    exact h
  · rw [hadded]
    obtain ⟨hlast, -, -⟩ := nextRowId_spec hnext
    have hnonneg := h.lastService
    refine ⟨?_, ?_, by dsimp only; omega, h.lastVersion⟩
    · intro row hrow
      rcases List.mem_append.mp hrow with hrow | hrow
      · exact h.ids row hrow
      · rw [List.mem_singleton.mp hrow]
        dsimp only
        omega
    · intro row hrow
      rcases List.mem_append.mp hrow with hrow | hrow
      · exact h.counts row hrow
      · rw [List.mem_singleton.mp hrow]
        exact ⟨le_rfl, h.lastVersion.1⟩

theorem Undamaged.updateService {db : Database} (h : db.Undamaged) (now : Int) (id : Nat)
    (name description : String) : (db.updateService now id name description).2.Undamaged := by
  unfold Database.updateService
  split
  · exact h
  · split
    · exact h
    · exact h.changeService id _ ⟨le_rfl, h.lastVersion.2⟩ (fun _ => rfl) h.counts

theorem Undamaged.deleteService {db : Database} (h : db.Undamaged) (id : Nat) :
    (db.deleteService id).2.Undamaged := by
  unfold Database.deleteService
  split
  · exact h
  · exact ⟨fun row hrow => h.ids row (List.mem_of_mem_filter hrow),
      fun row hrow => h.counts row (List.mem_of_mem_filter hrow), h.lastService, h.lastVersion⟩

theorem Undamaged.insertVersion {db : Database} (h : db.Undamaged) (now : Int) (id : Nat)
    (tag info : String) : (db.insertVersion now id tag info).2.Undamaged := by
  obtain ⟨fault, hrefused⟩ | ⟨row, given, -, hnext, -, hadded⟩ :=
    db.insertVersion_cases now id tag info
  · rw [hrefused]
    exact h
  · -- The count grows by one, and so does the greatest row id, at least.
    obtain ⟨hlast, -, hmax⟩ := nextRowId_spec hnext
    have hraised := h.changeService id
      (fun row => { row with versionCount := raiseCount row.versionCount, updatedAt := now })
      ⟨hlast.le, hmax⟩ (fun _ => rfl) (fun row hrow => by
        obtain ⟨hpos, hle⟩ := h.counts row hrow
        have hsigned := h.lastVersion.2
        simp only [raiseCount, if_pos (hle.trans hsigned)]
        omega)
    rw [hadded]
    exact ⟨hraised.ids, hraised.counts, hraised.lastService, hraised.lastVersion⟩

theorem Undamaged.deleteVersion {db : Database} (h : db.Undamaged) (now : Int) (id : Nat)
    (tag : String) : (db.deleteVersion now id tag).2.Undamaged := by
  unfold Database.deleteVersion
  split
  · exact h
  · have hlowered := h.changeService id
      (fun row => { row with versionCount := lowerCount row.versionCount, updatedAt := now })
      ⟨le_rfl, h.lastVersion.2⟩ (fun _ => rfl) (fun row hrow => by
        obtain ⟨hpos, hle⟩ := h.counts row hrow
        have hsigned := h.lastVersion.2
        have hlast := h.lastVersion.1
        simp only [lowerCount, if_pos (hle.trans hsigned)]
        omega)
    exact ⟨hlowered.ids, hlowered.counts, hlowered.lastService, hlowered.lastVersion⟩

theorem Undamaged.respond {db : Database} (h : db.Undamaged) (now : Int) (call : Call) :
    (db.respond now call).2.Undamaged := by
  cases call with
  | refreshView => exact ⟨h.ids, h.counts, h.lastService, h.lastVersion⟩
  | insertService name description => exact h.insertService now name description
  | updateService id name description => exact h.updateService now id name description
  | deleteService id => exact h.deleteService id
  | insertVersion id tag info => exact h.insertVersion now id tag info
  | updateVersion id tag info => exact ⟨h.ids, h.counts, h.lastService, h.lastVersion⟩
  | deleteVersion id tag => exact h.deleteVersion now id tag
  | _ => exact h

theorem respond_view (now : Int) {call : Call} (h : call ≠ .refreshView) (db : Database) :
    (db.respond now call).2.view = db.view := by
  cases call with
  | refreshView => exact absurd rfl h
  | insertService name description =>
    simp only [respond, insertService]
    split
    · rfl
    · split <;> rfl
  | updateService id name description =>
    simp only [respond, updateService]
    split
    · rfl
    · split <;> rfl
  | deleteService id =>
    simp only [respond, deleteService]
    split <;> rfl
  | insertVersion id tag info =>
    simp only [respond, insertVersion]
    split
    · rfl
    · split
      · rfl
      · split <;> rfl
  | deleteVersion id tag =>
    simp only [respond, deleteVersion]
    split <;> rfl
  | _ => rfl

theorem respond_services {db : Database} (hdb : db.Undamaged) (now : Int) (call : Call)
    (h : call.changesTable (answer now call db).1 = false) :
    (db.respond now call).2.services = db.services := by
  revert h
  cases call with
  | insertService name description =>
    simp only [answer, respond]
    obtain ⟨fault, hrefused⟩ | ⟨given, hnext, -, hadded⟩ :=
      db.insertService_cases now name description
    · rw [hrefused]
      exact fun _ => rfl
    · rw [hadded, readNatural_of_nonneg (le_trans hdb.lastService (nextRowId_spec hnext).1.le)]
      intro h; cases h
  | updateService id name description =>
    simp only [answer, respond, updateService]
    split
    · exact fun _ => rfl
    · rename_i row hrow
      split
      · exact fun _ => rfl
      · rw [hdb.loadService_changed hrow
          (fun row => { row with name := name, description := description, updatedAt := now })
          (fun _ => rfl) (fun _ => rfl)]
        intro h; cases h
  | deleteService id =>
    simp only [answer, respond, deleteService]
    split
    · exact fun _ => rfl
    · intro h; cases h
  | insertVersion id tag info =>
    simp only [answer, respond]
    obtain ⟨fault, hrefused⟩ | ⟨row, given, -, -, -, hadded⟩ :=
      db.insertVersion_cases now id tag info
    · rw [hrefused]
      exact fun _ => rfl
    · rw [hadded]
      intro h; cases h
  | deleteVersion id tag =>
    simp only [answer, respond, deleteVersion]
    split
    · exact fun _ => rfl
    · intro h; cases h
  | _ => exact fun _ => rfl

end Database

/-! ## Both stores -/

namespace RecordStore

/-- Nothing but the library has written to the store. -/
def Sound : RecordStore → Prop
  | memory _ => True
  | database tables => tables.Undamaged

theorem Sound.answer {store : RecordStore} (h : store.Sound) (now : Int) (call : Call) :
    (answer now call store).2.Sound := by
  cases store with
  | memory records => trivial
  | database tables => exact Database.Undamaged.respond h now call

theorem rows_view_answer (now : Int) {call : Call} (h : call ≠ .refreshView) (store : RecordStore) :
    (answer now call store).2.rows .sortedView = store.rows .sortedView := by
  cases store with
  | memory records => exact congrArg (List.map Service.row) (Memory.answer_view now h records)
  | database tables => exact Database.respond_view now h tables

theorem Sound.rows_table_answer {store : RecordStore} (hsound : store.Sound) (now : Int) (call : Call)
    (h : call.changesTable (RecordStore.answer now call store).1 = false) :
    (RecordStore.answer now call store).2.rows .table = store.rows .table := by
  cases store with
  | memory records => exact congrArg (List.map Service.row) (Memory.answer_services now call records h)
  | database tables => exact Database.respond_services hsound now call h

theorem current_refreshView {store : RecordStore} {now : Int}
    (h : (answer now .refreshView store).1 = .ok ()) : (answer now .refreshView store).2.Current := by
  refine .of_sorted ?_
  revert h
  cases store with
  | memory records =>
    simp only [answer, Memory.answer, Memory.refreshView]
    split
    · intro h; cases h
    · exact fun _ => Memory.row_sorted _
  | database tables => exact fun _ => rfl

/-- A current view stays current unless the reply tells that the table has changed. -/
theorem Current.answer {store : RecordStore} (h : store.Current) (hsound : store.Sound) {now : Int}
    {call : Call} (hcall : call.changesTable (RecordStore.answer now call store).1 = false) :
    (RecordStore.answer now call store).2.Current := by
  have htable := hsound.rows_table_answer now call hcall
  by_cases hrefresh : call = .refreshView
  · subst hrefresh
    cases hreply : (RecordStore.answer now .refreshView store).1 with
    | ok _ => exact current_refreshView hreply
    | error fault =>
      have hview : (RecordStore.answer now .refreshView store).2.rows .sortedView =
          store.rows .sortedView := by
        revert hreply
        cases store with
        | memory records =>
          simp only [RecordStore.answer, Memory.answer, Memory.refreshView]
          split
          · exact fun _ => rfl
          · intro h; cases h
        | database tables => intro h; cases h
      exact ⟨hview ▸ htable ▸ h.same, hview ▸ h.ordered⟩
  · have hview := rows_view_answer now hrefresh store
    exact ⟨hview ▸ htable ▸ h.same, hview ▸ h.ordered⟩

/-- A store as the library makes it. -/
inductive New : RecordStore → Prop
  | memory : New (.memory {})
  | database : New (.database (Database.prepare {}).2)

theorem New.sound {store : RecordStore} (h : store.New) : store.Sound := by
  cases h with
  | memory => trivial
  | database => exact Database.undamaged_of_new rfl rfl rfl

theorem New.current {store : RecordStore} (h : store.New) : store.Current := by
  cases h with
  | memory => exact ⟨.refl _, .nil⟩
  | database => exact ⟨.refl _, .nil⟩

end RecordStore

end ServiceRegistry
