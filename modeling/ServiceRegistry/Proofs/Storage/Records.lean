import ServiceRegistry.Proofs.Storage.Correspondence

/-!
# The records that a database holds

The rows of a database hold records as a store in memory does, with ids cut down to signed words.
Seen so, a write to a database is the same write to records, or none at all: it may be refused, or
the row ids may be used up.  So whatever the writes to records keep, the calls on a database keep.

* `Memory.Arranged` says what the sorted view of a store in memory is, and `Memory.Arranged.answer`
  that every call keeps it so.
* `Database.Consistent.records_respond`: what a call on a database does to its records.
* `Database.Consistent.respond`: every call keeps a database consistent, whatever its arguments.
-/

namespace ServiceRegistry

/-! ## The sorted view of records -/

namespace Memory

/-- The sorted view holds services of distinct ids, all given before, by strictly ascending names. -/
structure Arranged (m : Memory) : Prop where
  names : m.view.Pairwise fun a b => a.name < b.name
  ids : (m.view.map (·.id)).Nodup
  given : ∀ s ∈ m.view, 0 < s.id ∧ s.id ≤ m.lastId

variable {m : Memory}

theorem mem_sorted {services : List Service} {s : Service} : s ∈ sorted services ↔ s ∈ services :=
  (List.mergeSort_perm _ _).mem_iff

/-- Services of distinct names are sorted by strictly ascending names. -/
theorem sorted_names {services : List Service} (h : (services.map (·.name)).Nodup) :
    (sorted services).Pairwise fun a b => a.name < b.name := by
  have hnames : (sorted services).Pairwise fun a b => a.name ≠ b.name := by
    apply List.pairwise_map.mp
    exact ((List.mergeSort_perm services _).map (·.name)).nodup_iff.mpr h
  have hprecedes : (sorted services).Pairwise fun a b => a.row.Precedes b.row := by
    apply List.pairwise_map.mp
    rw [row_sorted]
    exact Database.sorted_pairwise _
  refine (hprecedes.and hnames).imp ?_
  rintro a b ⟨hlt | ⟨heq, -⟩, hne⟩
  · exact hlt
  · exact absurd heq hne

theorem Consistent.arranged_sorted (h : m.Consistent) (refreshes : Nat) :
    Arranged { m with view := sorted m.services, refreshes := refreshes } := by
  refine ⟨sorted_names h.distinctNames, ?_, fun s hs => ?_⟩
  · have hperm := (List.mergeSort_perm m.services fun a b => listingOrder a.name a.id b.name b.id).map
      (·.id)
    exact hperm.nodup_iff.mpr h.nodup_ids
  · exact h.given s.id (mem_ids (mem_sorted.mp hs))

theorem lastId_le_answer (now : Int) (call : Call) (m : Memory) :
    m.lastId ≤ (answer now call m).2.lastId := by
  cases call with
  | refreshView =>
    simp only [answer, refreshView]
    split <;> simp
  | insertService name description =>
    simp only [answer, insertService]
    split <;> simp
  | updateService id name description =>
    simp only [answer, updateService]
    split <;> simp [changeService]
  | deleteService id =>
    simp only [answer, deleteService]
    split <;> simp
  | insertVersion id tag info =>
    simp only [answer, insertVersion]
    split <;> simp [changeService]
  | deleteVersion id tag =>
    simp only [answer, deleteVersion]
    split <;> simp [changeService]
  | _ => exact le_rfl

theorem Arranged.answer (h : m.Arranged) (hm : m.Consistent) (now : Int) (call : Call) :
    (answer now call m).2.Arranged := by
  by_cases hrefresh : call = .refreshView
  · subst hrefresh
    simp only [Memory.answer, refreshView]
    split
    · exact ⟨h.names, h.ids, h.given⟩
    · exact hm.arranged_sorted _
  · have hview := answer_view now hrefresh m
    have hlast := lastId_le_answer now call m
    refine ⟨hview ▸ h.names, hview ▸ h.ids, fun s hs => ?_⟩
    obtain ⟨hpos, hle⟩ := h.given s (hview ▸ hs)
    exact ⟨hpos, hle.trans hlast⟩

/-- A source has no more rows than ids have been given. -/
theorem Consistent.length_rows (h : m.Consistent) (harranged : m.Arranged) (source : Source) :
    (m.rows source).length ≤ m.lastId := by
  cases source with
  | table =>
    have hservices := length_le_of_given h.nodup_ids h.given
    rw [ids, List.length_map] at hservices
    exact hservices
  | sortedView =>
    have hview := length_le_of_given harranged.ids fun id hid => by
      obtain ⟨s, hs, rfl⟩ := List.mem_map.mp hid
      exact harranged.given s hs
    rw [List.length_map] at hview
    exact hview

end Memory

/-! ## Rows as records -/

/-- The id that a database looks up for an id: past the largest signed word it is this word. -/
def signedId (id : Nat) : Nat := (toSigned id).toNat

theorem beq_toSigned {n : Int} (h : 0 ≤ n) (id : Nat) :
    (n == toSigned id) = (n.toNat == signedId id) := by
  have hsigned := toSigned_nonneg id
  rw [Bool.eq_iff_iff, beq_iff_eq, beq_iff_eq, signedId]
  omega

/-- The call at the ids that a database looks up. -/
def Call.addressed : Call → Call
  | .getService id => .getService (signedId id)
  | .countServicesNamed name excluding =>
    .countServicesNamed name (excluding.map signedId)
  | .updateService id name description =>
    .updateService (signedId id) name description
  | .deleteService id => .deleteService (signedId id)
  | .getVersion id tag => .getVersion (signedId id) tag
  | .insertVersion id tag info => .insertVersion (signedId id) tag info
  | .updateVersion id tag info => .updateVersion (signedId id) tag info
  | .deleteVersion id tag => .deleteVersion (signedId id) tag
  | .countVersions id => .countVersions (signedId id)
  | .scanVersions id range => .scanVersions (signedId id) range
  | call => call

theorem ServiceRow.Intact.row_service {row : ServiceRow} (h : row.Intact) : row.service.row = row := by
  obtain ⟨hid, hcount, -⟩ := h
  simp [ServiceRow.service, Service.row, hid, hcount]

namespace Database

/-- The records that the rows hold. -/
def records (db : Database) : Memory where
  lastId := db.lastServiceId.toNat
  services := db.services.map ServiceRow.service
  versions := db.versions.map VersionRow.version
  view := db.view.map ServiceRow.service

/-- The rows of versions have owners that are ids, and row ids of their own in ascending order. -/
structure Numbered (db : Database) : Prop where
  owners : ∀ row ∈ db.versions, 0 ≤ row.serviceId
  ascending : (db.versions.map (·.rowId)).Pairwise (· < ·)
  given : ∀ row ∈ db.versions, 0 < row.rowId ∧ row.rowId ≤ db.lastVersionRow

/-- No row is damaged, ids fit in signed words, and the rows hold consistent records. -/
structure Consistent (db : Database) : Prop where
  undamaged : db.Undamaged
  numbered : db.Numbered
  viewed : ∀ row ∈ db.view, row.Intact
  lastService : db.lastServiceId ≤ maxSigned
  records : db.records.Consistent
  arranged : db.records.Arranged

variable {db : Database}

theorem records_changeService (hids : ∀ row ∈ db.services, 0 ≤ row.id) (id : Nat)
    {rowChange : ServiceRow → ServiceRow} {change : Service → Service}
    (h : ∀ row ∈ db.services, (rowChange row).service = change row.service) :
    (db.changeService id rowChange).records = db.records.changeService (signedId id) change := by
  have hservices : (db.services.map fun row =>
        if row.id == toSigned id then rowChange row else row).map ServiceRow.service =
      (db.services.map ServiceRow.service).map fun s =>
        if s.id == signedId id then change s else s := by
    rw [List.map_map, List.map_map]
    refine List.map_congr_left fun row hrow => ?_
    have hid : (row.id == toSigned id) = (row.service.id == signedId id) :=
      beq_toSigned (hids row hrow) id
    rw [Function.comp, Function.comp, hid]
    split
    · exact h row hrow
    · rfl
  simp only [records, changeService, Memory.changeService, hservices]

theorem any_name (db : Database) (name : String) :
    (db.services.any fun row => row.name == name) =
      db.records.services.any fun s => s.name == name := by
  rw [Database.records, List.any_map]
  rfl

namespace Consistent

/-! ## Reading -/

theorem isVersion (h : db.Consistent) {row : VersionRow} (hrow : row ∈ db.versions) (id : Nat)
    (tag : String) :
    Database.isVersion id tag row = Memory.isVersion (signedId id) tag row.version := by
  simp only [Database.isVersion, Memory.isVersion, VersionRow.version,
    beq_toSigned (h.numbered.owners row hrow)]

theorem serviceRow? (h : db.Consistent) (id : Nat) :
    (db.serviceRow? id).map ServiceRow.service = db.records.service? (signedId id) := by
  have hids := h.undamaged.ids
  simp only [Database.serviceRow?, Memory.service?, Database.records, List.find?_map]
  exact congrArg _ (List.find?_congr fun row hrow => beq_toSigned (hids row hrow) id)

theorem versionRow? (h : db.Consistent) (id : Nat) (tag : String) :
    (db.versionRow? id tag).map VersionRow.version = db.records.version? (signedId id) tag := by
  simp only [Database.versionRow?, Memory.version?, Database.records, List.find?_map]
  exact congrArg _ (List.find?_congr fun row hrow => h.isVersion hrow id tag)

theorem loadService (h : db.Consistent) (id : Nat) :
    db.loadService id = .ok (db.records.service? (signedId id)) := by
  rw [h.undamaged.loadService, h.serviceRow?]

theorem loadVersion (h : db.Consistent) (id : Nat) (tag : String) :
    db.loadVersion id tag = .ok (db.records.version? (signedId id) tag) := by
  rw [← h.versionRow?, Database.loadVersion]
  cases hrow : db.versionRow? id tag with
  | none => rfl
  | some row =>
    have hpos := h.numbered.owners row (List.mem_of_find?_eq_some hrow)
    exact congrArg (Except.map some) (VersionRow.toVersion_of_nonneg hpos)

theorem any_named (h : db.Consistent) (name : String) (id : Nat) :
    (db.services.any fun row => row.name == name && row.id != toSigned id) =
      db.records.services.any fun s => s.name == name && s.id != signedId id := by
  have hids := h.undamaged.ids
  rw [Database.records, List.any_map, Bool.eq_iff_iff, List.any_eq_true, List.any_eq_true]
  refine exists_congr fun row => and_congr_right fun hrow => ?_
  simp only [Function.comp, bne, beq_toSigned (hids row hrow), ServiceRow.service]

theorem countServicesNamed (h : db.Consistent) (name : String) (excluding : Option Nat) :
    db.countServicesNamed name excluding =
      db.records.countServicesNamed name (excluding.map signedId) := by
  have hids := h.undamaged.ids
  rw [Database.countServicesNamed, Memory.countServicesNamed, Database.records, List.filter_map,
    List.length_map]
  refine congrArg List.length (List.filter_congr fun row hrow => ?_)
  cases excluding with
  | none => rfl
  | some id => exact congrArg (row.name == name && !·) (beq_toSigned (hids row hrow) id)

theorem records_rows (db : Database) (source : Source) :
    db.records.rows source = (db.rows source).map ServiceRow.service := by
  cases source <;> rfl

theorem matching (db : Database) (filter : NameFilter) (source : Source) :
    (db.matching filter source).map ServiceRow.service = db.records.matching filter source := by
  rw [Memory.matching, records_rows, List.filter_map]
  rfl

theorem rows_intact (h : db.Consistent) (source : Source) : ∀ row ∈ db.rows source, row.Intact := by
  cases source with
  | table => exact fun row hrow => h.undamaged.intact hrow
  | sortedView => exact h.viewed

/-- The records are the rows without loss. -/
theorem map_row_records (h : db.Consistent) (source : Source) :
    (db.records.rows source).map Service.row = db.rows source := by
  rw [records_rows, List.map_map]
  refine (List.map_congr_left fun row hrow => ?_).trans (List.map_id _)
  exact (h.rows_intact source row hrow).row_service

theorem length_rows (h : db.Consistent) (source : Source) :
    ((db.rows source).length : Int) ≤ maxSigned := by
  have hlast := h.lastService
  have hnonneg := h.undamaged.lastService
  have hrecords : (db.records.rows source).length = (db.rows source).length := by
    rw [records_rows, List.length_map]
  have hlength : (db.records.rows source).length ≤ db.lastServiceId.toNat :=
    h.records.length_rows h.arranged source
  omega

theorem scanServices (h : db.Consistent) (filter : NameFilter) (source : Source)
    (range : ScanRange) :
    db.scanServices filter source range = .ok (range.pick (db.records.matching filter source)) := by
  have hlength : ((db.matching filter source).length : Int) ≤ maxSigned := by
    have hrows := h.length_rows source
    have hfilter : (db.matching filter source).length ≤ (db.rows source).length :=
      List.length_filter_le _ _
    omega
  have hpick : range.pick ((db.matching filter source).map ServiceRow.service) =
      (range.pick (db.matching filter source)).map ServiceRow.service := by
    simp only [ScanRange.pick, List.map_take, List.map_drop]
  rw [Database.scanServices, pickRows_eq_pick range hlength, ← matching, hpick]
  refine readServices_of_intact fun row hrow => h.rows_intact source row ?_
  exact List.mem_of_mem_filter (List.mem_of_mem_drop (List.mem_of_mem_take hrow))

theorem versionsOf (h : db.Consistent) (id : Nat) :
    (db.versionsOf id).map VersionRow.version = db.records.versionsOf (signedId id) := by
  rw [Database.versionsOf, Memory.versionsOf, Database.records, List.filter_map]
  exact congrArg _ (List.filter_congr fun row hrow => beq_toSigned (h.numbered.owners row hrow) id)

theorem length_versions (h : db.Consistent) : (db.versions.length : Int) ≤ maxSigned := by
  have hlast := h.undamaged.lastVersion
  have hids : (db.versions.map fun row => row.rowId.toNat).Nodup := by
    refine List.pairwise_map.mpr ((List.pairwise_map.mp h.numbered.ascending).imp_of_mem ?_)
    intro a b ha hb hlt
    have := h.numbered.given a ha
    omega
  have hlength : db.versions.length ≤ db.lastVersionRow.toNat := by
    have hgiven := length_le_of_given hids fun id hid => by
      obtain ⟨row, hrow, rfl⟩ := List.mem_map.mp hid
      have := h.numbered.given row hrow
      change 0 < row.rowId.toNat ∧ row.rowId.toNat ≤ db.lastVersionRow.toNat
      omega
    simpa using hgiven
  omega

theorem scanVersions (h : db.Consistent) (id : Nat) (range : ScanRange) :
    db.scanVersions id range = .ok (range.pick (db.records.versionsOf (signedId id))) := by
  have hlength : ((db.versionsOf id).length : Int) ≤ maxSigned := by
    have hall := h.length_versions
    have hfilter : (db.versionsOf id).length ≤ db.versions.length := List.length_filter_le _ _
    omega
  rw [Database.scanVersions, pickRows_eq_pick range hlength, ← h.versionsOf, ScanRange.pick,
    ScanRange.pick, ← List.map_drop, ← List.map_take]
  refine mapM_toVersion fun row hrow => ?_
  exact h.numbered.owners row
    (List.mem_of_mem_filter (List.mem_of_mem_drop (List.mem_of_mem_take hrow)))

theorem length_versionsOf (h : db.Consistent) (id : Nat) :
    (db.versionsOf id).length = (db.records.versionsOf (signedId id)).length := by
  rw [← h.versionsOf, List.length_map]

theorem service_ids_le (h : db.Consistent) : ∀ n ∈ db.services.map (·.id), n ≤ db.lastServiceId := by
  intro n hn
  obtain ⟨row, hrow, rfl⟩ := List.mem_map.mp hn
  have hgiven : row.id.toNat ≤ db.lastServiceId.toNat :=
    (h.records.given _ (Memory.mem_ids (List.mem_map_of_mem hrow))).2
  have := h.undamaged.ids row hrow
  have := h.undamaged.lastService
  omega

/-! ## Writing -/

theorem records_insertService (h : db.Consistent) (now : Int) (name description : String) :
    (db.insertService now name description).2 = db ∨
      (db.insertService now name description).2.records =
        (db.records.insertService now name description).2 := by
  obtain ⟨fault, hrefused⟩ | ⟨given, hnext, hfree, hadded⟩ :=
    db.insertService_cases now name description
  · exact Or.inl (by rw [hrefused])
  · have hlast : (db.lastServiceId + 1).toNat = db.lastServiceId.toNat + 1 := by
      have := h.undamaged.lastService
      omega
    obtain rfl := eq_succ_of_nextRowId h.undamaged.lastService h.service_ids_le hnext
    refine Or.inr ?_
    rw [hadded, Memory.insertService_free (db.any_name name ▸ hfree)]
    simp [Database.records, ServiceRow.service, hlast]

theorem records_updateService (h : db.Consistent) (now : Int) (id : Nat)
    (name description : String) :
    (db.updateService now id name description).2 = db ∨
      (db.updateService now id name description).2.records =
        (db.records.updateService now (signedId id) name description).2 := by
  rw [Database.updateService]
  split
  · exact Or.inl rfl
  · split
    · exact Or.inl rfl
    · rename_i hfree
      rw [h.any_named] at hfree
      rw [Memory.updateService_free hfree]
      exact Or.inr (records_changeService h.undamaged.ids id fun _ _ => rfl)

theorem records_deleteService (h : db.Consistent) (id : Nat) :
    (db.deleteService id).2 = db ∨
      (db.deleteService id).2.records = (db.records.deleteService (signedId id)).2 := by
  rw [Database.deleteService]
  split
  · exact Or.inl rfl
  · rename_i row hrow
    have hservice : db.records.service? (signedId id) = some row.service := by
      rw [← h.serviceRow?, hrow]
      rfl
    rw [Memory.deleteService_some hservice]
    have hservices : (db.services.filter fun row => row.id != toSigned id).map ServiceRow.service =
        db.records.services.filter fun s => s.id != signedId id := by
      rw [Database.records, List.filter_map]
      refine congrArg _ (List.filter_congr fun row hrow => ?_)
      exact congrArg (!·) (beq_toSigned (h.undamaged.ids row hrow) id)
    have hversions : (db.versions.filter fun row => row.serviceId != toSigned id).map
        VersionRow.version = db.records.versions.filter fun v => v.serviceId != signedId id := by
      rw [Database.records, List.filter_map]
      refine congrArg _ (List.filter_congr fun row hrow => ?_)
      exact congrArg (!·) (beq_toSigned (h.numbered.owners row hrow) id)
    refine Or.inr ?_
    simp only [Database.records] at hservices hversions ⊢
    rw [hservices, hversions]

theorem records_raised (h : db.Consistent) (now : Int) (id : Nat) :
    (db.changeService id fun row =>
        { row with versionCount := raiseCount row.versionCount, updatedAt := now }).records =
      db.records.changeService (signedId id) fun s =>
        { s with versionCount := s.versionCount + 1, updatedAt := now } := by
  refine records_changeService h.undamaged.ids id fun row hrow => ?_
  obtain ⟨-, hcount, hreadable⟩ := h.undamaged.intact hrow
  have hraise : (raiseCount row.versionCount).toNat = row.versionCount.toNat + 1 := by
    rw [raiseCount, if_pos hreadable]
    omega
  simp [ServiceRow.service, hraise]

theorem records_lowered (h : db.Consistent) (now : Int) (id : Nat) :
    (db.changeService id fun row =>
        { row with versionCount := lowerCount row.versionCount, updatedAt := now }).records =
      db.records.changeService (signedId id) fun s =>
        { s with versionCount := s.versionCount - 1, updatedAt := now } := by
  refine records_changeService h.undamaged.ids id fun row hrow => ?_
  obtain ⟨-, hcount, hreadable⟩ := h.undamaged.intact hrow
  have hlower : (lowerCount row.versionCount).toNat = row.versionCount.toNat - 1 := by
    rw [lowerCount, if_pos hreadable]
    omega
  simp [ServiceRow.service, hlower]

theorem records_insertVersion (h : db.Consistent) (now : Int) (id : Nat) (tag info : String) :
    (db.insertVersion now id tag info).2 = db ∨
      (db.insertVersion now id tag info).2.records =
        (db.records.insertVersion now (signedId id) tag info).2 := by
  obtain ⟨fault, hrefused⟩ | ⟨row, given, hrow, -, hversion, hadded⟩ :=
    db.insertVersion_cases now id tag info
  · exact Or.inl (by rw [hrefused])
  · have hservice : db.records.service? (signedId id) = some row.service := by
      rw [← h.serviceRow?, hrow]
      rfl
    have hnone : db.records.version? (signedId id) tag = none := by
      rw [← h.versionRow?, hversion]
      rfl
    have hraised := h.records_raised now id
    refine Or.inr ?_
    rw [hadded, Memory.insertVersion_new hservice hnone, ← hraised]
    simp [Database.records, Database.changeService, VersionRow.version, signedId]

theorem records_updateVersion (h : db.Consistent) (now : Int) (id : Nat) (tag info : String) :
    (db.updateVersion now id tag info).2.records =
      (db.records.updateVersion now (signedId id) tag info).2 := by
  have hversions : (db.versions.map fun row =>
        if Database.isVersion id tag row then { row with info := info, updatedAt := now } else row).map
        VersionRow.version =
      db.records.versions.map fun v =>
        if Memory.isVersion (signedId id) tag v then { v with info := info, updatedAt := now }
        else v := by
    rw [Database.records, List.map_map, List.map_map]
    refine List.map_congr_left fun row hrow => ?_
    simp only [Function.comp, h.isVersion hrow]
    split <;> rfl
  simp only [Database.updateVersion, Memory.updateVersion, Database.records] at hversions ⊢
  rw [hversions]

theorem records_deleteVersion_some (h : db.Consistent) (now : Int) {id : Nat} {tag : String}
    {row : VersionRow} (hrow : db.versionRow? id tag = some row) :
    (db.deleteVersion now id tag).2.records =
      (db.records.deleteVersion now (signedId id) tag).2 := by
  have hversion : db.records.version? (signedId id) tag = some row.version := by
    rw [← h.versionRow?, hrow]
    rfl
  have hlowered := h.records_lowered now id
  have hversions : (db.versions.filter fun row => !Database.isVersion id tag row).map
      VersionRow.version =
      db.records.versions.filter fun v => !Memory.isVersion (signedId id) tag v := by
    rw [Database.records, List.filter_map]
    refine congrArg _ (List.filter_congr fun row hrow => ?_)
    exact congrArg (!·) (h.isVersion hrow id tag)
  rw [Database.deleteVersion, hrow, Memory.deleteVersion_some hversion, ← hversions, ← hlowered]
  rfl

theorem records_deleteVersion (h : db.Consistent) (now : Int) (id : Nat) (tag : String) :
    (db.deleteVersion now id tag).2 = db ∨
      (db.deleteVersion now id tag).2.records =
        (db.records.deleteVersion now (signedId id) tag).2 := by
  cases hrow : db.versionRow? id tag with
  | none => exact Or.inl (by rw [Database.deleteVersion, hrow])
  | some row => exact Or.inr (h.records_deleteVersion_some now hrow)

/-- What a call other than a refresh does to the records: nothing, or what the call at the addressed
ids does to records in memory. -/
theorem records_respond (h : db.Consistent) (now : Int) {call : Call} (hne : call ≠ .refreshView) :
    (db.respond now call).2 = db ∨
      (db.respond now call).2.records = (Memory.answer now call.addressed db.records).2 := by
  cases call with
  | refreshView => exact absurd rfl hne
  | insertService name description => exact h.records_insertService now name description
  | updateService id name description => exact h.records_updateService now id name description
  | deleteService id => exact h.records_deleteService id
  | insertVersion id tag info => exact h.records_insertVersion now id tag info
  | updateVersion id tag info => exact Or.inr (h.records_updateVersion now id tag info)
  | deleteVersion id tag => exact h.records_deleteVersion now id tag
  | _ => exact Or.inl rfl

end Consistent

/-! ## Calls keep the rows in order -/

theorem Numbered.insertVersion (h : db.Numbered) (hlast : 0 ≤ db.lastVersionRow) (now : Int) (id : Nat)
    (tag info : String) : (db.insertVersion now id tag info).2.Numbered := by
  obtain ⟨fault, hrefused⟩ | ⟨row, given, -, hnext, -, hadded⟩ :=
    db.insertVersion_cases now id tag info
  · rw [hrefused]
    exact h
  · obtain ⟨hnew, hpresent, -⟩ := nextRowId_spec hnext
    rw [hadded]
    refine ⟨fun row hrow => ?_, ?_, fun row hrow => ?_⟩
    · rcases List.mem_append.mp hrow with hrow | hrow
      · exact h.owners row hrow
      · rw [List.mem_singleton.mp hrow]
        exact toSigned_nonneg id
    · rw [List.map_append]
      refine List.pairwise_append.mpr ⟨h.ascending, List.pairwise_singleton _ _, ?_⟩
      intro n hn last hlast
      rw [List.mem_singleton.mp hlast]
      exact hpresent n hn
    · dsimp only
      rcases List.mem_append.mp hrow with hrow | hrow
      · have := h.given row hrow
        omega
      · rw [List.mem_singleton.mp hrow]
        dsimp only
        omega

theorem Numbered.of_sublist {db' : Database} (h : db.Numbered)
    (hversions : db'.versions.Sublist db.versions) (hlast : db'.lastVersionRow = db.lastVersionRow) :
    db'.Numbered := by
  refine ⟨fun row hrow => h.owners row (hversions.subset hrow), h.ascending.sublist (hversions.map _),
    fun row hrow => ?_⟩
  rw [hlast]
  exact h.given row (hversions.subset hrow)

theorem Numbered.updateVersion (h : db.Numbered) (now : Int) (id : Nat) (tag info : String) :
    (db.updateVersion now id tag info).2.Numbered := by
  have hmem : ∀ row ∈ (db.updateVersion now id tag info).2.versions,
      ∃ old ∈ db.versions, row.serviceId = old.serviceId ∧ row.rowId = old.rowId := by
    intro row hrow
    obtain ⟨old, hold, rfl⟩ := List.mem_map.mp hrow
    refine ⟨old, hold, ?_⟩
    split <;> simp
  refine ⟨fun row hrow => ?_, ?_, fun row hrow => ?_⟩
  · obtain ⟨old, hold, howner, -⟩ := hmem row hrow
    exact howner ▸ h.owners old hold
  · have hsame : (db.updateVersion now id tag info).2.versions.map (·.rowId) =
        db.versions.map (·.rowId) := by
      refine (List.map_map ..).trans (List.map_congr_left fun row _ => ?_)
      simp only [Function.comp]
      split <;> rfl
    rw [hsame]
    exact h.ascending
  · obtain ⟨old, hold, -, hrowId⟩ := hmem row hrow
    rw [hrowId]
    exact h.given old hold

theorem Numbered.respond (h : db.Numbered) (hlast : 0 ≤ db.lastVersionRow) (now : Int) (call : Call) :
    (db.respond now call).2.Numbered := by
  cases call with
  | insertService name description =>
    simp only [Database.respond]
    obtain ⟨fault, hrefused⟩ | ⟨given, -, -, hadded⟩ :=
      db.insertService_cases now name description
    · rw [hrefused]
      exact h
    · rw [hadded]
      exact h.of_sublist (List.Sublist.refl _) rfl
  | updateService id name description =>
    simp only [Database.respond, updateService]
    split
    · exact h
    · split
      · exact h
      · exact h.of_sublist (List.Sublist.refl _) rfl
  | deleteService id =>
    simp only [Database.respond, deleteService]
    split
    · exact h
    · exact h.of_sublist List.filter_sublist rfl
  | insertVersion id tag info => exact h.insertVersion hlast now id tag info
  | updateVersion id tag info => exact h.updateVersion now id tag info
  | deleteVersion id tag =>
    simp only [Database.respond, deleteVersion]
    split
    · exact h
    · exact h.of_sublist List.filter_sublist rfl
  | _ => exact h.of_sublist (List.Sublist.refl _) rfl

theorem lastServiceId_respond (now : Int) (call : Call) (h : db.lastServiceId ≤ maxSigned) :
    (db.respond now call).2.lastServiceId ≤ maxSigned := by
  cases call with
  | insertService name description =>
    simp only [respond]
    obtain ⟨fault, hrefused⟩ | ⟨given, hnext, -, hadded⟩ :=
      db.insertService_cases now name description
    · rw [hrefused]
      exact h
    · rw [hadded]
      exact (nextRowId_spec hnext).2.2
  | updateService id name description =>
    simp only [respond, updateService]
    split
    · exact h
    · split <;> exact h
  | deleteService id =>
    simp only [respond, deleteService]
    split <;> exact h
  | insertVersion id tag info =>
    simp only [respond]
    obtain ⟨fault, hrefused⟩ | ⟨row, given, -, -, -, hadded⟩ :=
      db.insertVersion_cases now id tag info
    · rw [hrefused]
      exact h
    · rw [hadded]
      exact h
  | deleteVersion id tag =>
    simp only [respond, deleteVersion]
    split <;> exact h
  | _ => exact h

theorem Consistent.refreshView (h : db.Consistent) : db.refreshView.2.Consistent := by
  have hview : (sorted db.services).map ServiceRow.service = Memory.sorted db.records.services := by
    refine List.map_mergeSort fun a ha b hb => ?_
    have hida := h.undamaged.ids a ha
    have hidb := h.undamaged.ids b hb
    simp [ServiceRow.service, hida, hidb]
  have hrecords : db.refreshView.2.records =
      { db.records with view := Memory.sorted db.records.services } := by
    simp only [Database.refreshView, Database.records] at hview ⊢
    rw [hview]
  have harranged := h.records.arranged_sorted db.records.refreshes
  refine ⟨h.undamaged.respond 0 .refreshView, h.numbered.of_sublist (List.Sublist.refl _) rfl, ?_,
    h.lastService, ?_, hrecords ▸ harranged⟩
  · exact fun row hrow => h.undamaged.intact ((sorted_perm _).mem_iff.mp hrow)
  · rw [hrecords]
    obtain ⟨hascending, hgiven, hnames, htags, howned, hcounted⟩ := h.records
    exact ⟨hascending, hgiven, hnames, htags, howned, hcounted⟩

/-- Every call keeps a database consistent. -/
theorem Consistent.respond (h : db.Consistent) (now : Int) (call : Call) :
    (db.respond now call).2.Consistent := by
  by_cases hrefresh : call = .refreshView
  · subst hrefresh
    exact h.refreshView
  · rcases h.records_respond now hrefresh with hsame | hrecords
    · rw [hsame]
      exact h
    · refine ⟨h.undamaged.respond now call, h.numbered.respond h.undamaged.lastVersion.1 now call, ?_,
        lastServiceId_respond now call h.lastService, hrecords ▸ h.records.answer now call.addressed,
        hrecords ▸ h.arranged.answer h.records now call.addressed⟩
      rw [respond_view now hrefresh]
      exact h.viewed

theorem consistent_of_new : Consistent (prepare {}).2 where
  undamaged := undamaged_of_new rfl rfl rfl
  numbered := ⟨nofun, .nil, nofun⟩
  viewed := nofun
  lastService := by decide
  records := Memory.consistent_of_new
  arranged := ⟨.nil, .nil, nofun⟩

end Database

end ServiceRegistry
