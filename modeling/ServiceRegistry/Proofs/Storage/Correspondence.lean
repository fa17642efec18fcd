import Mathlib.Data.List.Find
import ServiceRegistry.Proofs.Storage.Consistency

/-!
# Records in memory and their rows in a database

A database mirrors records in memory if it holds one row for each of them, in the same order.  As
long as every id that has been given is below the largest signed word, looking up by the signed word
of an id finds the same records, and every call is answered alike.

* `Mirrors.answer`: a call has the same answer from both stores, and they mirror each other after it.
  The one exception is a change of a service that is not there to a name that is taken.
-/

namespace ServiceRegistry

def VersionRow.version (row : VersionRow) : Version :=
  ⟨row.serviceId.toNat, row.tag, row.info, row.createdAt, row.updatedAt⟩

/-- The database holds the records in memory as rows; `created` versions have been created. -/
structure Mirrors (created : Nat) (m : Memory) (db : Database) : Prop where
  consistent : m.Consistent
  services : db.services = m.services.map Service.row
  view : db.view = m.view.map Service.row
  versions : m.versions = db.versions.map VersionRow.version
  owners : ∀ row ∈ db.versions, 0 ≤ row.serviceId
  lastService : db.lastServiceId = m.lastId
  lastVersion : db.lastVersionRow = created
  rowIds : ∀ row ∈ db.versions, row.rowId ≤ created
  versionsLength : db.versions.length ≤ created
  viewLength : m.view.length ≤ m.lastId
  viewCounts : ∀ s ∈ m.view, s.versionCount ≤ created
  reliable : m.pendingFailures = 0

def Call.createsService : (call : Call) → Reply call.method → Bool
  | .insertService .., .ok _ => true
  | _, _ => false

def Call.createsVersion : (call : Call) → Reply call.method → Bool
  | .insertVersion .., .ok _ => true
  | _, _ => false

/-! ## Signed words -/

/-- An id below the largest signed word is no other's signed word. -/
theorem eq_toSigned_iff {given : Int} (hpos : 0 ≤ given) (h : given < maxSigned) (id : Nat) :
    given = toSigned id ↔ given.toNat = id := by
  unfold toSigned
  omega

/-- On a list that fits in the signed words, ranges of signed words pick what ranges of words do. -/
theorem pickRows_eq_pick {α : Type} (range : ScanRange) {rows : List α}
    (h : (rows.length : Int) ≤ maxSigned) : range.pickRows rows = range.pick rows := by
  have hdrop : rows.drop (toSigned range.offset).toNat = rows.drop range.offset := by
    by_cases hoffset : (range.offset : Int) ≤ maxSigned
    · rw [toSigned_of_le hoffset, Int.toNat_natCast]
    · have hsigned : toSigned range.offset = maxSigned := by unfold toSigned; omega
      rw [List.drop_eq_nil_of_le (by omega), List.drop_eq_nil_of_le (by omega)]
  rw [ScanRange.pickRows, ScanRange.pick, hdrop]
  by_cases hlimit : (range.limit : Int) ≤ maxSigned
  · rw [toSigned_of_le hlimit, Int.toNat_natCast]
  · have hsigned : toSigned range.limit = maxSigned := by unfold toSigned; omega
    have hlength := List.length_drop (i := range.offset) (l := rows)
    rw [List.take_of_length_le (by omega), List.take_of_length_le (by omega)]

theorem nextRowId_of_le {present : List Int} {last : Int} (hpos : 0 ≤ last)
    (h : ∀ n ∈ present, n ≤ last) (hlast : last < maxSigned) :
    nextRowId present last = .ok (last + 1) := by
  rw [nextRowId_eq_ok_iff, greatestRowId_of_le hpos h]
  exact ⟨hlast, rfl⟩

theorem eq_succ_of_nextRowId {present : List Int} {last given : Int} (hpos : 0 ≤ last)
    (h : ∀ n ∈ present, n ≤ last) (hnext : nextRowId present last = .ok given) :
    given = last + 1 := by
  rw [nextRowId_eq_ok_iff, greatestRowId_of_le hpos h] at hnext
  exact hnext.2.symm

/-! ## Rows of records -/

theorem VersionRow.toVersion_of_nonneg {row : VersionRow} (h : 0 ≤ row.serviceId) :
    row.toVersion = .ok row.version := by
  unfold VersionRow.toVersion
  rw [readNatural_of_nonneg h]
  rfl

theorem mapM_toVersion {rows : List VersionRow} (h : ∀ row ∈ rows, 0 ≤ row.serviceId) :
    rows.mapM VersionRow.toVersion = .ok (rows.map VersionRow.version) := by
  induction rows with
  | nil => rfl
  | cons row rest ih =>
    rw [List.mapM_cons, VersionRow.toVersion_of_nonneg (h row List.mem_cons_self),
      ih fun r hr => h r (List.mem_cons_of_mem _ hr)]
    rfl

theorem readServices_map_row {services : List Service}
    (h : ∀ s ∈ services, (s.versionCount : Int) ≤ maxSigned) :
    readServices (services.map Service.row) = .ok services := by
  have hintact : ∀ row ∈ services.map Service.row, row.Intact := by
    intro row hrow
    obtain ⟨s, hs, rfl⟩ := List.mem_map.mp hrow
    exact ⟨Int.natCast_nonneg _, Int.natCast_nonneg _, h s hs⟩
  rw [readServices_of_intact hintact, List.map_map]
  exact congrArg _ (List.map_id _)

namespace Mirrors

variable {created : Nat} {m : Memory} {db : Database}

/-! ## Reading -/

theorem counts (h : Mirrors created m db) {s : Service} (hs : s ∈ m.services) :
    s.versionCount ≤ created := by
  have hlength : m.owners.length = db.versions.length := by
    rw [Memory.owners, h.versions, List.length_map, List.length_map]
  rw [h.consistent.counted s hs]
  have hcount : m.owners.count s.id ≤ m.owners.length := List.count_le_length
  exact hcount.trans (hlength ▸ h.versionsLength)

theorem length_services (h : Mirrors created m db) : m.services.length ≤ m.lastId := by
  have hlength := length_le_of_given h.consistent.nodup_ids h.consistent.given
  rw [Memory.ids, List.length_map] at hlength
  exact hlength

theorem matching (h : Mirrors created m db) (filter : NameFilter) (source : Source) :
    db.matching filter source = (m.matching filter source).map Service.row := by
  have hrows : db.rows source = (m.rows source).map Service.row := by
    cases source with
    | table => exact h.services
    | sortedView => exact h.view
  rw [Database.matching, Memory.matching, hrows, List.filter_map]
  rfl

theorem rows_bounded (h : Mirrors created m db) (source : Source) :
    (m.rows source).length ≤ m.lastId ∧ ∀ s ∈ m.rows source, s.versionCount ≤ created := by
  cases source with
  | table => exact ⟨h.length_services, fun _ hs => h.counts hs⟩
  | sortedView => exact ⟨h.viewLength, h.viewCounts⟩

theorem scanServices (h : Mirrors created m db) (hlast : (m.lastId : Int) < maxSigned)
    (hcreated : (created : Int) < maxSigned) (filter : NameFilter) (source : Source)
    (range : ScanRange) :
    db.scanServices filter source range = .ok (range.pick (m.matching filter source)) := by
  obtain ⟨hlength, hcounts⟩ := h.rows_bounded source
  have hmatching : (m.matching filter source).length ≤ (m.rows source).length :=
    List.length_filter_le _ _
  rw [Database.scanServices, h.matching, pickRows_eq_pick range (by rw [List.length_map]; omega),
    ScanRange.pick, ← List.map_drop, ← List.map_take]
  refine readServices_map_row fun s hs => ?_
  have hmem := List.mem_of_mem_filter (List.mem_of_mem_drop (List.mem_of_mem_take hs))
  have := hcounts s hmem
  omega

/-- The id of a row is the signed word of the id of its service, and of no other id. -/
theorem row_id_beq (h : Mirrors created m db) (hlast : (m.lastId : Int) < maxSigned) {s : Service}
    (hs : s ∈ m.services) (id : Nat) : (s.row.id == toSigned id) = (s.id == id) := by
  have hgiven := h.consistent.given s.id (Memory.mem_ids hs)
  rw [Bool.eq_iff_iff, beq_iff_eq, beq_iff_eq]
  exact eq_toSigned_iff (Int.natCast_nonneg _) (by omega) id

theorem serviceRow? (h : Mirrors created m db) (hlast : (m.lastId : Int) < maxSigned) (id : Nat) :
    db.serviceRow? id = (m.service? id).map Service.row := by
  rw [Database.serviceRow?, Memory.service?, h.services, List.find?_map]
  exact congrArg (Option.map Service.row) (List.find?_congr fun s hs => h.row_id_beq hlast hs id)

theorem loadService (h : Mirrors created m db) (hlast : (m.lastId : Int) < maxSigned)
    (hcreated : (created : Int) < maxSigned) (id : Nat) :
    db.loadService id = .ok (m.service? id) := by
  rw [Database.loadService, h.serviceRow? hlast]
  cases hservice : m.service? id with
  | none => rfl
  | some s =>
    have hcount := h.counts (h.consistent.service?_eq_some.mp hservice).1
    have hread : readServices ([s].map Service.row) = .ok [s] := by
      refine readServices_map_row fun t ht => ?_
      rw [List.mem_singleton.mp ht]
      omega
    exact congrArg (Except.map List.head?) hread

theorem countServicesNamed (h : Mirrors created m db) (hlast : (m.lastId : Int) < maxSigned)
    (name : String) (excluding : Option Nat) :
    db.countServicesNamed name excluding = m.countServicesNamed name excluding := by
  rw [Database.countServicesNamed, Memory.countServicesNamed, h.services, List.filter_map,
    List.length_map]
  refine congrArg List.length (List.filter_congr fun s hs => ?_)
  cases excluding with
  | none => rfl
  | some id => exact congrArg (s.name == name && !·) (h.row_id_beq hlast hs id)

theorem owner_lt (h : Mirrors created m db) (hlast : (m.lastId : Int) < maxSigned) {row : VersionRow}
    (hrow : row ∈ db.versions) : row.serviceId < maxSigned := by
  have hmem : row.version ∈ m.versions := h.versions ▸ List.mem_map_of_mem hrow
  have hgiven := h.consistent.given _ (h.consistent.owned _ (List.mem_map_of_mem hmem))
  have hpos := h.owners row hrow
  have howner : row.version.serviceId = row.serviceId.toNat := rfl
  omega

theorem isVersion_row (h : Mirrors created m db) (hlast : (m.lastId : Int) < maxSigned) (id : Nat)
    (tag : String) {row : VersionRow} (hrow : row ∈ db.versions) :
    Database.isVersion id tag row = Memory.isVersion id tag row.version := by
  have howner := eq_toSigned_iff (h.owners row hrow) (h.owner_lt hlast hrow) id
  rw [Bool.eq_iff_iff, Memory.isVersion_iff, Database.isVersion, Bool.and_eq_true, beq_iff_eq,
    beq_iff_eq]
  exact and_congr_left fun _ => howner

theorem version? (h : Mirrors created m db) (hlast : (m.lastId : Int) < maxSigned) (id : Nat)
    (tag : String) :
    m.version? id tag = (db.versionRow? id tag).map VersionRow.version := by
  rw [Database.versionRow?, Memory.version?, h.versions, List.find?_map]
  refine congrArg (Option.map VersionRow.version) (List.find?_congr fun row hrow => ?_)
  exact (h.isVersion_row hlast id tag hrow).symm

theorem loadVersion (h : Mirrors created m db) (hlast : (m.lastId : Int) < maxSigned) (id : Nat)
    (tag : String) : db.loadVersion id tag = .ok (m.version? id tag) := by
  rw [Database.loadVersion, h.version? hlast]
  cases hrow : db.versionRow? id tag with
  | none => rfl
  | some row =>
    have hpos := h.owners row (List.mem_of_find?_eq_some hrow)
    exact congrArg (Except.map some) (VersionRow.toVersion_of_nonneg hpos)

theorem versionsOf (h : Mirrors created m db) (hlast : (m.lastId : Int) < maxSigned) (id : Nat) :
    m.versionsOf id = (db.versionsOf id).map VersionRow.version := by
  rw [Database.versionsOf, Memory.versionsOf, h.versions, List.filter_map]
  refine congrArg (List.map VersionRow.version) (List.filter_congr fun row hrow => ?_)
  rw [Bool.eq_iff_iff, Function.comp, beq_iff_eq, beq_iff_eq]
  exact (eq_toSigned_iff (h.owners row hrow) (h.owner_lt hlast hrow) id).symm

theorem scanVersions (h : Mirrors created m db) (hlast : (m.lastId : Int) < maxSigned)
    (hcreated : (created : Int) < maxSigned) (id : Nat) (range : ScanRange) :
    db.scanVersions id range = .ok (range.pick (m.versionsOf id)) := by
  have hlength : (db.versionsOf id).length ≤ db.versions.length := List.length_filter_le _ _
  have hversions := h.versionsLength
  rw [Database.scanVersions, h.versionsOf hlast, pickRows_eq_pick range (by omega), ScanRange.pick,
    ScanRange.pick, ← List.map_drop, ← List.map_take]
  refine mapM_toVersion fun row hrow => ?_
  exact h.owners row (List.mem_of_mem_filter (List.mem_of_mem_drop (List.mem_of_mem_take hrow)))

/-! ## Writing -/

theorem services_changeService (h : Mirrors created m db) (hlast : (m.lastId : Int) < maxSigned)
    (id : Nat) {change : Service → Service} {rowChange : ServiceRow → ServiceRow}
    (hchange : ∀ s ∈ m.services, rowChange s.row = (change s).row) :
    (db.changeService id rowChange).services = (m.changeService id change).services.map Service.row := by
  rw [Database.changeService, Memory.changeService, h.services, List.map_map, List.map_map]
  refine List.map_congr_left fun s hs => ?_
  rw [Function.comp, Function.comp, h.row_id_beq hlast hs id]
  split
  · exact hchange s hs
  · rfl

/-- After a call both stores have answered alike, and they mirror each other. -/
def Alike (created : Nat) (now : Int) (call : Call) (m : Memory) (db : Database) : Prop :=
  (Memory.answer now call m).1 = (Database.answer now call db).1 ∧
    Mirrors (created + (call.createsVersion (Memory.answer now call m).1).toNat)
      (Memory.answer now call m).2 (Database.answer now call db).2

theorem refreshView (h : Mirrors created m db) (now : Int) : Alike created now .refreshView m db := by
  have hm : m.refreshView =
      (.ok (), { m with view := Memory.sorted m.services, refreshes := m.refreshes + 1 }) :=
    if_neg (by rw [h.reliable]; exact Nat.lt_irrefl 0)
  have hlength := (List.mergeSort_perm m.services fun a b => listingOrder a.name a.id b.name b.id)
  change m.refreshView.1 = _ ∧ Mirrors created m.refreshView.2 db.refreshView.2
  have hconsistent := h.consistent.refreshView
  rw [hm] at hconsistent ⊢
  refine ⟨rfl, { h with
    consistent := hconsistent
    view := ?_
    viewLength := hlength.length_eq.trans_le h.length_services
    viewCounts := fun s hs => h.counts (hlength.mem_iff.mp hs) }⟩
  rw [Memory.row_sorted, ← h.services]
  rfl

theorem insertService (h : Mirrors created m db) (hlast : (m.lastId : Int) < maxSigned) (now : Int)
    (name description : String) :
    Alike created now (.insertService name description) m db := by
  have hnamed : (db.services.any fun row => row.name == name) =
      m.services.any fun s => s.name == name := by
    rw [h.services, List.any_map]
    rfl
  have hconsistent := h.consistent.insertService now name description
  change (m.insertService now name description).1 =
      (db.insertService now name description).1.mapError DatabaseFault.reported ∧
    Mirrors (created + 0) (m.insertService now name description).2
      (db.insertService now name description).2
  have hnext : nextRowId (db.services.map (·.id)) db.lastServiceId = .ok (m.lastId + 1 : Nat) := by
    rw [h.lastService]
    refine nextRowId_of_le (Int.natCast_nonneg _) ?_ hlast
    rw [h.services, List.map_map]
    intro n hn
    obtain ⟨s, hs, rfl⟩ := List.mem_map.mp hn
    exact Int.ofNat_le.mpr (h.consistent.given s.id (Memory.mem_ids hs)).2
  by_cases htaken : (m.services.any fun s => s.name == name) = true
  · rw [Memory.insertService_taken htaken, Database.insertService_taken hnext (hnamed.trans htaken)]
    exact ⟨rfl, h⟩
  · have hdb := Database.insertService_free hnext (Int.natCast_nonneg _) (hnamed ▸ htaken) now
      description
    rw [Memory.insertService_free htaken] at hconsistent ⊢
    rw [hdb]
    refine ⟨rfl, { h with
      consistent := hconsistent
      services := ?_
      lastService := rfl
      viewLength := Nat.le_succ_of_le h.viewLength }⟩
    rw [h.services, List.map_append]
    rfl

theorem updateService (h : Mirrors created m db) (hlast : (m.lastId : Int) < maxSigned)
    (hcreated : (created : Int) < maxSigned) (now : Int) {id : Nat} (hid : id ∈ m.ids)
    (name description : String) :
    Alike created now (.updateService id name description) m db := by
  have hnamed : (db.services.any fun row => row.name == name && row.id != toSigned id) =
      m.services.any fun s => s.name == name && s.id != id := by
    rw [h.services, List.any_map, Bool.eq_iff_iff, List.any_eq_true, List.any_eq_true]
    refine exists_congr fun s => and_congr_right fun hs => ?_
    rw [Function.comp, bne, h.row_id_beq hlast hs id]
    rfl
  obtain ⟨s, hservice⟩ : ∃ s, m.service? id = some s := by
    refine Option.ne_none_iff_exists'.mp fun hnone => ?_
    exact Memory.service?_eq_none_iff.mp hnone hid
  have hrow : db.serviceRow? id = some s.row := by rw [h.serviceRow? hlast, hservice]; rfl
  have hconsistent := h.consistent.updateService now id name description
  change (m.updateService now id name description).1 =
      (db.updateService now id name description).1.mapError DatabaseFault.reported ∧
    Mirrors (created + 0) (m.updateService now id name description).2
      (db.updateService now id name description).2
  rw [Database.updateService, hrow]
  dsimp only
  by_cases htaken : (m.services.any fun s => s.name == name && s.id != id) = true
  · rw [Memory.updateService_taken htaken, if_pos (hnamed.trans htaken)]
    exact ⟨rfl, h⟩
  · rw [Memory.updateService_free htaken] at hconsistent ⊢
    rw [if_neg (hnamed ▸ htaken)]
    have hafter : Mirrors created
        (m.changeService id fun s =>
          { s with name := name, description := description, updatedAt := now })
        (db.changeService id fun row =>
          { row with name := name, description := description, updatedAt := now }) :=
      { h with
        consistent := hconsistent
        services := h.services_changeService hlast id fun _ _ => rfl }
    refine ⟨?_, hafter⟩
    rw [hafter.loadService hlast hcreated]
    refine congrArg Except.ok (find?_map_if ?_ m.services).symm
    exact fun _ hid => hid

theorem deleteService (h : Mirrors created m db) (hlast : (m.lastId : Int) < maxSigned) (now : Int)
    (id : Nat) : Alike created now (.deleteService id) m db := by
  have hconsistent := h.consistent.deleteService id
  change (m.deleteService id).1 = (db.deleteService id).1.mapError DatabaseFault.reported ∧
    Mirrors (created + 0) (m.deleteService id).2 (db.deleteService id).2
  rw [Memory.deleteService] at hconsistent ⊢
  rw [Database.deleteService, h.serviceRow? hlast]
  cases hservice : m.service? id with
  | none => exact ⟨rfl, h⟩
  | some s =>
    rw [hservice] at hconsistent
    have hversions : (db.versions.filter fun row => row.serviceId != toSigned id).length ≤ created :=
      (List.length_filter_le _ _).trans h.versionsLength
    refine ⟨rfl, { h with
      consistent := hconsistent
      services := ?_
      versions := ?_
      owners := fun row hrow => h.owners row (List.mem_of_mem_filter hrow)
      rowIds := fun row hrow => h.rowIds row (List.mem_of_mem_filter hrow)
      versionsLength := hversions }⟩
    · dsimp only [Option.map_some]
      rw [h.services, List.filter_map]
      refine congrArg (List.map Service.row) (List.filter_congr fun s hs => ?_)
      rw [Function.comp, bne, h.row_id_beq hlast hs id]
      rfl
    · dsimp only [Option.map_some]
      rw [h.versions, List.filter_map]
      refine congrArg (List.map VersionRow.version) (List.filter_congr fun row hrow => ?_)
      have howner := eq_toSigned_iff (h.owners row hrow) (h.owner_lt hlast hrow) id
      rw [Bool.eq_iff_iff, Function.comp, bne_iff_ne, bne_iff_ne]
      exact not_congr howner.symm

/-- A new version of a service that is there: its row is numbered, and the service counts it. -/
theorem append_version (h : Mirrors created m db) (hlast : (m.lastId : Int) < maxSigned)
    (hcreated : (created : Int) < maxSigned) {now : Int} {id : Nat} {tag info : String}
    (hid : id ≤ m.lastId)
    (hconsistent : Memory.Consistent
      { m.changeService id fun s =>
          { s with versionCount := s.versionCount + 1, updatedAt := now } with
        versions := m.versions ++ [⟨id, tag, info, now, now⟩] }) :
    Mirrors (created + 1)
      { m.changeService id fun s =>
          { s with versionCount := s.versionCount + 1, updatedAt := now } with
        versions := m.versions ++ [⟨id, tag, info, now, now⟩] }
      { db.changeService id fun row =>
          { row with versionCount := raiseCount row.versionCount, updatedAt := now } with
        versions := db.versions ++ [⟨(created + 1 : Nat), toSigned id, tag, info, now, now⟩]
        lastVersionRow := (created + 1 : Nat) } := by
  have hsigned : toSigned id = id := toSigned_of_le (by omega)
  refine { h with
    consistent := hconsistent
    services := h.services_changeService hlast id fun t ht => ?_
    versions := ?_
    owners := ?_
    lastVersion := rfl
    rowIds := ?_
    versionsLength := ?_
    viewCounts := fun t ht => Nat.le_succ_of_le (h.viewCounts t ht) }
  · have hcount := h.counts ht
    have hraise : raiseCount t.versionCount = (t.versionCount + 1 : Nat) := if_pos (by omega)
    exact congrArg (fun n => ServiceRow.mk t.id t.name t.description n t.createdAt now) hraise
  · rw [hsigned]
    dsimp only
    rw [h.versions, List.map_append]
    rfl
  · intro row hrow
    rcases List.mem_append.mp hrow with hrow | hrow
    · exact h.owners row hrow
    · rw [List.mem_singleton.mp hrow]
      exact toSigned_nonneg id
  · intro row hrow
    rcases List.mem_append.mp hrow with hrow | hrow
    · exact (h.rowIds row hrow).trans (Int.ofNat_le.mpr (Nat.le_succ created))
    · rw [List.mem_singleton.mp hrow]
  · change (db.versions ++ [_]).length ≤ created + 1
    rw [List.length_append]
    exact Nat.succ_le_succ h.versionsLength

theorem insertVersion (h : Mirrors created m db) (hlast : (m.lastId : Int) < maxSigned)
    (hcreated : (created : Int) < maxSigned) (now : Int) (id : Nat) (tag info : String) :
    Alike created now (.insertVersion id tag info) m db := by
  have hconsistent := h.consistent.insertVersion now id tag info
  change (m.insertVersion now id tag info).1 =
      (db.insertVersion now id tag info).1.mapError DatabaseFault.reported ∧
    Mirrors (created + (Call.createsVersion (.insertVersion id tag info)
        (m.insertVersion now id tag info).1).toNat)
      (m.insertVersion now id tag info).2 (db.insertVersion now id tag info).2
  have hversion := h.version? hlast id tag
  have hserviceRow := h.serviceRow? hlast id
  cases hservice : m.service? id with
  | none =>
    rw [hservice] at hserviceRow
    rw [Memory.insertVersion, hservice, Database.insertVersion_none hserviceRow]
    exact ⟨rfl, h⟩
  | some s =>
    have hnext : nextRowId (db.versions.map (·.rowId)) db.lastVersionRow =
        .ok (created + 1 : Nat) := by
      rw [h.lastVersion]
      refine nextRowId_of_le (Int.natCast_nonneg _) (fun n hn => ?_) hcreated
      obtain ⟨row, hrow, rfl⟩ := List.mem_map.mp hn
      exact h.rowIds row hrow
    rw [hservice] at hserviceRow
    cases hrow : db.versionRow? id tag with
    | some row =>
      rw [hrow] at hversion
      rw [Memory.insertVersion, hservice, hversion,
        Database.insertVersion_taken hserviceRow hnext hrow]
      exact ⟨rfl, h⟩
    | none =>
      rw [hrow] at hversion
      obtain ⟨hs, hid⟩ := h.consistent.service?_eq_some.mp hservice
      have hgiven : id ≤ m.lastId := hid ▸ (h.consistent.given s.id (Memory.mem_ids hs)).2
      rw [Memory.insertVersion_new hservice hversion] at hconsistent ⊢
      rw [Database.insertVersion_free hserviceRow hnext hrow]
      exact ⟨rfl, h.append_version hlast hcreated hgiven hconsistent⟩

theorem updateVersion (h : Mirrors created m db) (hlast : (m.lastId : Int) < maxSigned) (now : Int)
    (id : Nat) (tag info : String) : Alike created now (.updateVersion id tag info) m db := by
  have hconsistent := h.consistent.updateVersion now id tag info
  have hafter : Mirrors created (m.updateVersion now id tag info).2
      (db.updateVersion now id tag info).2 := { h with
    consistent := hconsistent
    versions := by
      change m.versions.map _ = (db.versions.map _).map _
      rw [h.versions, List.map_map, List.map_map]
      refine List.map_congr_left fun row hrow => ?_
      rw [Function.comp, Function.comp, h.isVersion_row hlast id tag hrow]
      split
      · rfl
      · rfl
    owners := by
      intro row hrow
      obtain ⟨old, hold, rfl⟩ := List.mem_map.mp hrow
      split
      · exact h.owners old hold
      · exact h.owners old hold
    rowIds := by
      intro row hrow
      obtain ⟨old, hold, rfl⟩ := List.mem_map.mp hrow
      split
      · exact h.rowIds old hold
      · exact h.rowIds old hold
    versionsLength := (List.length_map _).trans_le h.versionsLength }
  refine ⟨?_, hafter⟩
  change _ = ((db.updateVersion now id tag info).2.loadVersion id tag).mapError DatabaseFault.reported
  rw [hafter.loadVersion hlast]
  refine congrArg Except.ok (find?_map_if ?_ m.versions).symm
  exact fun _ hkey => hkey

theorem deleteVersion (h : Mirrors created m db) (hlast : (m.lastId : Int) < maxSigned)
    (hcreated : (created : Int) < maxSigned) (now : Int) (id : Nat) (tag : String) :
    Alike created now (.deleteVersion id tag) m db := by
  have hconsistent := h.consistent.deleteVersion now id tag
  change (m.deleteVersion now id tag).1 =
      (db.deleteVersion now id tag).1.mapError DatabaseFault.reported ∧
    Mirrors (created + 0) (m.deleteVersion now id tag).2 (db.deleteVersion now id tag).2
  have hversion := h.version? hlast id tag
  rw [Memory.deleteVersion] at hconsistent ⊢
  rw [Database.deleteVersion]
  cases hrow : db.versionRow? id tag with
  | none =>
    rw [hrow] at hversion
    rw [hversion]
    exact ⟨rfl, h⟩
  | some row =>
    rw [hrow] at hversion
    rw [hversion] at hconsistent
    rw [hversion]
    have hlength : (db.versions.filter fun row => !Database.isVersion id tag row).length ≤ created :=
      (List.length_filter_le _ _).trans h.versionsLength
    refine ⟨rfl, { h with
      consistent := hconsistent
      services := h.services_changeService hlast id fun t ht => ?_
      versions := ?_
      owners := fun row hrow => h.owners row (List.mem_of_mem_filter hrow)
      rowIds := fun row hrow => h.rowIds row (List.mem_of_mem_filter hrow)
      versionsLength := hlength }⟩
    · have hcount := h.counts ht
      have hlower : lowerCount t.versionCount = (t.versionCount - 1 : Nat) := by
        rw [lowerCount, if_pos (by omega)]
        omega
      exact congrArg (fun n => ServiceRow.mk t.id t.name t.description n t.createdAt now) hlower
    · dsimp only [Option.map_some]
      rw [h.versions, List.filter_map]
      refine congrArg (List.map VersionRow.version) (List.filter_congr fun row hrow => ?_)
      rw [Function.comp, h.isVersion_row hlast id tag hrow]

/-- Both stores answer every call alike, and mirror each other after it.  A change of a service has
to be of one that is there: a name that is taken is noticed first in memory, and last in a
database. -/
theorem answer (h : Mirrors created m db) (hlast : (m.lastId : Int) < maxSigned)
    (hcreated : (created : Int) < maxSigned) (now : Int) (call : Call)
    (hthere : ∀ id name description, call = .updateService id name description → id ∈ m.ids) :
    Alike created now call m db := by
  cases call with
  | refreshView => exact h.refreshView now
  | countServices filter source =>
    refine ⟨congrArg Except.ok ?_, h⟩
    rw [h.matching, List.length_map]
  | scanServices filter source range =>
    exact ⟨(congrArg (Except.mapError DatabaseFault.reported)
      (h.scanServices hlast hcreated filter source range)).symm, h⟩
  | getService id =>
    exact ⟨(congrArg (Except.mapError DatabaseFault.reported)
      (h.loadService hlast hcreated id)).symm, h⟩
  | countServicesNamed name excluding =>
    exact ⟨congrArg Except.ok (h.countServicesNamed hlast name excluding).symm, h⟩
  | insertService name description => exact h.insertService hlast now name description
  | updateService id name description =>
    exact h.updateService hlast hcreated now (hthere id name description rfl) name description
  | deleteService id => exact h.deleteService hlast now id
  | getVersion id tag =>
    exact ⟨(congrArg (Except.mapError DatabaseFault.reported) (h.loadVersion hlast id tag)).symm, h⟩
  | insertVersion id tag info => exact h.insertVersion hlast hcreated now id tag info
  | updateVersion id tag info => exact h.updateVersion hlast now id tag info
  | deleteVersion id tag => exact h.deleteVersion hlast hcreated now id tag
  | countVersions id =>
    refine ⟨congrArg Except.ok ?_, h⟩
    rw [h.versionsOf hlast, List.length_map]
  | scanVersions id range =>
    exact ⟨(congrArg (Except.mapError DatabaseFault.reported)
      (h.scanVersions hlast hcreated id range)).symm, h⟩

end Mirrors

end ServiceRegistry
