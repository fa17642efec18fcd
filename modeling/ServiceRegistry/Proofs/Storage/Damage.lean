import ServiceRegistry.Proofs.Storage.Records

/-!
# Damaged rows

An edit from outside can leave rows that hold no service: their id or their count of versions is
negative.  Rows are filtered and counted as they are stored, and a range of them is looked at only after
it has been picked.  So a scan fails exactly if it has picked a damaged row, and says which.

* `ServiceRow.damaged` tells damaged rows, and `ServiceRow.report` is what is said of one.
* `Database.Storable.scan_of_find?`, `Database.Storable.scan_of_sound`: scans that have picked a damaged
  row, and those that have not.
-/

namespace ServiceRegistry

namespace ServiceRow

/-- No service has a negative id or a negative count. -/
def damaged (row : ServiceRow) : Bool := row.id < 0 || row.versionCount < 0

/-- What is said of a damaged row: its id if that is negative, and its count otherwise. -/
def report (row : ServiceRow) : String :=
  if row.id < 0 then "negative service id: " ++ toString row.id
  else "negative version count: " ++ toString row.versionCount

variable {row : ServiceRow}

theorem damaged_iff : row.damaged = true ↔ row.id < 0 ∨ row.versionCount < 0 := by
  simp [damaged]

theorem intact_of_not_damaged (hreadable : row.versionCount ≤ maxSigned)
    (h : ¬ row.damaged = true) : row.Intact := by
  rw [damaged_iff, not_or] at h
  exact ⟨by omega, by omega, hreadable⟩

theorem toService_of_damaged (h : row.damaged = true) :
    row.toService = .error ⟨.corrupt, row.report⟩ := by
  unfold toService report
  by_cases hid : row.id < 0
  · rw [if_pos hid, readNatural, if_pos hid]
    rfl
  · have hcount : row.versionCount < 0 := (damaged_iff.mp h).resolve_left hid
    rw [if_neg hid, readNatural, if_neg hid, readNatural, if_pos hcount]
    rfl

end ServiceRow

/-- Reading rows that are in their words stops at the first damaged one. -/
theorem readServices_of_find? {rows : List ServiceRow} {row : ServiceRow}
    (hreadable : ∀ row ∈ rows, row.versionCount ≤ maxSigned)
    (h : rows.find? ServiceRow.damaged = some row) :
    readServices rows = .error ⟨.corrupt, row.report⟩ := by
  have hall : rows.all ServiceRow.readable = true :=
    List.all_eq_true.mpr fun row hrow => decide_eq_true (hreadable row hrow)
  rw [readServices, if_pos hall]
  clear hall
  induction rows with
  | nil => cases h
  | cons first rest ih =>
    rw [List.mapM_cons]
    by_cases hfirst : first.damaged = true
    · rw [List.find?_cons_of_pos hfirst] at h
      obtain rfl := Option.some.inj h
      rw [ServiceRow.toService_of_damaged hfirst]
      rfl
    · rw [List.find?_cons_of_neg hfirst] at h
      have hintact := ServiceRow.intact_of_not_damaged (hreadable first List.mem_cons_self) hfirst
      rw [hintact.toService, ih (fun row hrow => hreadable row (List.mem_cons_of_mem _ hrow)) h]
      rfl

namespace Database

/-- What tables can hold: counts are signed words, and so are the numbers of rows. -/
structure Storable (db : Database) : Prop where
  counts : ∀ source, ∀ row ∈ db.rows source, row.versionCount ≤ maxSigned
  lengths : ∀ source, ((db.rows source).length : Int) ≤ maxSigned

variable {db : Database} (h : db.Storable) (now : Int) (filter : NameFilter) (source : Source)
  (range : ScanRange)
include h

namespace Storable

theorem length_matching : ((db.matching filter source).length : Int) ≤ maxSigned := by
  have hrows := h.lengths source
  have hfilter : (db.matching filter source).length ≤ (db.rows source).length :=
    List.length_filter_le _ _
  omega

theorem counts_pick : ∀ row ∈ range.pick (db.matching filter source), row.versionCount ≤ maxSigned :=
  fun row hrow => h.counts source row
    (List.mem_of_mem_filter (List.mem_of_mem_drop (List.mem_of_mem_take hrow)))

theorem scanServices_eq :
    db.scanServices filter source range = readServices (range.pick (db.matching filter source)) := by
  rw [scanServices, pickRows_eq_pick range (h.length_matching filter source)]

/-- A scan that has picked damaged rows names the first of them. -/
theorem scan_of_find? {row : ServiceRow}
    (hfirst : (range.pick (db.matching filter source)).find? ServiceRow.damaged = some row) :
    answer now (.scanServices filter source range) db = (.error ⟨.corrupt, row.report⟩, db) := by
  have hread := readServices_of_find? (h.counts_pick filter source range) hfirst
  simp only [answer, respond, h.scanServices_eq, hread]
  rfl

/-- A scan that has picked no damaged row gives what it has picked. -/
theorem scan_of_sound
    (hsound : ∀ row ∈ range.pick (db.matching filter source), ¬ row.damaged = true) :
    answer now (.scanServices filter source range) db =
      (.ok ((range.pick (db.matching filter source)).map ServiceRow.service), db) := by
  have hread := readServices_of_intact fun row hrow =>
    ServiceRow.intact_of_not_damaged (h.counts_pick filter source range row hrow) (hsound row hrow)
  simp only [answer, respond, h.scanServices_eq, hread]
  rfl

/-- The services of rows that are not damaged hold all their columns. -/
theorem row_service {rows : List ServiceRow} (hrows : rows ⊆ db.rows source)
    (hsound : ∀ row ∈ rows, ¬ row.damaged = true) :
    (rows.map ServiceRow.service).map Service.row = rows := by
  rw [List.map_map]
  refine (List.map_congr_left fun row hrow => ?_).trans (List.map_id rows)
  exact (ServiceRow.intact_of_not_damaged (h.counts source row (hrows hrow)) (hsound row hrow)).row_service

end Storable

end Database

end ServiceRegistry
