import ServiceRegistry.Proofs.Listing.Pages
import ServiceRegistry.Proofs.Procedure.Shape
import ServiceRegistry.Proofs.Storage.Damage

/-!
# Pages of damaged databases

Damaged rows are counted and ordered like all others, so they move no other row to another page.  Only
the pages that would show one are refused.

* `RecordStore.exec_fetchServices_sound`, `RecordStore.exec_fetchServices_damaged`: the pages that show
  no damaged row, and those that would.
* `Database.damage_is_confined`: scans, counts, refreshes and pages over whatever the tables hold.
-/

namespace ServiceRegistry

namespace PageWindow

variable {α : Type} (window : PageWindow)

theorem mem_present {rows : List α} {row : α} : row ∈ window.present rows ↔ row ∈ rows := by
  unfold present
  split
  · exact List.mem_reverse
  · exact Iff.rfl

theorem map_present {β : Type} (f : α → β) (rows : List α) :
    (window.present rows).map f = window.present (rows.map f) := by
  unfold present
  split
  · exact List.map_reverse
  · rfl

end PageWindow

theorem Database.matching_eq (db : Database) (filter : NameFilter) (source : Source) :
    db.matching filter source = (db.rows source).filter fun row =>
      decide (filter.term.toList <:+: row.name.toList) :=
  List.filter_congr fun row _ => by
    rw [Bool.eq_iff_iff, decide_eq_true_eq, filter.holds_iff]

namespace RecordStore

open Operation

variable {db : Database} (h : db.Storable) (now : Int) (owed : Bool) (events : List Event)
  (filter : NameFilter) (sort : SortKey) (page : Nat) {size : Nat} (hsize : size ≤ maxWord)
  (inverted : Bool)

theorem presented_database : presented (.database db) filter sort inverted =
    if inverted then (db.matching filter sort.source).reverse else db.matching filter sort.source := by
  rw [db.matching_eq]
  rfl

theorem length_presented_database : (presented (.database db) filter sort inverted).length =
    (db.matching filter sort.source).length := by
  rw [presented_database]
  cases inverted with
  | false => rfl
  | true => exact List.length_reverse

theorem exec_count_database :
    exec (answer now) (fetchServices (.of page size inverted) filter sort)
        ⟨.database db, owed, events⟩ =
      exec (answer now) (fetchPage (.of page size inverted) (db.matching filter sort.source).length
        fun range => Operation.call "fetch_services" (.scanServices filter sort.source range))
        ⟨.database db, owed, events⟩ :=
  exec_bind_ok (exec_callOr rfl)

include h hsize

theorem rows_window_database :
    ((PageRequest.of page size inverted).window (db.matching filter sort.source).length).rows
        (db.matching filter sort.source) =
      chunk (max page 1) size (presented (.database db) filter sort inverted) := by
  have hlength : (db.matching filter sort.source).length ≤ maxWord := by
    have hsigned := h.length_matching filter sort.source
    unfold maxSigned at hsigned
    unfold maxWord
    omega
  have hpage : max (max page 1) 1 = max page 1 := by omega
  have hrows := PageWindow.rows_compute (max page 1) hsize hlength inverted
  rw [hpage] at hrows
  rw [presented_database]
  exact hrows

/-- A page that shows no damaged row is the chunk of the list. -/
theorem exec_fetchServices_sound
    (hsound : ∀ row ∈ chunk (max page 1) size (presented (.database db) filter sort inverted),
      ¬ row.damaged = true) :
    ∃ data, exec (answer now) (fetchServices (.of page size inverted) filter sort)
        ⟨.database db, owed, events⟩ =
        (.ok ⟨data, (presented (.database db) filter sort inverted).length, size, max page 1⟩,
          ⟨.database db, owed, events⟩) ∧
      data.map Service.row =
        chunk (max page 1) size (presented (.database db) filter sort inverted) := by
  have hrows := rows_window_database h filter sort page hsize inverted
  rw [exec_count_database, length_presented_database, ← hrows]
  rw [← hrows] at hsound
  cases hempty : ((PageRequest.of page size inverted).window
      (db.matching filter sort.source).length).isEmpty with
  | true => exact ⟨[], exec_fetchPage_empty hempty, (PageWindow.rows_of_isEmpty hempty _).symm⟩
  | false =>
    rw [PageWindow.rows_of_not_isEmpty hempty] at hsound ⊢
    have hpicked : ∀ row ∈ ScanRange.pick _ (db.matching filter sort.source), ¬ row.damaged = true :=
      fun row hrow => hsound row ((PageWindow.mem_present _).mpr hrow)
    have hscan := h.scan_of_sound now filter sort.source _ hpicked
    have hreply : answer now (.scanServices filter sort.source _) (.database db) = (.ok _, .database db) :=
      congrArg (fun outcome => (outcome.1, database outcome.2)) hscan
    refine ⟨_, exec_fetchPage_ok hempty (exec_callOr hreply), ?_⟩
    rw [PageWindow.map_present]
    refine congrArg _ (h.row_service sort.source (fun row hrow => ?_) hpicked)
    exact List.mem_of_mem_filter (List.mem_of_mem_drop (List.mem_of_mem_take hrow))

/-- A page that would show a damaged row is refused, and the failure is recorded. -/
theorem exec_fetchServices_damaged
    (hdamaged : ∃ row ∈ chunk (max page 1) size (presented (.database db) filter sort inverted),
      row.damaged = true) :
    ∃ row ∈ chunk (max page 1) size (presented (.database db) filter sort inverted),
      row.damaged = true ∧
      exec (answer now) (fetchServices (.of page size inverted) filter sort)
        ⟨.database db, owed, events⟩ =
        (.error .internal, ⟨.database db, owed,
          events ++ [.storeFailure "fetch_services" (Fault.message ⟨.corrupt, row.report⟩)]⟩) := by
  have hrows := rows_window_database h filter sort page hsize inverted
  rw [exec_count_database, ← hrows]
  rw [← hrows] at hdamaged
  obtain ⟨shown, hshown, hbroken⟩ := hdamaged
  cases hempty : ((PageRequest.of page size inverted).window
      (db.matching filter sort.source).length).isEmpty with
  | true =>
    rw [PageWindow.rows_of_isEmpty hempty] at hshown
    cases hshown
  | false =>
    rw [PageWindow.rows_of_not_isEmpty hempty] at hshown ⊢
    have hfound := List.find?_isSome.mpr ⟨shown, (PageWindow.mem_present _).mp hshown, hbroken⟩
    obtain ⟨first, hfirst⟩ := Option.isSome_iff_exists.mp hfound
    have hscan := h.scan_of_find? now filter sort.source _ hfirst
    have hreply : answer now (.scanServices filter sort.source _) (.database db) =
        (.error ⟨.corrupt, first.report⟩, .database db) :=
      congrArg (fun outcome => (outcome.1, database outcome.2)) hscan
    exact ⟨first, (PageWindow.mem_present _).mpr (List.mem_of_find?_eq_some hfirst),
      List.find?_some hfirst, exec_fetchPage_error hempty (exec_callOr_failed hreply rfl)⟩

end RecordStore

namespace Database

/-- Over tables with any ids and counts:

* a scan fails exactly if it picks a damaged row, and names the first one; otherwise it gives the rows
  that it picks, with all their columns;
* counting never fails and counts all rows that match;
* a refresh succeeds and changes only the view, which then holds all rows of the table as they are, by
  names and ids;
* a page is its chunk of the whole list unless a damaged row is on it; then it is refused. -/
theorem damage_is_confined (db : Database) (h : db.Storable) (now : Int) :
    (∀ filter source range,
      let picked := range.pick ((db.rows source).filter fun row =>
        decide (filter.term.toList <:+: row.name.toList))
      let scan := answer now (.scanServices filter source range) db
      ((∃ detail, scan = (.error ⟨.corrupt, detail⟩, db)) ↔
        ∃ row ∈ picked, row.id < 0 ∨ row.versionCount < 0) ∧
      (∀ row, picked.find? ServiceRow.damaged = some row →
        scan = (.error ⟨.corrupt, row.report⟩, db)) ∧
      ((∀ row ∈ picked, ¬ row.damaged = true) →
        ∃ services, scan = (.ok services, db) ∧ services.map Service.row = picked)) ∧
    (∀ filter source, answer now (.countServices filter source) db =
      (.ok ((db.rows source).filter fun row =>
        decide (filter.term.toList <:+: row.name.toList)).length, db)) ∧
    (∃ view, answer now .refreshView db = (.ok (), { db with view := view }) ∧
      view.Perm db.services ∧ view.Pairwise ServiceRow.Precedes) ∧
    (∀ filter sort inverted page size, size ≤ maxWord → ∀ owed events,
      let world : World RecordStore := ⟨.database db, owed, events⟩
      let list := world.store.presented filter sort inverted
      let shown := (list.drop ((max page 1 - 1) * size)).take size
      let fetched := Operation.exec (RecordStore.answer now)
        (Operation.fetchServices (.of page size inverted) filter sort) world
      ((∀ row ∈ shown, ¬ row.damaged = true) →
        ∃ data, fetched = (.ok ⟨data, list.length, size, max page 1⟩, world) ∧
          data.map Service.row = shown) ∧
      ((∃ row ∈ shown, row.damaged = true) → ∃ row ∈ shown, row.damaged = true ∧
        fetched = (.error .internal, { world with
          events := events ++ [.storeFailure "fetch_services" (Fault.message ⟨.corrupt, row.report⟩)] }))) := by
  refine ⟨fun filter source range => ?_, fun filter source => ?_, ?_,
    fun filter sort inverted page size hsize owed events => ⟨?_, ?_⟩⟩
  · intro picked scan
    have hpicked : picked = range.pick (db.matching filter source) :=
      congrArg range.pick (db.matching_eq filter source).symm
    have hfirst : ∀ row, picked.find? ServiceRow.damaged = some row →
        scan = (.error ⟨.corrupt, row.report⟩, db) := by
      intro row hrow
      exact h.scan_of_find? now filter source range (hpicked ▸ hrow)
    have hsound : (∀ row ∈ picked, ¬ row.damaged = true) →
        scan = (.ok (picked.map ServiceRow.service), db) := by
      intro hsound
      rw [hpicked] at hsound ⊢
      exact h.scan_of_sound now filter source range hsound
    refine ⟨⟨?_, ?_⟩, hfirst, fun hall => ⟨_, hsound hall, ?_⟩⟩
    · rintro ⟨detail, hfailed⟩
      by_contra hnone
      have hall : ∀ row ∈ picked, ¬ row.damaged = true :=
        fun row hrow hbroken => hnone ⟨row, hrow, ServiceRow.damaged_iff.mp hbroken⟩
      rw [hsound hall] at hfailed
      cases hfailed
    · rintro ⟨row, hrow, hbroken⟩
      have hsome := List.find?_isSome.mpr ⟨row, hrow, ServiceRow.damaged_iff.mpr hbroken⟩
      obtain ⟨first, hfound⟩ := Option.isSome_iff_exists.mp hsome
      exact ⟨first.report, hfirst first hfound⟩
    · refine h.row_service source (fun row hrow => ?_) hall
      exact List.mem_of_mem_filter (List.mem_of_mem_drop (List.mem_of_mem_take hrow))
  · rw [← db.matching_eq]
    rfl
  · exact ⟨sorted db.services, rfl, sorted_perm _, sorted_pairwise _⟩
  · exact RecordStore.exec_fetchServices_sound h now owed events filter sort page hsize inverted
  · exact RecordStore.exec_fetchServices_damaged h now owed events filter sort page hsize inverted

/-- Two damaged rows among four: the first page of two names the count that is met first, and the second
page is answered. -/
theorem damage_is_confined_to_first_page :
    let db : Database := {
      layout := some 1, lastServiceId := 4
      services := [⟨-9, "z", "", 0, 5, 5⟩, ⟨2, "ab", "", -1, 5, 5⟩, ⟨3, "a", "", 0, 6, 6⟩,
        ⟨4, "ba", "", 2, 7, 8⟩] }
    let world : World RecordStore := ⟨.database db, false, []⟩
    db.Storable ∧
      answer 9 (.scanServices ⟨"a"⟩ .table ⟨0, 2⟩) db =
        (.error ⟨.corrupt, "negative version count: -1"⟩, db) ∧
      ∃ data, Operation.exec (RecordStore.answer 9)
          (Operation.fetchServices (.of 2 2 false) ⟨"a"⟩ .created) world =
          (.ok ⟨data, 3, 2, 2⟩, world) ∧
        data.map Service.row = [⟨4, "ba", "", 2, 7, 8⟩] := by
  intro db world
  have hstorable : db.Storable := by
    constructor
    · intro source
      cases source <;> decide
    · intro source
      cases source <;> decide
  have hreport : ServiceRow.report ⟨2, "ab", "", -1, 5, 5⟩ = "negative version count: -1" := by decide
  have hconfined := damage_is_confined db hstorable 9
  refine ⟨hstorable, ?_, (hconfined.2.2.2 ⟨"a"⟩ .created false 2 2 (by decide) false []).1 (by decide)⟩
  rw [← hreport]
  exact (hconfined.1 ⟨"a"⟩ .table ⟨0, 2⟩).2.1 _ (by decide)

end Database

end ServiceRegistry
