import Mathlib.Data.List.Infix
import ServiceRegistry.Proofs.Listing.Window
import ServiceRegistry.Proofs.Procedure.Execution
import ServiceRegistry.Proofs.Storage.Reading

/-!
# Pages of services

A listing presents the rows of its source whose names contain the term, in the order of the source or
the last first.  A page of it is a chunk of this list, whatever page is asked for and of whatever size,
and says how long the list is.

* `RecordStore.presented` is the list.
* `RecordStore.pages_are_chunks`: what is fetched after any history of a store.
-/

namespace ServiceRegistry

theorem map_chunk {β : Type} (f : α → β) (page size : Nat) (rows : List α) :
    (chunk page size rows).map f = chunk page size (rows.map f) := by
  rw [chunk, chunk, List.map_take, List.map_drop]

namespace RecordStore

/-- The rows of the source whose names contain the term, the last first if the listing is inverted. -/
def presented (store : RecordStore) (filter : NameFilter) (sort : SortKey) (inverted : Bool) :
    List ServiceRow :=
  let rows := (store.rows sort.source).filter fun row =>
    decide (filter.term.toList <:+: row.name.toList)
  if inverted then rows.reverse else rows

/-- The rows of a page, if one has been fetched. -/
def shown : Except Refusal (Page Service) → List ServiceRow
  | .ok page => page.data.map Service.row
  | .error _ => []

variable {store : RecordStore}

namespace Consistent

theorem table_ascending (h : store.Consistent) :
    (store.rows .table).Pairwise fun a b => a.id < b.id := by
  rw [h.rows]
  refine List.pairwise_map.mpr ((List.pairwise_map.mp h.records.ascending).imp ?_)
  intro a b hlt
  exact Int.ofNat_lt.mpr hlt

theorem presented_eq (h : store.Consistent) (filter : NameFilter) (sort : SortKey) (inverted : Bool) :
    store.presented filter sort inverted =
      (if inverted then (store.records.matching filter sort.source).reverse
        else store.records.matching filter sort.source).map Service.row := by
  have hrows : ((store.rows sort.source).filter fun row =>
      decide (filter.term.toList <:+: row.name.toList)) =
      (store.records.matching filter sort.source).map Service.row := by
    rw [h.rows, List.filter_map, Memory.matching]
    refine congrArg _ (List.filter_congr fun s _ => ?_)
    rw [Bool.eq_iff_iff, Function.comp, decide_eq_true_eq, filter.holds_iff]
    rfl
  unfold presented
  rw [hrows]
  cases inverted with
  | false => rfl
  | true => exact (List.map_reverse ..).symm

theorem length_matching (h : store.Consistent) (hwords : store.records.lastId ≤ maxWord)
    (filter : NameFilter) (source : Source) :
    (store.records.matching filter source).length ≤ maxWord := by
  have hrows := h.records.length_rows h.arranged source
  have hfilter : (store.records.matching filter source).length ≤
      (store.records.rows source).length := List.length_filter_le _ _
  omega

end Consistent

open Operation

/-- A page is what its window shows of the rows that pass the filter, and fetching it changes nothing. -/
theorem exec_fetchServices_window {world : World RecordStore} (h : world.store.Consistent) (now : Int)
    (request : PageRequest) (filter : NameFilter) (sort : SortKey) :
    let rows := world.store.records.matching filter sort.source
    exec (answer now) (fetchServices request filter sort) world =
      (.ok ⟨(request.window rows.length).rows rows, rows.length, request.pageSize, request.currentPage⟩,
        world) := by
  refine (exec_bind_ok (exec_callOr (countServices ..))).trans ?_
  exact exec_fetchPage _ _ fun range => exec_callOr (h.scanServices now filter sort.source range)

/-- Fetching a page of no more rows than a word counts answers with its chunk, and changes nothing. -/
theorem exec_fetchServices_of_length {world : World RecordStore} (h : world.store.Consistent)
    (filter : NameFilter) (sort : SortKey)
    (hcount : (world.store.records.matching filter sort.source).length ≤ maxWord) (now : Int)
    (page : Nat) {size : Nat} (hsize : size ≤ maxWord) (inverted : Bool) :
    let list := world.store.presented filter sort inverted
    ∃ data, exec (answer now) (fetchServices (.of page size inverted) filter sort) world =
        (.ok ⟨data, list.length, size, max page 1⟩, world) ∧
      data.map Service.row = chunk (max page 1) size list := by
  intro list
  have hlist : list = _ := h.presented_eq filter sort inverted
  have hlength : list.length = (world.store.records.matching filter sort.source).length := by
    rw [hlist, List.length_map]
    split
    · exact List.length_reverse
    · rfl
  have hpage : max (max page 1) 1 = max page 1 := by omega
  have hrows := PageWindow.rows_compute (max page 1) hsize hcount inverted
  rw [hpage] at hrows
  refine ⟨_, ?_, (map_chunk Service.row (max page 1) size _).trans (congrArg _ hlist.symm)⟩
  rw [hlength, ← hrows]
  exact exec_fetchServices_window h now _ filter sort

theorem exec_fetchServices {world : World RecordStore} (h : world.store.Consistent)
    (hwords : world.store.records.lastId ≤ maxWord) (now : Int) (page : Nat) {size : Nat}
    (hsize : size ≤ maxWord) (inverted : Bool) (filter : NameFilter) (sort : SortKey) :
    let list := world.store.presented filter sort inverted
    ∃ data, exec (answer now) (fetchServices (.of page size inverted) filter sort) world =
        (.ok ⟨data, list.length, size, max page 1⟩, world) ∧
      data.map Service.row = chunk (max page 1) size list :=
  exec_fetchServices_of_length h filter sort (h.length_matching hwords filter sort.source) now page
    hsize inverted

/-- A request put together with page 0, past `PageRequest.of`, shows the rows of page 1 and is answered
with the page number 0 that it has. -/
theorem exec_fetchServices_zero {world : World RecordStore} (h : world.store.Consistent) (now : Int)
    (size : Nat) (inverted : Bool) (filter : NameFilter) (sort : SortKey) :
    ∃ data total,
      exec (answer now) (fetchServices (.of 1 size inverted) filter sort) world =
        (.ok ⟨data, total, size, 1⟩, world) ∧
      exec (answer now) (fetchServices ⟨0, size, inverted⟩ filter sort) world =
        (.ok ⟨data, total, size, 0⟩, world) :=
  ⟨_, _, exec_fetchServices_window h now (.of 1 size inverted) filter sort,
    exec_fetchServices_window h now ⟨0, size, inverted⟩ filter sort⟩

/-- Over any store that has come about by calls: a page is as many rows as it has after those of the
pages before it, the pages that there are make up the list with no row lost, repeated or out of order,
and the pages past the end are empty.

The requests are as `PageRequest.of` makes them, which reads page 0 as page 1.  One that names page 0 all
the same shows page 1 and answers with page number 0 (`exec_fetchServices_zero`). -/
theorem pages_are_chunks (hnew : store.New) (history : List Incident)
    (hwords : (store.after history).records.lastId ≤ maxWord) (owed : Bool) (events : List Event)
    (now : Int) (filter : NameFilter) (sort : SortKey) (inverted : Bool) (size : Nat)
    (hsize : size ≤ maxWord) :
    let world : World RecordStore := ⟨store.after history, owed, events⟩
    let list := world.store.presented filter sort inverted
    let fetch (page : Nat) :=
      exec (answer now) (fetchServices (.of page size inverted) filter sort) world
    (∀ page, ∃ data, fetch page = (.ok ⟨data, list.length, size, max page 1⟩, world) ∧
      data.map Service.row = (list.drop ((max page 1 - 1) * size)).take size) ∧
    (0 < size → (List.range' 1 (pagesFor size list.length)).flatMap (fun page =>
      shown (fetch page).1) = list) ∧
    (0 < size → ∀ page, pagesFor size list.length < page → shown (fetch page).1 = []) ∧
    (world.store.rows .table).Pairwise fun a b => a.id < b.id := by
  intro world list fetch
  have hconsistent : world.store.Consistent := hnew.consistent.after history
  have hfetch (page : Nat) := exec_fetchServices hconsistent hwords now page hsize inverted filter sort
  have hshown : ∀ page, shown (fetch page).1 = chunk (max page 1) size list := by
    intro page
    obtain ⟨data, hdone, hdata⟩ := hfetch page
    change shown (exec _ _ _).1 = _
    rw [hdone]
    exact hdata
  refine ⟨hfetch, fun hpos => ?_, fun hpos page hpast => ?_, hconsistent.table_ascending⟩
  · have hpages : (List.range' 1 (pagesFor size list.length)).flatMap (fun page =>
        shown (fetch page).1) =
        (List.range' 1 (pagesFor size list.length)).flatMap fun page => chunk page size list := by
      apply List.flatMap_congr
      intro page hpage
      have hfirst : max page 1 = page := by
        rw [List.mem_range'_1] at hpage
        omega
      rw [hshown, hfirst]
    exact hpages.trans (chunks_flatten hpos list)
  · have hpage : max page 1 = page := by omega
    rw [hshown, hpage]
    exact chunk_past hpos hpast

/-- Pages of two, the last first, with one row on the page that reaches the front. -/
theorem pages_are_chunks_of_three :
    let store := after (.database (Database.prepare {}).2)
      [.call 1 (.insertService "cab" ""), .call 2 (.insertService "b" ""),
        .call 3 (.insertService "bar" ""), .call 4 (.insertService "a" ""), .call 5 .refreshView,
        .call 6 (.deleteService 4)]
    let list := store.presented ⟨"a"⟩ .name true
    store.records.lastId = 4 ∧
      (List.range' 1 (pagesFor 2 list.length)).flatMap (fun page => shown
        (exec (answer 7) (fetchServices (.of page 2 true) ⟨"a"⟩ .name) { store := store }).1) =
        list := by
  intro store list
  have hlast : store.records.lastId = 4 := by decide
  have hwords : store.records.lastId ≤ maxWord := hlast ▸ by decide
  have hpages := pages_are_chunks .database _ hwords false [] 7 ⟨"a"⟩ .name true 2 (by decide)
  exact ⟨hlast, hpages.2.1 (by decide)⟩

end RecordStore

end ServiceRegistry
