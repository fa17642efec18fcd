import ServiceRegistry.Proofs.Catalog.Growth
import ServiceRegistry.Proofs.Listing.Pages

/-!
# Walking through the pages of a growing catalog

A listing in the order of creation is fetched page by page, and between two fetches services are
created.  So every page is a chunk of another list, of which the earlier ones are prefixes.  Forward
pages count from the end that stays, and inverted pages from the end that grows: there the windows
move on under the walk, but only towards rows that have been shown already.

* `walked_sublist` and `take_subset_walked`: what is shown of a list that grows at its end.
* `mem_walked_or_left`: the same for the chunks of the reversed list.
* `Walk.walk_skips_nothing`: so a walk to the first empty page shows every service that was there at
  its start.
-/

namespace ServiceRegistry

/-! ## Chunks of a list that grows -/

theorem length_le_of_chunk_eq_nil {page size : Nat} {rows : List α} (hsize : 0 < size)
    (h : chunk page size rows = []) : rows.length ≤ (page - 1) * size := by
  rw [chunk, List.take_eq_nil_iff] at h
  rcases h with hzero | hdrop
  · omega
  · exact List.drop_eq_nil_iff.mp hdrop

section Growing

variable {lists : Nat → List α} (hgrows : ∀ i, lists i <+: lists (i + 1))
include hgrows

theorem prefix_zero (i : Nat) : lists 0 <+: lists i := by
  induction i with
  | zero => exact List.prefix_rfl
  | succ i ih => exact ih.trans (hgrows i)

/-- Chunks of the list as it grows come one after the other in it. -/
theorem walked_sublist (size pages : Nat) :
    ((List.range pages).flatMap fun i => chunk (i + 1) size (lists i)).Sublist
      ((lists pages).take (pages * size)) := by
  induction pages with
  | zero => simp
  | succ pages ih =>
    have hchunk : chunk (pages + 1) size (lists pages) =
        ((lists pages).drop (pages * size)).take size := rfl
    have hnext : ((lists pages).take ((pages + 1) * size)).Sublist
        ((lists (pages + 1)).take ((pages + 1) * size)) :=
      ((hgrows pages).take _).sublist
    rw [List.range_succ, List.flatMap_append, List.flatMap_singleton, hchunk]
    rw [Nat.succ_mul] at hnext ⊢
    rw [List.take_add] at hnext
    exact (ih.append (List.Sublist.refl _)).trans hnext

/-- The chunks show the rows of the pages that there were at the start. -/
theorem take_subset_walked (size pages : Nat) :
    (lists 0).take (pages * size) ⊆
      (List.range pages).flatMap fun i => chunk (i + 1) size (lists i) := by
  induction pages with
  | zero => simp
  | succ pages ih =>
    have hpage : ((lists 0).drop (pages * size)).take size ⊆ chunk (pages + 1) size (lists pages) :=
      (((prefix_zero hgrows pages).drop _).take _).subset
    rw [List.range_succ, List.flatMap_append, List.flatMap_singleton, Nat.succ_mul, List.take_add]
    intro x hx
    rcases List.mem_append.mp hx with hx | hx
    · exact List.mem_append_left _ (ih hx)
    · exact List.mem_append_right _ (hpage hx)

/-- What was there at the start has been shown, or is left in front of the rows that have been passed:
the chunks of two pages leave no gap between them, since the later list is the longer one. -/
theorem mem_walked_or_left (size pages : Nat) {x : α} (hx : x ∈ lists 0) :
    x ∈ ((List.range pages).flatMap fun i => chunk (i + 1) size (lists i).reverse) ∨
      x ∈ (lists pages).take ((lists pages).length - pages * size) := by
  induction pages with
  | zero =>
    right
    simpa using hx
  | succ pages ih =>
    rw [List.range_succ, List.flatMap_append, List.flatMap_singleton]
    rcases ih with hshown | hleft
    · exact Or.inl (List.mem_append_left _ hshown)
    · -- The page shows the last of the rows that are left.
      let left := (lists pages).length - pages * size
      have hchunk : chunk (pages + 1) size (lists pages).reverse =
          (((lists pages).take left).drop (left - size)).reverse :=
        chunk_reverse (pages + 1) size (lists pages)
      rw [← List.take_append_drop (left - size) ((lists pages).take left)] at hleft
      rcases List.mem_append.mp hleft with hfront | hpage
      · right
        rw [List.take_take, Nat.min_eq_left (Nat.sub_le _ _)] at hfront
        have hlength := (hgrows pages).length_le
        have hbound : left - size ≤ (lists (pages + 1)).length - (pages + 1) * size := by
          rw [Nat.succ_mul]
          omega
        exact (List.take_subset_take_left _ hbound) (((hgrows pages).take _).subset hfront)
      · left
        apply List.mem_append_right
        rw [hchunk]
        exact List.mem_reverse.mpr hpage

end Growing

/-! ## Walks -/

open Operation

/-- A walk through a listing in the order of creation: page `i + 1` is fetched at the instant
`fetchedAt i`, and `meanwhile i` is what is done to the catalog before the next page. -/
structure Walk where
  filter : NameFilter
  size : Nat
  inverted : Bool
  fetchedAt : Nat → Int
  meanwhile : Nat → List (Int × Deed)

namespace Walk

def fetch (walk : Walk) (i : Nat) (world : World RecordStore) :
    Except Refusal (Page Service) × World RecordStore :=
  exec (RecordStore.answer (walk.fetchedAt i))
    (fetchServices (.of (i + 1) walk.size walk.inverted) walk.filter .created) world

/-- The world in which page `i + 1` is fetched. -/
def world (walk : Walk) (start : World RecordStore) : Nat → World RecordStore
  | 0 => start
  | i + 1 => Deed.done RecordStore.answer (walk.fetch i (walk.world start i)).2 (walk.meanwhile i)

/-- The ids that page `i + 1` shows. -/
def ids (walk : Walk) (start : World RecordStore) (i : Nat) : List Int :=
  (RecordStore.shown (walk.fetch i (walk.world start i)).1).map (·.id)

/-- The ids that the first pages show, one page after the other. -/
def shown (walk : Walk) (start : World RecordStore) (pages : Nat) : List Int :=
  (List.range pages).flatMap (walk.ids start)

/-- The ids of the services that match the filter of the walk, in the order of creation. -/
def present (walk : Walk) (store : RecordStore) : List Int :=
  (store.presented walk.filter .created false).map (·.id)

variable {walk : Walk} {start : World RecordStore}

theorem present_eq {store : RecordStore} (h : store.Consistent) :
    walk.present store =
      ((store.records.keys.filter fun key => walk.filter.holds key.2).map Prod.fst).map Nat.cast := by
  rw [present, h.presented_eq, if_neg Bool.false_ne_true, ← Memory.ids_matching, List.map_map,
    List.map_map]
  rfl

theorem present_ascending {store : RecordStore} (h : store.Consistent) :
    (walk.present store).Pairwise (· < ·) := by
  apply List.pairwise_map.mpr
  exact h.table_ascending.filter _

theorem present_prefix {store later : RecordStore} (h : store.Consistent) (hlater : later.Consistent)
    (hkeys : store.records.keys <+: later.records.keys) :
    walk.present store <+: walk.present later := by
  rw [present_eq h, present_eq hlater]
  exact ((hkeys.filter _).map _).map _

section

variable (hsize : walk.size ≤ maxWord)
include hsize

theorem fetch_eq {i : Nat} {world : World RecordStore} (h : world.store.Consistent)
    (hwords : world.store.records.lastId ≤ maxWord) :
    ∃ page, walk.fetch i world = (.ok page, world) ∧
      page.data.map Service.row = chunk (i + 1) walk.size
        (world.store.presented walk.filter .created walk.inverted) := by
  obtain ⟨data, hdone, hdata⟩ := RecordStore.exec_fetchServices h hwords (walk.fetchedAt i) (i + 1)
    hsize walk.inverted walk.filter .created
  have hpage : max (i + 1) 1 = i + 1 := by omega
  rw [hpage] at hdata
  exact ⟨_, hdone, hdata⟩

theorem ids_eq {i : Nat} (h : (walk.world start i).store.Consistent)
    (hwords : (walk.world start i).store.records.lastId ≤ maxWord) :
    walk.ids start i = chunk (i + 1) walk.size
      (if walk.inverted then (walk.present (walk.world start i).store).reverse
        else walk.present (walk.world start i).store) := by
  obtain ⟨page, hdone, hdata⟩ := fetch_eq hsize (i := i) h hwords
  rw [ids, hdone]
  change (page.data.map Service.row).map _ = _
  rw [hdata, map_chunk]
  cases walk.inverted with
  | false => rfl
  | true =>
    rw [if_pos rfl, present, ← List.map_reverse]
    rfl

end

/-- The services stay in their places from one fetch to the next; new ones come after them. -/
theorem consistent_world (h : start.store.Consistent)
    (hspare : ∀ i, ∀ step ∈ walk.meanwhile i, step.2.spares = true) (i : Nat) :
    (walk.world start i).store.Consistent ∧
      (walk.world start i).store.records.keys <+:
        (walk.world start (i + 1)).store.records.keys := by
  have hnext : ∀ j, (walk.world start j).store.Consistent →
      (walk.world start (j + 1)).store.Consistent ∧
        (walk.world start j).store.records.keys <+:
          (walk.world start (j + 1)).store.records.keys := by
    intro j hj
    have hspares : (Deed.ask
        (.fetchServices (.of (j + 1) walk.size walk.inverted) walk.filter .created)).spares = true :=
      rfl
    obtain ⟨hfetched, hkeys⟩ := hj.keys_run (walk.fetchedAt j) hspares
    obtain ⟨hlater, hmore⟩ := hfetched.keys_done (hspare j)
    exact ⟨hlater, hkeys.trans hmore⟩
  have hconsistent : ∀ j, (walk.world start j).store.Consistent := by
    intro j
    induction j with
    | zero => exact h
    | succ j ih => exact (hnext j ih).1
  exact ⟨hconsistent i, (hnext i (hconsistent i)).2⟩

theorem present_grows (h : start.store.Consistent)
    (hspare : ∀ i, ∀ step ∈ walk.meanwhile i, step.2.spares = true) (i : Nat) :
    walk.present (walk.world start i).store <+: walk.present (walk.world start (i + 1)).store := by
  obtain ⟨hnow, hkeys⟩ := consistent_world h hspare i
  exact present_prefix hnow (consistent_world h hspare (i + 1)).1 hkeys

/-- A walk over any store that has come about by calls, to its first empty page or beyond, with any
deeds between its pages that neither change nor delete a service.  A forward walk shows services in
the order of their ids, none twice, and each that was there at the start once.  An inverted walk shows
each of those at least once, and every page of it has its ids in descending order. -/
theorem walk_skips_nothing {store : RecordStore} (hnew : store.New)
    (history : List RecordStore.Incident) (owed : Bool) (events : List Event) (walk : Walk)
    (hpos : 0 < walk.size) (hsize : walk.size ≤ maxWord)
    (hspare : ∀ i, ∀ step ∈ walk.meanwhile i, step.2.spares = true) (last : Nat)
    (hwords : ∀ i ≤ last,
      (walk.world ⟨store.after history, owed, events⟩ i).store.records.lastId ≤ maxWord) :
    let start : World RecordStore := ⟨store.after history, owed, events⟩
    (∀ i ≤ last, ∃ page, (walk.fetch i (walk.world start i)).1 = .ok page) ∧
    (walk.inverted = false →
      (walk.shown start last).Pairwise (· < ·) ∧
      (walk.ids start last = [] → ∀ id ∈ walk.present start.store,
        (walk.shown start last).count id = 1)) ∧
    (walk.inverted = true →
      (∀ i ≤ last, (walk.ids start i).Pairwise (· > ·)) ∧
      (walk.ids start last = [] → ∀ id ∈ walk.present start.store,
        id ∈ walk.shown start last)) := by
  intro start
  have hstart : start.store.Consistent := hnew.consistent.after history
  have hconsistent : ∀ i, (walk.world start i).store.Consistent :=
    fun i => (consistent_world hstart hspare i).1
  let lists (i : Nat) : List Int := walk.present (walk.world start i).store
  have hgrows : ∀ i, lists i <+: lists (i + 1) := present_grows hstart hspare
  have hascending : ∀ i, (lists i).Pairwise (· < ·) := fun i => present_ascending (hconsistent i)
  have hids : ∀ i ≤ last, walk.ids start i = chunk (i + 1) walk.size
      (if walk.inverted then (lists i).reverse else lists i) :=
    fun i hi => ids_eq hsize (hconsistent i) (hwords i hi)
  have hshown : walk.shown start last = (List.range last).flatMap fun i =>
      chunk (i + 1) walk.size (if walk.inverted then (lists i).reverse else lists i) := by
    apply List.flatMap_congr
    intro i hi
    exact hids i (List.mem_range.mp hi).le
  refine ⟨?_, ?_, ?_⟩
  · intro i hi
    obtain ⟨page, hdone, -⟩ := fetch_eq hsize (i := i) (hconsistent i) (hwords i hi)
    exact ⟨page, congrArg Prod.fst hdone⟩
  · intro hforward
    simp only [hforward, Bool.false_eq_true, if_false] at hids hshown
    have hsorted : (walk.shown start last).Pairwise (· < ·) := by
      rw [hshown]
      exact (hascending last).sublist
        ((walked_sublist hgrows walk.size last).trans (List.take_sublist _ _))
    refine ⟨hsorted, fun hend id hid => ?_⟩
    have hlength : (lists 0).length ≤ last * walk.size :=
      (prefix_zero hgrows last).length_le.trans
        (length_le_of_chunk_eq_nil hpos ((hids last le_rfl).symm.trans hend))
    have hmem : id ∈ walk.shown start last := by
      rw [hshown]
      apply take_subset_walked hgrows walk.size last
      rw [List.take_of_length_le hlength]
      exact hid
    have hnodup : (walk.shown start last).Nodup := hsorted.imp fun hlt => Int.ne_of_lt hlt
    exact List.count_eq_one_of_mem hnodup hmem
  · intro hback
    simp only [hback, if_true] at hids hshown
    refine ⟨fun i hi => ?_, fun hend id hid => ?_⟩
    · rw [hids i hi]
      have hreversed : (lists i).reverse.Pairwise (· > ·) := List.pairwise_reverse.mpr (hascending i)
      exact hreversed.sublist ((List.take_sublist _ _).trans (List.drop_sublist _ _))
    · have hlength : (lists last).length ≤ last * walk.size := by
        have hchunk := length_le_of_chunk_eq_nil hpos ((hids last le_rfl).symm.trans hend)
        rwa [List.length_reverse] at hchunk
      rw [hshown]
      rcases mem_walked_or_left hgrows walk.size last hid with hmem | hleft
      · exact hmem
      · rw [Nat.sub_eq_zero_of_le hlength, List.take_zero] at hleft
        cases hleft

/-- Pages of two, the last first, and three matching services created after the first page. -/
theorem walk_skips_nothing_past_growth :
    let store := RecordStore.after (.database (Database.prepare {}).2)
      [.call 1 (.insertService "cab" ""), .call 2 (.insertService "b" ""),
        .call 3 (.insertService "bar" "")]
    let walk : Walk :=
      { filter := ⟨"a"⟩
        size := 2
        inverted := true
        fetchedAt := fun i => i
        meanwhile := fun
          | 0 => [(4, .ask (.createService "xa" "")), (5, .ask (.createService "ya" "")),
              (6, .ask (.createService "za" ""))]
          | _ => [] }
    let start : World RecordStore := { store := store }
    walk.present store = [1, 3] ∧ walk.shown start 3 = [3, 1, 4, 3, 1] ∧
      ∀ id ∈ walk.present store, id ∈ walk.shown start 3 := by
  intro store walk start
  have hspare : ∀ i, ∀ step ∈ walk.meanwhile i, step.2.spares = true := by
    intro i
    cases i with
    | zero => decide
    | succ i => exact nofun
  have hwords : ∀ i ≤ 3, (walk.world start i).store.records.lastId ≤ maxWord := by decide
  have hend : walk.ids start 3 = [] := by decide
  have hwalk := walk_skips_nothing .database _ false [] walk (by decide) (by decide) hspare 3 hwords
  exact ⟨by decide, by decide, (hwalk.2.2 rfl).2 hend⟩

end Walk

end ServiceRegistry
