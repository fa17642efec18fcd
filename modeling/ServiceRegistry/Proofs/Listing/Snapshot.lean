import ServiceRegistry.Proofs.Listing.Pages
import ServiceRegistry.Proofs.Storage.Unreliable

/-!
# The sorted view as a snapshot

The sorted view of a store is a sorted copy of its table, and only a refresh that succeeds makes a new
one.  Between two of them the table goes its own way: whatever is created, renamed, deleted or counted
there, the view is read as it was.  So the pages of a listing by name belong together as long as no
refresh comes between them.

* `RecordStore.lastRefreshed` is the table at the last refresh that succeeded.
* `RecordStore.view_through`: the sorted view is these rows in their order.
* `RecordStore.view_is_snapshot`: how the view is read after any run, and how it is browsed.
-/

namespace ServiceRegistry

/-- The services whose names contain the term. -/
def NameFilter.among (filter : NameFilter) (services : List Service) : List Service :=
  services.filter fun s => decide (filter.term.toList <:+: s.name.toList)

theorem NameFilter.among_view (filter : NameFilter) (m : Memory) :
    filter.among m.view = m.matching filter .sortedView := by
  apply List.filter_congr
  intro s _
  rw [Bool.eq_iff_iff, decide_eq_true_eq, filter.holds_iff]

namespace RecordStore

/-- A turn in the life of a store: a call, and the fault that it meets if it fails before it reaches
the store, or the order to fail the next refreshes. -/
inductive Turn
  | call (now : Int) (call : Call) (lost : Option Fault)
  | failNext (count : Nat)
deriving DecidableEq

/-- The answer to a call that may fail before it reaches the store. -/
def attempt (store : RecordStore) (now : Int) (call : Call) (lost : Option Fault) :
    Reply call.method × RecordStore :=
  let (reply, after) := Unreliable.answer (answer now) call ⟨store, [lost]⟩
  (reply, after.inner)

/-- The store after a turn. -/
def meet (store : RecordStore) : Turn → RecordStore
  | .call now call lost => (store.attempt now call lost).2
  | .failNext count => store.failNext count

/-- Whether the turn is a refresh that succeeds. -/
def refreshedBy (store : RecordStore) : Turn → Bool
  | .call now .refreshView lost => (store.attempt now .refreshView lost).1.isOk
  | _ => false

def through (store : RecordStore) (turns : List Turn) : RecordStore := turns.foldl meet store

/-- Whether a refresh of the run succeeds. -/
def refreshed (store : RecordStore) : List Turn → Bool
  | [] => false
  | turn :: rest => store.refreshedBy turn || (store.meet turn).refreshed rest

/-- The rows of the table at the last refresh of a run that succeeds, or `seen` if none does. -/
def lastRefreshed (seen : List ServiceRow) (store : RecordStore) : List Turn → List ServiceRow
  | [] => seen
  | turn :: rest =>
    (store.meet turn).lastRefreshed (if store.refreshedBy turn then store.rows .table else seen) rest

variable {store : RecordStore}

/-! ## What a turn does to the view -/

theorem attempt_cases (store : RecordStore) (now : Int) (call : Call) (lost : Option Fault) :
    ((∃ fault, (store.attempt now call lost).1 = .error fault) ∧
      (store.attempt now call lost).2 = store) ∨
    store.attempt now call lost = answer now call store := by
  rcases Unreliable.answer_cases (answer now) call ⟨store, [lost]⟩ with
    ⟨fault, hfault, hstore⟩ | ⟨hreply, hstore⟩
  · exact Or.inl ⟨⟨fault, hfault⟩, hstore⟩
  · exact Or.inr (Prod.ext hreply hstore)

/-- A refresh that succeeds takes the rows of the table, and one that fails leaves the view. -/
theorem rows_view_refresh (now : Int) (store : RecordStore) :
    (answer now .refreshView store).2.rows .sortedView =
      if (answer now .refreshView store).1.isOk then Database.sorted (store.rows .table)
      else store.rows .sortedView := by
  cases store with
  | memory m =>
    simp only [answer, Memory.answer, Memory.refreshView]
    split
    · rfl
    · exact Memory.row_sorted _
  | database db => rfl

theorem rows_view_meet {seen : List ServiceRow}
    (h : store.rows .sortedView = Database.sorted seen) (turn : Turn) :
    (store.meet turn).rows .sortedView =
      Database.sorted (if store.refreshedBy turn then store.rows .table else seen) := by
  cases turn with
  | failNext count =>
    cases store with
    | memory m => exact h
    | database db => exact h
  | call now call lost =>
    rcases store.attempt_cases now call lost with ⟨⟨fault, hfault⟩, hstore⟩ | hreached
    · have hstill : store.refreshedBy (.call now call lost) = false := by
        cases call with
        | refreshView => simp [refreshedBy, hfault, Except.isOk, Except.toBool]
        | _ => rfl
      simp only [meet, hstore, hstill, Bool.false_eq_true, if_false]
      exact h
    · by_cases hrefresh : call = .refreshView
      · subst hrefresh
        simp only [meet, refreshedBy, hreached]
        rw [rows_view_refresh, h]
        split <;> rfl
      · have hstill : store.refreshedBy (.call now call lost) = false := by
          cases call with
          | refreshView => exact absurd rfl hrefresh
          | _ => rfl
        simp only [meet, hreached, hstill, Bool.false_eq_true, if_false]
        rw [rows_view_answer now hrefresh, h]

/-- The sorted view is the table at the last refresh that succeeded, in its order. -/
theorem view_through {seen : List ServiceRow} (h : store.rows .sortedView = Database.sorted seen)
    (turns : List Turn) :
    (store.through turns).rows .sortedView = Database.sorted (store.lastRefreshed seen turns) := by
  induction turns generalizing store seen with
  | nil => exact h
  | cons turn rest ih => exact ih (rows_view_meet h turn)

theorem lastRefreshed_of_not_refreshed {turns : List Turn} (h : store.refreshed turns = false)
    (seen : List ServiceRow) : store.lastRefreshed seen turns = seen := by
  induction turns generalizing store with
  | nil => rfl
  | cons turn rest ih =>
    simp only [refreshed, Bool.or_eq_false_iff] at h
    simp only [lastRefreshed, h.1, Bool.false_eq_true, if_false]
    exact ih h.2

theorem rows_view_of_not_refreshed {turns : List Turn} {seen : List ServiceRow}
    (hview : store.rows .sortedView = Database.sorted seen) (h : store.refreshed turns = false) :
    (store.through turns).rows .sortedView = store.rows .sortedView := by
  rw [view_through hview, lastRefreshed_of_not_refreshed h, hview]

theorem New.view_empty (h : store.New) : store.rows .sortedView = Database.sorted [] := by
  cases h with
  | memory => exact List.mergeSort_nil.symm
  | database => exact List.mergeSort_nil.symm

namespace Consistent

theorem meet (h : store.Consistent) (turn : Turn) : (store.meet turn).Consistent := by
  cases turn with
  | failNext count => exact h.failNext count
  | call now call lost =>
    simp only [RecordStore.meet]
    rcases store.attempt_cases now call lost with ⟨-, hstore⟩ | hreached
    · rw [hstore]
      exact h
    · rw [hreached]
      exact h.answer now call

theorem through (h : store.Consistent) (turns : List Turn) : (store.through turns).Consistent := by
  induction turns generalizing store with
  | nil => exact h
  | cons turn rest ih => exact ih (h.meet turn)

end Consistent

/-! ## Browsing by name -/

end RecordStore

open Operation

/-- A walk through a listing by name: page `i + 1` is fetched at the instant `fetchedAt i`, and
`meanwhile i` is what the store goes through before the next page. -/
structure Browse where
  filter : NameFilter
  size : Nat
  inverted : Bool
  fetchedAt : Nat → Int
  meanwhile : Nat → List RecordStore.Turn

namespace Browse

def fetch (browse : Browse) (i : Nat) (world : World RecordStore) :
    Except Refusal (Page Service) × World RecordStore :=
  exec (RecordStore.answer (browse.fetchedAt i))
    (fetchServices (.of (i + 1) browse.size browse.inverted) browse.filter .name) world

/-- The world in which page `i + 1` is fetched. -/
def world (browse : Browse) (start : World RecordStore) : Nat → World RecordStore
  | 0 => start
  | i + 1 =>
    let fetched := (browse.fetch i (browse.world start i)).2
    { fetched with store := fetched.store.through (browse.meanwhile i) }

/-- No refresh succeeds between two pages. -/
def Undisturbed (browse : Browse) (start : World RecordStore) : Prop :=
  ∀ i, (browse.fetch i (browse.world start i)).2.store.refreshed (browse.meanwhile i) = false

/-- The rows that the first pages show, one page after the other. -/
def shown (browse : Browse) (start : World RecordStore) (pages : Nat) : List ServiceRow :=
  (List.range pages).flatMap fun i => RecordStore.shown (browse.fetch i (browse.world start i)).1

/-- The rows that are browsed: those of the sorted view whose names contain the term, the last first if
the listing is inverted. -/
def list (browse : Browse) (store : RecordStore) : List ServiceRow :=
  store.presented browse.filter .name browse.inverted

variable {browse : Browse} {start : World RecordStore}

theorem list_congr {store later : RecordStore} (h : later.rows .sortedView = store.rows .sortedView) :
    browse.list later = browse.list store := by
  simp only [list, RecordStore.presented, SortKey.source, h]

theorem fetch_eq {i : Nat} {world : World RecordStore} (h : world.store.Consistent)
    (hsize : browse.size ≤ maxWord) (hcount : (world.store.rows .sortedView).length ≤ maxWord) :
    ∃ page, browse.fetch i world = (.ok page, world) ∧
      page.data.map Service.row = chunk (i + 1) browse.size (browse.list world.store) := by
  have hmatching : (world.store.records.matching browse.filter .sortedView).length ≤ maxWord := by
    rw [h.rows, List.length_map] at hcount
    exact (List.length_filter_le _ _).trans hcount
  obtain ⟨data, hdone, hdata⟩ := RecordStore.exec_fetchServices_of_length h browse.filter .name
    hmatching (browse.fetchedAt i) (i + 1) hsize browse.inverted
  have hpage : max (i + 1) 1 = i + 1 := by omega
  rw [hpage] at hdata
  exact ⟨_, hdone, hdata⟩

/-- The view is the same for every page, and every page is fetched. -/
theorem world_spec {seen : List ServiceRow} (h : start.store.Consistent)
    (hview : start.store.rows .sortedView = Database.sorted seen) (hsize : browse.size ≤ maxWord)
    (hcount : seen.length ≤ maxWord) (hquiet : browse.Undisturbed start) (i : Nat) :
    (browse.world start i).store.Consistent ∧
      (browse.world start i).store.rows .sortedView = Database.sorted seen ∧
      ∃ page, browse.fetch i (browse.world start i) = (.ok page, browse.world start i) ∧
        page.data.map Service.row = chunk (i + 1) browse.size (browse.list start.store) := by
  have hpage : ∀ i, (browse.world start i).store.Consistent →
      (browse.world start i).store.rows .sortedView = Database.sorted seen →
      ∃ page, browse.fetch i (browse.world start i) = (.ok page, browse.world start i) ∧
        page.data.map Service.row = chunk (i + 1) browse.size (browse.list start.store) := by
    intro i hconsistent hrows
    rw [← list_congr (hrows.trans hview.symm)]
    refine fetch_eq hconsistent hsize ?_
    rw [hrows, (Database.sorted_perm seen).length_eq]
    exact hcount
  induction i with
  | zero => exact ⟨h, hview, hpage 0 h hview⟩
  | succ i ih =>
    obtain ⟨hconsistent, hrows, page, hdone, -⟩ := ih
    have hstill := hquiet i
    have hworld : (browse.world start (i + 1)).store =
        (browse.world start i).store.through (browse.meanwhile i) := by
      rw [world, hdone]
    rw [hdone] at hstill
    have hnext := hconsistent.through (browse.meanwhile i)
    have hsame := RecordStore.rows_view_of_not_refreshed hrows hstill
    rw [← hworld] at hnext hsame
    exact ⟨hnext, hsame.trans hrows, hpage (i + 1) hnext (hsame.trans hrows)⟩

/-- The pages show the whole list, each row of it once and in order. -/
theorem shown_eq {seen : List ServiceRow} (h : start.store.Consistent)
    (hview : start.store.rows .sortedView = Database.sorted seen) (hpos : 0 < browse.size)
    (hsize : browse.size ≤ maxWord) (hcount : seen.length ≤ maxWord)
    (hquiet : browse.Undisturbed start) :
    browse.shown start (pagesFor browse.size (browse.list start.store).length) =
      browse.list start.store := by
  have hpages : ∀ i, RecordStore.shown (browse.fetch i (browse.world start i)).1 =
      chunk (i + 1) browse.size (browse.list start.store) := by
    intro i
    obtain ⟨-, -, page, hdone, hdata⟩ := world_spec h hview hsize hcount hquiet i
    rw [hdone]
    exact hdata
  have hchunks := chunks_flatten hpos (browse.list start.store)
  rw [List.range'_eq_map_range, List.flatMap_map] at hchunks
  rw [shown]
  refine (List.flatMap_congr fun i _ => ?_).trans hchunks
  rw [hpages, Nat.add_comm]

end Browse

namespace RecordStore

/-- After any run on a new store, with calls that fail on the way and refreshes that fail, there is one
list of services: the rows of the table at the last refresh that succeeded, all columns as they were
then, in the order of names and ids.  From it the sorted view is counted and scanned, and its pages are
fetched, all of them from the same list as long as no refresh succeeds between them. -/
theorem view_is_snapshot {store : RecordStore} (hnew : store.New) (run : List Turn) :
    ∃ snapshot : List Service,
      let later := store.through run
      (snapshot.map Service.row).Perm (store.lastRefreshed [] run) ∧
      (snapshot.map Service.row).Pairwise ServiceRow.Precedes ∧
      (snapshot.map (·.id)).Nodup ∧
      (∀ now filter, answer now (.countServices filter .sortedView) later =
        (.ok (filter.among snapshot).length, later)) ∧
      (∀ now filter range, answer now (.scanServices filter .sortedView range) later =
        (.ok (range.pick (filter.among snapshot)), later)) ∧
      (snapshot.length ≤ maxWord → ∀ (browse : Browse) (owed : Bool) (events : List Event),
        0 < browse.size → browse.size ≤ maxWord →
        let start : World RecordStore := ⟨later, owed, events⟩
        browse.Undisturbed start →
        let list := browse.filter.among snapshot
        (∀ i, ∃ page, (browse.fetch i (browse.world start i)).1 = .ok page) ∧
        browse.shown start (pagesFor browse.size list.length) =
          (if browse.inverted then list.reverse else list).map Service.row) := by
  have hconsistent : (store.through run).Consistent := hnew.consistent.through run
  have hview := view_through hnew.view_empty run
  have hrows : (store.through run).records.view.map Service.row =
      Database.sorted (store.lastRefreshed [] run) := (hconsistent.rows .sortedView).symm.trans hview
  refine ⟨(store.through run).records.view, ?_, ?_, hconsistent.arranged.ids, fun now filter => ?_,
    fun now filter range => ?_, ?_⟩
  · rw [hrows]
    exact Database.sorted_perm _
  · rw [hrows]
    exact Database.sorted_pairwise _
  · rw [NameFilter.among_view]
    exact countServices _ now filter .sortedView
  · rw [NameFilter.among_view]
    exact hconsistent.scanServices now filter .sortedView range
  · intro hcount browse owed events hpos hsize start hquiet list
    have hseen : (store.lastRefreshed [] run).length ≤ maxWord := by
      rw [← (Database.sorted_perm _).length_eq, ← hrows, List.length_map]
      exact hcount
    have hlist : browse.list start.store =
        (if browse.inverted then list.reverse else list).map Service.row := by
      rw [Browse.list, hconsistent.presented_eq]
      simp only [list, NameFilter.among_view, SortKey.source]
    have hlength : (browse.list start.store).length = list.length := by
      rw [hlist, List.length_map]
      split
      · exact List.length_reverse
      · rfl
    refine ⟨fun i => ?_, ?_⟩
    · obtain ⟨-, -, page, hdone, -⟩ := Browse.world_spec hconsistent hview hsize hseen hquiet i
      exact ⟨page, congrArg Prod.fst hdone⟩
    · rw [← hlist, ← hlength]
      exact Browse.shown_eq hconsistent hview hpos hsize hseen hquiet

/-- Two services are refreshed, one is renamed and the other deleted while the pages are fetched, and
two refreshes fail: one that the store is told to fail, and one that does not reach it. -/
theorem view_is_snapshot_past_writes :
    let run : List Turn :=
      [.call 1 (.insertService "b" "") none, .call 2 (.insertService "a" "") none,
        .call 3 .refreshView none, .call 4 (.insertService "c" "") none, .failNext 1,
        .call 5 .refreshView none]
    let browse : Browse :=
      { filter := ⟨""⟩
        size := 1
        inverted := true
        fetchedAt := fun i => i
        meanwhile := fun
          | 0 => [.call 6 (.updateService 2 "z" "") none, .call 7 (.deleteService 1) none,
              .call 8 .refreshView (some ⟨.io, "disk I/O error"⟩)]
          | _ => [] }
    let start : World RecordStore := { store := through (.memory {}) run }
    ∃ snapshot : List Service,
      (snapshot.map Service.row).Perm [⟨1, "b", "", 0, 1, 1⟩, ⟨2, "a", "", 0, 2, 2⟩] ∧
      (snapshot.map Service.row).Pairwise ServiceRow.Precedes ∧
      browse.shown start 2 = snapshot.reverse.map Service.row := by
  intro run browse start
  have hseen : lastRefreshed [] (.memory {}) run =
      [⟨1, "b", "", 0, 1, 1⟩, ⟨2, "a", "", 0, 2, 2⟩] := by decide
  have hquiet : browse.Undisturbed start := by
    intro i
    cases i with
    | zero => decide
    | succ i => rfl
  obtain ⟨snapshot, hperm, hordered, -, -, -, hbrowse⟩ := view_is_snapshot .memory run
  rw [hseen] at hperm
  have hlength : snapshot.length = 2 := by simpa using hperm.length_eq
  have hall : browse.filter.among snapshot = snapshot :=
    List.filter_eq_self.mpr fun s _ => by simp [browse]
  have hfew : snapshot.length ≤ maxWord := by
    rw [hlength]
    decide
  have hshown := (hbrowse hfew browse false [] (by decide) (by decide) hquiet).2
  have hpages : pagesFor browse.size 2 = 2 := by decide
  rw [hall, hlength, hpages, if_pos rfl] at hshown
  exact ⟨snapshot, hperm, hordered, hshown⟩

end RecordStore

end ServiceRegistry
