import ServiceRegistry.Proofs.Storage.Records

/-!
# What a store answers after any history of calls

A store lives through calls with any arguments, at any instants of the wall clock, and refreshes may
be made to fail.  It stays consistent throughout, and while it is, every read is answered from the
records that it holds.

* `RecordStore.Consistent.after`: a history keeps a store consistent.
* `RecordStore.Consistent.getService` and the like: the answers to reads, which leave the store as it
  is.
-/

namespace ServiceRegistry.RecordStore

/-- The records that a store holds. -/
def records : RecordStore → Memory
  | memory m => m
  | database db => db.records

/-- The id that a store looks up for an id. -/
def address : RecordStore → Nat → Nat
  | memory _, id => id
  | database _, id => signedId id

@[simp] theorem address_answer (now : Int) (call : Call) (store : RecordStore) :
    (answer now call store).2.address = store.address := by
  cases store <;> rfl

theorem countServices (store : RecordStore) (now : Int) (filter : NameFilter) (source : Source) :
    answer now (.countServices filter source) store =
      (.ok (store.records.matching filter source).length, store) := by
  cases store with
  | memory m => rfl
  | database db =>
    have hlength : (db.records.matching filter source).length = (db.matching filter source).length := by
      rw [← Database.Consistent.matching, List.length_map]
    change (Except.ok (db.matching filter source).length, database db) =
      (Except.ok (db.records.matching filter source).length, database db)
    rw [hlength]

def Consistent : RecordStore → Prop
  | memory m => m.Consistent ∧ m.Arranged
  | database db => db.Consistent

variable {store : RecordStore}

namespace Consistent

theorem records (h : store.Consistent) : store.records.Consistent := by
  cases store with
  | memory m => exact h.1
  | database db => exact Database.Consistent.records h

theorem arranged (h : store.Consistent) : store.records.Arranged := by
  cases store with
  | memory m => exact h.2
  | database db => exact Database.Consistent.arranged h

theorem sound (h : store.Consistent) : store.Sound := by
  cases store with
  | memory m => trivial
  | database db => exact Database.Consistent.undamaged h

theorem rows (h : store.Consistent) (source : Source) :
    store.rows source = (store.records.rows source).map Service.row := by
  cases store with
  | memory m => rfl
  | database db => exact (Database.Consistent.map_row_records h source).symm

/-! ## Reads -/

theorem getService (h : store.Consistent) (now : Int) (id : Nat) :
    answer now (.getService id) store =
      (.ok (store.records.service? (store.address id)), store) := by
  cases store with
  | memory m => rfl
  | database db =>
    simp only [answer, Database.answer, Database.respond, Database.Consistent.loadService h]
    rfl

theorem getVersion (h : store.Consistent) (now : Int) (id : Nat) (tag : String) :
    answer now (.getVersion id tag) store =
      (.ok (store.records.version? (store.address id) tag), store) := by
  cases store with
  | memory m => rfl
  | database db =>
    simp only [answer, Database.answer, Database.respond, Database.Consistent.loadVersion h]
    rfl

theorem countServicesNamed (h : store.Consistent) (now : Int) (name : String)
    (excluding : Option Nat) :
    answer now (.countServicesNamed name excluding) store =
      (.ok (store.records.countServicesNamed name (excluding.map store.address)), store) := by
  cases store with
  | memory m =>
    have hsame : excluding.map (address (memory m)) = excluding := by
      cases excluding <;> rfl
    rw [hsame]
    rfl
  | database db =>
    simp only [answer, Database.answer, Database.respond, Database.Consistent.countServicesNamed h]
    rfl

theorem scanServices (h : store.Consistent) (now : Int) (filter : NameFilter) (source : Source)
    (range : ScanRange) :
    answer now (.scanServices filter source range) store =
      (.ok (range.pick (store.records.matching filter source)), store) := by
  cases store with
  | memory m => rfl
  | database db =>
    simp only [answer, Database.answer, Database.respond, Database.Consistent.scanServices h]
    rfl

theorem countVersions (h : store.Consistent) (now : Int) (id : Nat) :
    answer now (.countVersions id) store =
      (.ok (store.records.versionsOf (store.address id)).length, store) := by
  cases store with
  | memory m => rfl
  | database db =>
    simp only [answer, Database.answer, Database.respond, Database.Consistent.length_versionsOf h]
    rfl

theorem scanVersions (h : store.Consistent) (now : Int) (id : Nat) (range : ScanRange) :
    answer now (.scanVersions id range) store =
      (.ok (range.pick (store.records.versionsOf (store.address id))), store) := by
  cases store with
  | memory m => rfl
  | database db =>
    simp only [answer, Database.answer, Database.respond, Database.Consistent.scanVersions h]
    rfl

/-- A version that is deleted was there, and is deleted from the records. -/
theorem deleteVersion_true (h : store.Consistent) {now : Int} {id : Nat} {tag : String}
    (htrue : (answer now (.deleteVersion id tag) store).1 = .ok true) :
    (∃ v, store.records.version? (store.address id) tag = some v) ∧
      (answer now (.deleteVersion id tag) store).2.records =
        (store.records.deleteVersion now (store.address id) tag).2 := by
  cases store with
  | memory m =>
    refine ⟨Option.ne_none_iff_exists'.mp fun hnone => ?_, rfl⟩
    have hversion : m.version? id tag = none := hnone
    simp [RecordStore.answer, Memory.answer, Memory.deleteVersion, hversion] at htrue
  | database db =>
    obtain ⟨row, hrow⟩ : ∃ row, db.versionRow? id tag = some row := by
      refine Option.ne_none_iff_exists'.mp fun hnone => ?_
      simp [RecordStore.answer, Database.answer, Database.respond, Database.deleteVersion, hnone,
        Except.mapError] at htrue
    have hversion := Database.Consistent.versionRow? h id tag
    rw [hrow] at hversion
    exact ⟨⟨_, hversion.symm⟩, Database.Consistent.records_deleteVersion_some h now hrow⟩

/-! ## Histories -/

theorem answer (h : store.Consistent) (now : Int) (call : Call) :
    (RecordStore.answer now call store).2.Consistent := by
  cases store with
  | memory m => exact ⟨h.1.answer now call, h.2.answer h.1 now call⟩
  | database db => exact Database.Consistent.respond h now call

theorem failNext (h : store.Consistent) (count : Nat) : (store.failNext count).Consistent := by
  cases store with
  | memory m =>
    obtain ⟨⟨hascending, hgiven, hnames, htags, howned, hcounted⟩, harranged⟩ := h
    exact ⟨⟨hascending, hgiven, hnames, htags, howned, hcounted⟩,
      ⟨harranged.names, harranged.ids, harranged.given⟩⟩
  | database db => exact h

end Consistent

theorem New.consistent (h : store.New) : store.Consistent := by
  cases h with
  | memory => exact ⟨Memory.consistent_of_new, .nil, .nil, nofun⟩
  | database => exact Database.consistent_of_new

/-- What happens to a store: a call at an instant of the wall clock, or the order to fail the next
refreshes. -/
inductive Incident
  | call (now : Int) (call : Call)
  | failNext (count : Nat)
deriving DecidableEq

def undergo (store : RecordStore) : Incident → RecordStore
  | .call now call => (answer now call store).2
  | .failNext count => store.failNext count

def after (store : RecordStore) (history : List Incident) : RecordStore :=
  history.foldl undergo store

theorem Consistent.undergo (h : store.Consistent) (incident : Incident) :
    (store.undergo incident).Consistent := by
  cases incident with
  | call now call => exact h.answer now call
  | failNext count => exact h.failNext count

theorem Consistent.after (h : store.Consistent) (history : List Incident) :
    (store.after history).Consistent := by
  induction history generalizing store with
  | nil => exact h
  | cons incident rest ih => exact ih (h.undergo incident)

end ServiceRegistry.RecordStore
