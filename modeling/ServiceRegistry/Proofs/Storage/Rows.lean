import Mathlib.Data.String.Basic
import ServiceRegistry.Storage.RecordStore

/-!
# Table and sorted view

The rows that a store keeps of its two sources, in one form for both stores, and when the sorted
view is current: it holds the rows of the table, all columns of them, by name and id.

* `Memory.row_sorted`: sorting services and sorting their rows is the same.
* `Database.sorted_perm`, `Database.sorted_pairwise`: what the order of the sorted view is.
-/

namespace ServiceRegistry

/-- A service as a row. -/
def Service.row (s : Service) : ServiceRow :=
  ⟨s.id, s.name, s.description, s.versionCount, s.createdAt, s.updatedAt⟩

/-- The order by name, and by id between equal names. -/
def ServiceRow.Precedes (a b : ServiceRow) : Prop :=
  a.name < b.name ∨ a.name = b.name ∧ a.id ≤ b.id

namespace RecordStore

/-- The rows of a source. -/
def rows (source : Source) : RecordStore → List ServiceRow
  | memory records => (records.rows source).map Service.row
  | database tables => tables.rows source

/-- The sorted view holds exactly the rows of the table, in the order of names and ids. -/
structure Current (store : RecordStore) : Prop where
  same : (store.rows .sortedView).Perm (store.rows .table)
  ordered : (store.rows .sortedView).Pairwise ServiceRow.Precedes

end RecordStore

/-! ## The order of the sorted view -/

theorem listingOrder_iff {a b : ServiceRow} :
    listingOrder a.name a.id b.name b.id = true ↔ a.Precedes b := by
  unfold listingOrder ServiceRow.Precedes
  rw [Bool.or_eq_true, Bool.and_eq_true, decide_eq_true_eq, decide_eq_true_eq, beq_iff_eq]

theorem ServiceRow.Precedes.trans {a b c : ServiceRow} (hab : a.Precedes b) (hbc : b.Precedes c) :
    a.Precedes c := by
  rcases hab with hab | ⟨hab, hid⟩
  · rcases hbc with hbc | ⟨hbc, -⟩
    · exact Or.inl (lt_trans hab hbc)
    · exact Or.inl (hbc ▸ hab)
  · rcases hbc with hbc | ⟨hbc, hid'⟩
    · exact Or.inl (hab ▸ hbc)
    · exact Or.inr ⟨hab.trans hbc, le_trans hid hid'⟩

theorem ServiceRow.Precedes.total (a b : ServiceRow) : a.Precedes b ∨ b.Precedes a := by
  rcases lt_trichotomy a.name b.name with h | h | h
  · exact Or.inl (Or.inl h)
  · rcases le_total a.id b.id with hid | hid
    · exact Or.inl (Or.inr ⟨h, hid⟩)
    · exact Or.inr (Or.inr ⟨h.symm, hid⟩)
  · exact Or.inr (Or.inl h)

namespace Database

theorem sorted_perm (rows : List ServiceRow) : (sorted rows).Perm rows :=
  List.mergeSort_perm _ _

theorem sorted_pairwise (rows : List ServiceRow) : (sorted rows).Pairwise ServiceRow.Precedes := by
  refine (List.pairwise_mergeSort ?_ ?_ rows).imp listingOrder_iff.mp
  · intro a b c hab hbc
    exact listingOrder_iff.mpr ((listingOrder_iff.mp hab).trans (listingOrder_iff.mp hbc))
  · intro a b
    rw [Bool.or_eq_true, listingOrder_iff, listingOrder_iff]
    exact ServiceRow.Precedes.total a b

end Database

/-- Services are sorted as their rows are. -/
theorem Memory.row_sorted (services : List Service) :
    (Memory.sorted services).map Service.row = Database.sorted (services.map Service.row) :=
  List.map_mergeSort fun _ _ _ _ => rfl

theorem RecordStore.Current.of_sorted {store : RecordStore}
    (h : store.rows .sortedView = Database.sorted (store.rows .table)) : store.Current :=
  ⟨h ▸ Database.sorted_perm _, h ▸ Database.sorted_pairwise _⟩

end ServiceRegistry
