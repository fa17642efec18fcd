import ServiceRegistry.Record
import ServiceRegistry.Word

/-!
# Listings

Services are listed from one of two sources: the table itself, in the order of creation, or a
snapshot of it sorted by name.  A filter keeps the names that contain a term, and a scan range picks
consecutive rows of what is left.

* `listingOrder` is the order of the snapshot: by name, code point by code point, then by id.
* `NameFilter.holds_iff` says what a filter keeps.
-/

namespace ServiceRegistry

/-- Where the rows of a listing come from. -/
inductive Source
  | table
  | sortedView
deriving DecidableEq, Repr, Inhabited

def Source.label : Source → String
  | .table => "table"
  | .sortedView => "sorted_view"

/-- The order in which a listing is presented. -/
inductive SortKey
  | created
  | name
deriving DecidableEq, Repr, Inhabited

/-- Creation order is the table's own; the order by name is the snapshot's. -/
def SortKey.source : SortKey → Source
  | .created => .table
  | .name => .sortedView

/-- Keeps the services whose name contains the term; the empty term keeps all. -/
structure NameFilter where
  term : String := ""
deriving DecidableEq, Repr, Inhabited

/-- Whether `run` occurs in a list as consecutive elements. -/
def occursIn [BEq α] (run : List α) : List α → Bool
  | [] => run.isEmpty
  | x :: xs => run.isPrefixOf (x :: xs) || occursIn run xs

theorem occursIn_iff [DecidableEq α] (run xs : List α) : occursIn run xs = true ↔ run <:+: xs := by
  induction xs with
  | nil => simp [occursIn]
  | cons x xs ih =>
    rw [occursIn, Bool.or_eq_true, ih, List.isPrefixOf_iff_prefix, List.infix_cons_iff]

/-- Whether a name passes the filter; upper and lower case differ. -/
def NameFilter.holds (filter : NameFilter) (name : String) : Bool :=
  occursIn filter.term.toList name.toList

/-- A name passes exactly when the term is a run of its characters. -/
theorem NameFilter.holds_iff (filter : NameFilter) (name : String) :
    filter.holds name = true ↔ filter.term.toList <:+: name.toList :=
  occursIn_iff _ _

/-- Consecutive rows of a source: `offset` rows are skipped and at most `limit` taken. -/
structure ScanRange where
  offset : Nat
  limit : Nat
deriving DecidableEq, Repr, Inhabited

/-- The rows that a scan range picks. -/
def ScanRange.pick (range : ScanRange) (rows : List α) : List α :=
  (rows.drop range.offset).take range.limit

def ScanRange.all : ScanRange := ⟨0, maxWord⟩

/-- The order by name, and by id between services of one name. -/
def listingOrder (name₁ : String) (id₁ : Int) (name₂ : String) (id₂ : Int) : Bool :=
  decide (name₁ < name₂) || (name₁ == name₂ && decide (id₁ ≤ id₂))

end ServiceRegistry
