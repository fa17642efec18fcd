import ServiceRegistry.Listing
import ServiceRegistry.Word

/-!
# Pages as scan ranges

A page of a listing is turned into a range of rows of its ascending source.  Forward pages count
from the front; inverted pages count from the back, so the last rows come first and the fetched
slice is reversed before it is shown.

The arithmetic runs on signed numbers of 128 bits and saturates there; offsets and limits are
clamped to words.
-/

namespace ServiceRegistry

/-- The largest number of the signed arithmetic in which windows are computed. -/
def maxWide : Int := 170141183460469231731687303715884105727

/-- The smallest number of that arithmetic. -/
def minWide : Int := -170141183460469231731687303715884105728

/-- Saturation at the ends of the signed arithmetic. -/
def saturateWide (n : Int) : Int := max minWide (min n maxWide)

def clampWord (n : Int) : Nat := (min (max n 0) (maxWord : Int)).toNat

/-- The rows that a page asks of its source. -/
structure PageWindow where
  /-- Rows skipped at the front of the ascending source. -/
  offset : Nat
  /-- The most rows fetched. -/
  limit : Nat
  /-- The fetched rows are reversed before they are shown. -/
  needsReverse : Bool
  /-- The page holds no rows and nothing is fetched. -/
  isEmpty : Bool
deriving DecidableEq, Repr, Inhabited

namespace PageWindow

def empty : PageWindow := ⟨0, 0, false, true⟩

/-- The window of a forward page: pages past the end are left to the source. -/
def forward (page size : Nat) : PageWindow :=
  ⟨clampWord (saturateWide (((page : Int) - 1) * size)), size, false, false⟩

/-- The window of an inverted page.  A negative offset means that the page reaches the front of the
source; it has rows only if it is the leading, possibly partial, page. -/
def inverted (page size total : Nat) : PageWindow :=
  let offset := saturateWide ((total : Int) - saturateWide ((page : Int) * size))
  if offset < 0 then
    let limit := (total : Int) % size
    if offset < limit - size ∨ limit = 0 then empty
    else ⟨0, clampWord limit, true, false⟩
  else ⟨clampWord offset, size, true, false⟩

/-- The window of a page of `size` rows over `total` rows; page 0 is read as page 1. -/
def compute (page size total : Nat) (invert : Bool) : PageWindow :=
  if size = 0 then empty
  else if invert then inverted (max page 1) size total
  else forward (max page 1) size

def scanRange (window : PageWindow) : ScanRange := ⟨window.offset, window.limit⟩

/-- Fetched rows in the order in which they are shown. -/
def present (window : PageWindow) (rows : List α) : List α :=
  if window.needsReverse then rows.reverse else rows

/-- The rows of a complete source that the window shows. -/
def rows (window : PageWindow) (source : List α) : List α :=
  if window.isEmpty then [] else window.present (window.scanRange.pick source)

theorem present_nil (window : PageWindow) : window.present ([] : List α) = [] := ite_self []

theorem rows_of_isEmpty {window : PageWindow} (h : window.isEmpty = true) (source : List α) :
    window.rows source = [] :=
  if_pos h

theorem rows_of_not_isEmpty {window : PageWindow} (h : window.isEmpty = false) (source : List α) :
    window.rows source = window.present (window.scanRange.pick source) :=
  if_neg (ne_true_of_eq_false h)

end PageWindow

structure PageRequest where
  currentPage : Nat
  pageSize : Nat
  inverted : Bool
deriving DecidableEq, Repr, Inhabited

namespace PageRequest

/-- A request whose page number counts from 1; page 0 becomes page 1. -/
def of (currentPage pageSize : Nat) (inverted : Bool) : PageRequest :=
  ⟨max currentPage 1, pageSize, inverted⟩

def window (request : PageRequest) (total : Nat) : PageWindow :=
  .compute request.currentPage request.pageSize total request.inverted

end PageRequest

end ServiceRegistry
