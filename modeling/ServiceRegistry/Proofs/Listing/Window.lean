import Mathlib.Data.Int.ModEq
import Mathlib.Data.List.Basic
import ServiceRegistry.Paging

/-!
# Windows and chunks

The chunk of a page is a piece of the list as it is presented: as many rows as a page has, after those
of the pages before it.  A window is computed from the number of rows alone, in arithmetic that
saturates, and counts from the other end if the listing is inverted.  For sizes and lists that fit in
words it nevertheless picks the chunk.

* `PageWindow.rows_compute`: the rows of a window are the chunk of the page.
* `chunks_flatten` and `chunk_past`: the chunks of the pages that there are make up the list, and all
  later ones are empty.
-/

namespace ServiceRegistry

/-! ## Chunks -/

/-- The rows of a page, the first page being page 1. -/
def chunk (page size : Nat) (rows : List α) : List α :=
  (rows.drop ((page - 1) * size)).take size

/-- How many pages it takes to show some rows. -/
def pagesFor (size total : Nat) : Nat := (total + size - 1) / size

theorem pagesFor_le_iff {size total pages : Nat} (hsize : 0 < size) :
    pagesFor size total ≤ pages ↔ total ≤ pages * size := by
  rw [pagesFor, ← Nat.lt_succ_iff, Nat.div_lt_iff_lt_mul hsize, Nat.succ_mul]
  omega

theorem chunk_past {size page : Nat} {rows : List α} (hsize : 0 < size)
    (hpage : pagesFor size rows.length < page) : chunk page size rows = [] := by
  have hlength : rows.length ≤ (page - 1) * size :=
    (pagesFor_le_iff hsize).mp (by omega)
  rw [chunk, List.drop_eq_nil_of_le hlength, List.take_nil]

/-- The first chunks, one after another, are the first rows. -/
theorem chunks_take (size pages : Nat) (rows : List α) :
    (List.range' 1 pages).flatMap (fun page => chunk page size rows) =
      rows.take (pages * size) := by
  induction pages with
  | zero => simp
  | succ pages ih =>
    have hchunk : chunk (1 + pages) size rows = (rows.drop (pages * size)).take size := by
      rw [chunk, Nat.add_sub_cancel_left]
    rw [List.range'_1_concat, List.flatMap_append, ih, List.flatMap_singleton, hchunk,
      Nat.succ_mul, List.take_add]

/-- All chunks, one after another, are the rows. -/
theorem chunks_flatten {size : Nat} (hsize : 0 < size) (rows : List α) :
    (List.range' 1 (pagesFor size rows.length)).flatMap (fun page => chunk page size rows) =
      rows := by
  rw [chunks_take]
  exact List.take_of_length_le ((pagesFor_le_iff hsize).mp le_rfl)

/-- A chunk of a list from its end: between its rows and the front of the list are those that are left
over. -/
theorem chunk_reverse (page size : Nat) (rows : List α) :
    chunk page size rows.reverse =
      ((rows.take (rows.length - (page - 1) * size)).drop
        (rows.length - (page - 1) * size - size)).reverse := by
  rw [chunk, List.drop_reverse, List.take_reverse, List.length_take, Nat.min_eq_left (Nat.sub_le _ _)]

/-! ## Saturation -/

theorem saturateWide_of_le {n : Int} (hlow : minWide ≤ n) (hhigh : n ≤ maxWide) :
    saturateWide n = n := by
  unfold saturateWide
  omega

theorem saturateWide_of_word {n : Nat} (h : n ≤ maxWord) : saturateWide n = n := by
  have hwide : (maxWord : Int) ≤ maxWide := by decide
  apply saturateWide_of_le
  · unfold minWide
    omega
  · omega

theorem clampWord_of_le {n : Nat} (h : n ≤ maxWord) : clampWord n = n := by
  unfold clampWord
  omega

/-- An offset that leaves the words is past every list that fits in them. -/
theorem drop_clampWord {rows : List α} (hrows : rows.length ≤ maxWord) (n : Nat) :
    rows.drop (clampWord (saturateWide n)) = rows.drop n := by
  by_cases hn : n ≤ maxWord
  · rw [saturateWide_of_word hn, clampWord_of_le hn]
  · have hclamped : clampWord (saturateWide n) = maxWord := by
      unfold clampWord saturateWide maxWide minWide maxWord at *
      omega
    rw [hclamped, List.drop_eq_nil_of_le hrows, List.drop_eq_nil_of_le (by omega)]

namespace PageWindow

theorem rows_empty (source : List α) : empty.rows source = [] := rfl

theorem rows_forward {page : Nat} (hpage : 0 < page) (size : Nat) {source : List α}
    (hsource : source.length ≤ maxWord) : (forward page size).rows source = chunk page size source := by
  have hoffset : ((page : Int) - 1) * size = ((page - 1) * size : Nat) := by
    rw [Int.natCast_mul, Int.natCast_sub hpage]
    rfl
  change (source.drop (clampWord (saturateWide (((page : Int) - 1) * size)))).take size = _
  rw [hoffset, drop_clampWord hsource]
  rfl

variable {page size total : Nat}

/-- The number of rows up to the end of a page, as it is computed: exact, or past all words. -/
theorem reach_cases (page size : Nat) :
    (saturateWide ((page : Int) * size) = (page * size : Nat) ∧ (page * size : Nat) ≤ maxWide) ∨
      saturateWide ((page : Int) * size) = maxWide ∧ maxWide < (page * size : Nat) := by
  have hproduct : (page : Int) * size = (page * size : Nat) := (Int.natCast_mul page size).symm
  rw [hproduct]
  by_cases h : ((page * size : Nat) : Int) ≤ maxWide
  · left
    refine ⟨saturateWide_of_le ?_ h, h⟩
    unfold minWide
    omega
  · right
    unfold saturateWide minWide maxWide at *
    omega

theorem pages_before (hpage : 0 < page) (size : Nat) :
    page * size = (page - 1) * size + size := by
  obtain ⟨before, rfl⟩ := Nat.exists_eq_succ_of_ne_zero (Nat.pos_iff_ne_zero.mp hpage)
  exact Nat.succ_mul before size

/-- A page that ends before the front of the source, or at it. -/
theorem inverted_full (hpage : page * size ≤ total) (htotal : total ≤ maxWord) :
    inverted page size total = ⟨total - page * size, size, true, false⟩ := by
  have hword : (maxWord : Int) ≤ maxWide := by decide
  have hreach : saturateWide ((page : Int) * size) = (page * size : Nat) := by
    rcases reach_cases page size with ⟨hreach, -⟩ | ⟨-, hpast⟩
    · exact hreach
    · omega
  have hoffset : (total : Int) - (page * size : Nat) = (total - page * size : Nat) := by omega
  have hle : total - page * size ≤ maxWord := by omega
  have hnonneg : ¬ ((total - page * size : Nat) : Int) < 0 := by omega
  simp only [inverted]
  rw [hreach, hoffset, saturateWide_of_word hle, if_neg hnonneg, clampWord_of_le hle]

/-- The page that reaches over the front of the source. -/
theorem inverted_leading (hpage : 0 < page) (hleft : (page - 1) * size < total)
    (hover : total < page * size) (hsize : size ≤ maxWord) (htotal : total ≤ maxWord) :
    inverted page size total = ⟨0, total - (page - 1) * size, true, false⟩ := by
  have hword : 2 * (maxWord : Int) ≤ maxWide ∧ minWide ≤ -(2 * maxWord) := by decide
  have hbefore := pages_before hpage size
  have hreach : saturateWide ((page : Int) * size) = (page * size : Nat) := by
    rcases reach_cases page size with ⟨hreach, -⟩ | ⟨-, hpast⟩
    · exact hreach
    · omega
  have hoffset : saturateWide ((total : Int) - (page * size : Nat)) =
      (total : Int) - (page * size : Nat) := by
    apply saturateWide_of_le
    · omega
    · omega
  -- What is left over is what a division by the size leaves.
  have hmod : (total : Int) % size = (total - (page - 1) * size : Nat) := by
    have hrest : total - (page - 1) * size + (page - 1) * size = total := by omega
    have hsmall : total - (page - 1) * size < size := by omega
    have hleftover : total % size = total - (page - 1) * size :=
      calc total % size = (total - (page - 1) * size + (page - 1) * size) % size := by rw [hrest]
        _ = (total - (page - 1) * size) % size := Nat.add_mul_mod_self_right ..
        _ = total - (page - 1) * size := Nat.mod_eq_of_lt hsmall
    rw [← Int.natCast_mod, hleftover]
  have hnegative : (total : Int) - (page * size : Nat) < 0 := by omega
  have hrows : ¬ ((total : Int) - (page * size : Nat) <
      ((total - (page - 1) * size : Nat) : Int) - size ∨
      ((total - (page - 1) * size : Nat) : Int) = 0) := by omega
  have hle : total - (page - 1) * size ≤ maxWord := by omega
  simp only [inverted]
  rw [hreach, hoffset, hmod, if_pos hnegative, if_neg hrows, clampWord_of_le hle]

/-- A page after the one that reaches the front of the source. -/
theorem inverted_past (hpage : 0 < page) (hpast : total ≤ (page - 1) * size) (hsize : 0 < size)
    (hword : size ≤ maxWord) (htotal : total ≤ maxWord) : inverted page size total = empty := by
  have hwords : 2 * (maxWord : Int) < maxWide ∧ minWide ≤ -maxWide := by decide
  have hbefore := pages_before hpage size
  have hmod : 0 ≤ (total : Int) % size := Int.emod_nonneg _ (by omega)
  have hnone : saturateWide ((total : Int) - saturateWide ((page : Int) * size)) < 0 ∧
      (saturateWide ((total : Int) - saturateWide ((page : Int) * size)) < (total : Int) % size - size ∨
        (total : Int) % size = 0) := by
    rcases reach_cases page size with ⟨hreach, hwide⟩ | ⟨hreach, -⟩
    · have hoffset : saturateWide ((total : Int) - (page * size : Nat)) =
          (total : Int) - (page * size : Nat) := by
        apply saturateWide_of_le
        · omega
        · omega
      rw [hreach, hoffset]
      refine ⟨by omega, ?_⟩
      rcases Nat.lt_or_eq_of_le hpast with hlt | heq
      · left
        omega
      · right
        rw [heq, ← Int.natCast_mod, Nat.mul_mod_left]
        rfl
    · have hoffset : saturateWide ((total : Int) - maxWide) = (total : Int) - maxWide := by
        apply saturateWide_of_le
        · omega
        · omega
      rw [hreach, hoffset]
      omega
  simp only [inverted]
  rw [if_pos hnone.1, if_pos hnone.2]

theorem rows_inverted {source : List α} (hpage : 0 < page) (hsize : 0 < size) (hword : size ≤ maxWord)
    (hsource : source.length ≤ maxWord) :
    (inverted page size source.length).rows source = chunk page size source.reverse := by
  rw [chunk_reverse]
  have hbefore := pages_before hpage size
  by_cases hfull : page * size ≤ source.length
  · have hend : source.length - (page - 1) * size - size = source.length - page * size := by omega
    have hrows : source.length - (page - 1) * size - (source.length - page * size) = size := by omega
    rw [inverted_full hfull hsource, hend, List.drop_take, hrows]
    rfl
  · by_cases hleft : (page - 1) * size < source.length
    · have hend : source.length - (page - 1) * size - size = 0 := by omega
      rw [inverted_leading hpage hleft (by omega) hword hsource, hend]
      rfl
    · have hnone : source.length - (page - 1) * size = 0 := by omega
      rw [inverted_past hpage (by omega) hsize hword hsource, hnone, List.take_zero, List.drop_nil]
      rfl

/-- The rows of a window are the chunk of its page; page 0 is read as page 1. -/
theorem rows_compute (page : Nat) {size : Nat} (hsize : size ≤ maxWord) {source : List α}
    (hsource : source.length ≤ maxWord) (invert : Bool) :
    (compute page size source.length invert).rows source =
      chunk (max page 1) size (if invert then source.reverse else source) := by
  have hpage : 0 < max page 1 := by omega
  unfold compute
  by_cases hzero : size = 0
  · rw [if_pos hzero, rows_empty, hzero, chunk, List.take_zero]
  · rw [if_neg hzero]
    cases invert with
    | false => exact rows_forward hpage size hsource
    | true => exact rows_inverted hpage (Nat.pos_of_ne_zero hzero) hsize hsource

end PageWindow

end ServiceRegistry
