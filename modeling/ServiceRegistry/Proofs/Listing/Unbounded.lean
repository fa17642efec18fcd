import ServiceRegistry.Proofs.Listing.Window

/-!
# Windows in unbounded arithmetic

The rule by which a window is found can be followed on all integers, without saturation and without
clamping.  For sizes and lists that fit in words this makes no difference: an inverted page has the
same window, and a forward page whose offset is clamped shows nothing either way.

* `PageWindow.unbounded` is the rule on all integers.
* `PageWindow.inverted_eq_unbounded`: the window of an inverted page is exact.
* `PageWindow.Reaches` is what can be relied on of such a window, and `PageWindow.inverted_reaches`
  that it can.
* `PageWindow.windows_exact` puts together what a window shows and where it lies.
-/

namespace ServiceRegistry.PageWindow

/-- The window of an inverted page, computed on all integers. -/
def unboundedInverted (page size total : Nat) : PageWindow :=
  let offset := (total : Int) - page * size
  if offset < 0 then
    let limit := (total : Int) % size
    if offset < limit - size ∨ limit = 0 then empty
    else ⟨0, limit.toNat, true, false⟩
  else ⟨offset.toNat, size, true, false⟩

/-- The window of a page, computed on all integers. -/
def unbounded (page size total : Nat) (invert : Bool) : PageWindow :=
  if size = 0 then empty
  else if invert then unboundedInverted (max page 1) size total
  else ⟨(max page 1 - 1) * size, size, false, false⟩

variable {page size total : Nat}

/-! ## Inverted pages -/

theorem clampWord_of_nonneg {n : Int} (h : 0 ≤ n ∧ n ≤ maxWord) : clampWord n = n.toNat := by
  unfold clampWord
  omega

/-- Where the reach of a page saturates, the page is past the front by any measure. -/
theorem inverted_eq_unbounded (page : Nat) (hsize : 0 < size) (hword : size ≤ maxWord)
    (htotal : total ≤ maxWord) : inverted page size total = unboundedInverted page size total := by
  have hwords : 2 * (maxWord : Int) < maxWide ∧ minWide ≤ -maxWide := by decide
  have hlow : 0 ≤ (total : Int) % size := Int.emod_nonneg _ (by omega)
  have hhigh : (total : Int) % size < size := Int.emod_lt_of_pos _ (by omega)
  have hproduct : (page : Int) * size = (page * size : Nat) := (Int.natCast_mul page size).symm
  rcases reach_cases page size with ⟨hreach, hwide⟩ | ⟨hreach, hpast⟩
  · have hoffset : saturateWide ((total : Int) - (page * size : Nat)) =
        (total : Int) - (page * size : Nat) := by
      apply saturateWide_of_le
      · omega
      · omega
    have hlimit : clampWord ((total : Int) % size) = ((total : Int) % size).toNat :=
      clampWord_of_nonneg ⟨hlow, by omega⟩
    simp only [inverted, unboundedInverted]
    rw [hreach, hoffset, hlimit, hproduct]
    by_cases hnegative : (total : Int) - (page * size : Nat) < 0
    · rw [if_pos hnegative, if_pos hnegative]
    · rw [if_neg hnegative, if_neg hnegative, clampWord_of_nonneg (by omega)]
  · have hoffset : saturateWide ((total : Int) - maxWide) = (total : Int) - maxWide := by
      apply saturateWide_of_le
      · omega
      · omega
    have hsaturated : (total : Int) - maxWide < 0 ∧
        ((total : Int) - maxWide < (total : Int) % size - size ∨ (total : Int) % size = 0) := by omega
    have hexact : (total : Int) - (page * size : Nat) < 0 ∧
        ((total : Int) - (page * size : Nat) < (total : Int) % size - size ∨
          (total : Int) % size = 0) := by omega
    simp only [inverted, unboundedInverted]
    rw [hreach, hoffset, hproduct, if_pos hsaturated.1, if_pos hsaturated.2, if_pos hexact.1,
      if_pos hexact.2]

/-- Where the window of an inverted page lies in a source of `total` rows, `before` of which belong to
the pages before it: it is empty if they are all of them, and otherwise ends where they begin. -/
structure Reaches (window : PageWindow) (size before total : Nat) : Prop where
  isEmpty_iff : window.isEmpty = true ↔ size = 0 ∨ total ≤ before
  ends : window.isEmpty = false → (window.offset : Int) + window.limit = (total : Int) - before
  limited : window.isEmpty = false → 1 ≤ window.limit ∧ window.limit ≤ size
  within : window.isEmpty = false → window.offset + window.limit ≤ total

theorem reaches_empty {before : Nat} (h : size = 0 ∨ total ≤ before) :
    Reaches empty size before total :=
  ⟨iff_of_true rfl h, nofun, nofun, nofun⟩

theorem inverted_reaches (hpage : 0 < page) (hsize : 0 < size) (hword : size ≤ maxWord)
    (htotal : total ≤ maxWord) :
    Reaches (inverted page size total) size ((page - 1) * size) total := by
  have hbefore := pages_before hpage size
  by_cases hfull : page * size ≤ total
  · rw [inverted_full hfull htotal]
    refine ⟨iff_of_false Bool.false_ne_true (by omega), fun _ => ?_, fun _ => ⟨hsize, le_rfl⟩,
      fun _ => ?_⟩
    · show ((total - page * size : Nat) : Int) + size = total - ((page - 1) * size : Nat)
      omega
    · show total - page * size + size ≤ total
      omega
  · by_cases hleft : (page - 1) * size < total
    · rw [inverted_leading hpage hleft (by omega) hword htotal]
      refine ⟨iff_of_false Bool.false_ne_true (by omega), fun _ => ?_, fun _ => ?_, fun _ => ?_⟩
      · show ((0 : Nat) : Int) + (total - (page - 1) * size : Nat) = total - ((page - 1) * size : Nat)
        omega
      · show 1 ≤ total - (page - 1) * size ∧ total - (page - 1) * size ≤ size
        omega
      · show 0 + (total - (page - 1) * size) ≤ total
        omega
    · rw [inverted_past hpage (by omega) hsize hword htotal]
      exact reaches_empty (Or.inr (by omega))

/-! ## All pages -/

theorem compute_reaches (page : Nat) (hword : size ≤ maxWord) (htotal : total ≤ maxWord) :
    Reaches (compute page size total true) size ((max page 1 - 1) * size) total := by
  have hpage : 0 < max page 1 := by omega
  unfold compute
  by_cases hzero : size = 0
  · rw [if_pos hzero]
    exact reaches_empty (Or.inl hzero)
  · rw [if_neg hzero]
    exact inverted_reaches hpage (Nat.pos_of_ne_zero hzero) hword htotal

/-- Saturation and clamping choose the same rows as arithmetic without bounds. -/
theorem rows_unbounded (page : Nat) (hword : size ≤ maxWord) {source : List α}
    (hsource : source.length ≤ maxWord) (invert : Bool) :
    (unbounded page size source.length invert).rows source =
      (compute page size source.length invert).rows source := by
  unfold unbounded compute
  by_cases hzero : size = 0
  · rw [if_pos hzero, if_pos hzero]
  · rw [if_neg hzero, if_neg hzero]
    cases invert with
    | true =>
      show (unboundedInverted (max page 1) size source.length).rows source =
        (inverted (max page 1) size source.length).rows source
      rw [inverted_eq_unbounded (max page 1) (Nat.pos_of_ne_zero hzero) hword hsource]
    | false => exact (rows_forward (by omega) size hsource).symm

/-- For all pages, sizes and totals that are words, in both directions: what a window shows is the
chunk of its page, with or without bounds on the numbers, and where the window of an inverted page lies
follows from how many rows come before it.  A request for a page has the same window. -/
theorem windows_exact (page : Nat) {size : Nat} (hsize : size ≤ maxWord) {rows : List α}
    (hrows : rows.length ≤ maxWord) (invert : Bool) :
    let before := (max page 1 - 1) * size
    let window := compute page size rows.length invert
    window.rows rows =
        ((if invert then rows.reverse else rows).drop before).take size ∧
      (size = 0 → window.rows rows = []) ∧
      (unbounded page size rows.length invert).rows rows = window.rows rows ∧
      (invert = true → Reaches window size before rows.length) ∧
      (PageRequest.of page size invert).window rows.length = window := by
  intro before window
  have hchunk : window.rows rows =
      ((if invert then rows.reverse else rows).drop before).take size :=
    rows_compute page hsize hrows invert
  refine ⟨hchunk, ?_, rows_unbounded page hsize hrows invert, ?_, ?_⟩
  · intro hzero
    rw [hchunk, hzero, List.take_zero]
  · rintro rfl
    exact compute_reaches page hsize hrows
  · have hpage : max (max page 1) 1 = max page 1 := by omega
    show compute (max page 1) size rows.length invert = compute page size rows.length invert
    unfold compute
    rw [hpage]

/-- The last page number and the largest size there are: the product is out of reach of the signed
arithmetic. -/
theorem windows_exact_at_extremes :
    let rows := ["a", "b", "c"]
    (compute 1 maxWord rows.length true).rows rows = ["c", "b", "a"] ∧
      (compute maxWord maxWord rows.length true).isEmpty = true ∧
      (compute maxWord maxWord rows.length false).rows rows = [] := by
  intro rows
  have hsize : maxWord ≤ maxWord := le_rfl
  have hrows : rows.length ≤ maxWord := by decide
  obtain ⟨hfirst, -⟩ := windows_exact 1 hsize hrows true
  obtain ⟨-, -, -, hreaches, -⟩ := windows_exact maxWord hsize hrows true
  obtain ⟨hlast, -⟩ := windows_exact maxWord hsize hrows false
  refine ⟨hfirst.trans (by decide), ?_, hlast.trans (by decide)⟩
  exact (hreaches rfl).isEmpty_iff.mpr (Or.inr (by decide))

end ServiceRegistry.PageWindow
