import Mathlib.Data.List.Nodup
import Mathlib.Data.Nat.Init
import ServiceRegistry.Event

/-!
# The schedule of refreshes

What an engine refreshes for, and when, is a function of its two periods and of the instants at which a
refresh was marked as owed: the startup refresh, then instant by instant a scheduled refresh at the
multiples of one period and, after it, at a multiple of the other one refresh for all marks since the
multiple before.

* `schedule` lists these refreshes as they are logged, `mem_schedule` and `nodup_schedule` read it.
* `count_nextCheck`: a mark is served once, at the first check after it.
* `exists_mark_of_mem`: no check refreshes without a mark.
-/

namespace ServiceRegistry.Refresh

/-- A refresh that succeeds at the first attempt. -/
def refreshEvent (cause : RefreshCause) : Event := .refresh cause 1 .refreshed none

/-- Refreshes at an instant, as they are logged. -/
def stamped (instant : Nat) (causes : List RefreshCause) : List (Nat × Event) :=
  causes.map fun cause => (instant, refreshEvent cause)

@[simp] theorem stamped_append (instant : Nat) (causes others : List RefreshCause) :
    stamped instant (causes ++ others) = stamped instant causes ++ stamped instant others :=
  List.map_append

section

variable (period check : Nat) (marks : List Nat)

/-- What is refreshed for at an instant, in order.  A check is for the marks since the one before. -/
def causesAt : (instant : Nat) → List RefreshCause
  | 0 => [.startup]
  | before + 1 =>
    let instant := before + 1
    (if period ∣ instant then [.scheduled] else []) ++
      if check ∣ instant ∧ ∃ mark ∈ marks, instant < mark + check ∧ mark < instant then [.dirty]
      else []

/-- The refreshes before the instant `stop`. -/
def schedule (stop : Nat) : List (Nat × Event) :=
  (List.range stop).flatMap fun instant => stamped instant (causesAt period check marks instant)

end

section

variable {period check stop instant : Nat} {marks : List Nat}

theorem schedule_succ (instant : Nat) :
    schedule period check marks (instant + 1) =
      schedule period check marks instant ++ stamped instant (causesAt period check marks instant) := by
  simp [schedule, List.range_succ]

theorem causesAt_eq (hpos : 0 < instant) :
    causesAt period check marks instant =
      (if period ∣ instant then [.scheduled] else []) ++
        if check ∣ instant ∧ ∃ mark ∈ marks, instant < mark + check ∧ mark < instant then [.dirty]
        else [] := by
  cases instant with
  | zero => cases hpos
  | succ before => rfl

/-- Nothing is logged while nothing is due. -/
theorem schedule_eq_of_idle {later : Nat} (hle : stop ≤ later)
    (hidle : ∀ instant, stop ≤ instant → instant < later → causesAt period check marks instant = []) :
    schedule period check marks later = schedule period check marks stop := by
  induction later, hle using Nat.le_induction with
  | base => rfl
  | succ later hle ih =>
    have hnone := hidle later hle (Nat.lt_succ_self later)
    rw [schedule_succ, hnone, ih fun instant hfrom hto => hidle instant hfrom (Nat.lt_succ_of_lt hto)]
    exact List.append_nil _

/-- A mark makes a difference after its instant only. -/
theorem schedule_append_of_later {later : List Nat} (hlater : ∀ mark ∈ later, stop ≤ mark + 1) :
    schedule period check (marks ++ later) stop = schedule period check marks stop := by
  have hsame : ∀ instant ∈ List.range stop,
      causesAt period check (marks ++ later) instant = causesAt period check marks instant := by
    intro instant hmem
    have hbefore := List.mem_range.mp hmem
    cases instant with
    | zero => rfl
    | succ before =>
      have hnone : ¬ ∃ mark ∈ later, before + 1 < mark + check ∧ mark < before + 1 := by
        rintro ⟨mark, hmark, -, hlt⟩
        have hle := hlater mark hmark
        omega
      simp only [causesAt, List.mem_append, or_and_right, exists_or, hnone, or_false]
  exact List.flatMap_congr fun instant hmem => congrArg (stamped instant) (hsame instant hmem)

theorem mem_schedule {entry : Nat × Event} :
    entry ∈ schedule period check marks stop ↔
      entry.1 < stop ∧ ∃ cause ∈ causesAt period check marks entry.1, entry.2 = refreshEvent cause := by
  constructor
  · intro hmem
    obtain ⟨instant, hbefore, hentry⟩ := List.mem_flatMap.mp hmem
    obtain ⟨cause, hcause, rfl⟩ := List.mem_map.mp hentry
    exact ⟨List.mem_range.mp hbefore, cause, hcause, rfl⟩
  · rintro ⟨hbefore, cause, hcause, hevent⟩
    refine List.mem_flatMap.mpr ⟨entry.1, List.mem_range.mpr hbefore, ?_⟩
    exact List.mem_map.mpr ⟨cause, hcause, Prod.ext rfl hevent.symm⟩

theorem nodup_causesAt (instant : Nat) : (causesAt period check marks instant).Nodup := by
  cases instant with
  | zero => exact List.nodup_singleton _
  | succ before =>
    rw [causesAt]
    split <;> split <;> decide

theorem refreshEvent_injective : Function.Injective refreshEvent := by
  intro cause other h
  injection h

/-- No refresh is made twice. -/
theorem nodup_schedule (stop : Nat) : (schedule period check marks stop).Nodup := by
  refine List.nodup_flatMap.mpr ⟨fun instant _ => ?_, ?_⟩
  · refine (nodup_causesAt instant).map fun cause other h => ?_
    exact refreshEvent_injective (congrArg Prod.snd h)
  · refine List.nodup_range.imp fun {instant other} hne entry hentry hother => hne ?_
    obtain ⟨_, -, rfl⟩ := List.mem_map.mp hentry
    obtain ⟨_, -, hsame⟩ := List.mem_map.mp hother
    exact (congrArg Prod.fst hsame).symm

theorem dirty_mem_causesAt :
    .dirty ∈ causesAt period check marks instant ↔
      check ∣ instant ∧ ∃ mark ∈ marks, instant < mark + check ∧ mark < instant := by
  cases instant with
  | zero => simp [causesAt]
  | succ before =>
    rw [causesAt]
    split <;> simp

/-- The first check after an instant. -/
def nextCheck (check mark : Nat) : Nat := (mark / check + 1) * check

theorem lt_nextCheck (hpos : 0 < check) (mark : Nat) : mark < nextCheck check mark := by
  rw [nextCheck, Nat.add_mul, Nat.one_mul]
  exact Nat.lt_div_mul_add hpos

theorem nextCheck_le (check mark : Nat) : nextCheck check mark ≤ mark + check := by
  rw [nextCheck, Nat.add_mul, Nat.one_mul]
  exact Nat.add_le_add_right (Nat.div_mul_le_self mark check) check

theorem nextCheck_lt {mark : Nat} (hoff : ¬ check ∣ mark) : nextCheck check mark < mark + check := by
  refine Nat.lt_of_le_of_ne (nextCheck_le check mark) fun heq => hoff ?_
  exact Nat.dvd_add_self_right.mp (heq ▸ Nat.dvd_mul_left check _)

/-- A multiple that comes after a mark, and less than one interval after it, is the first check. -/
theorem eq_nextCheck {mark : Nat} (hdvd : check ∣ instant) (hrecent : instant < mark + check)
    (hbefore : mark < instant) : instant = nextCheck check mark := by
  obtain ⟨count, rfl⟩ := hdvd
  cases count with
  | zero => cases hbefore
  | succ last =>
    rw [Nat.mul_comm] at hrecent hbefore ⊢
    have hlast : last * check ≤ mark := by
      rw [Nat.add_mul, Nat.one_mul] at hrecent
      omega
    rw [nextCheck, Nat.div_eq_of_lt_le hlast hbefore]

/-- A mark is served at the first check after it, once and with all others that this check is for. -/
theorem count_nextCheck (hpos : 0 < check) {mark : Nat} (hmark : mark ∈ marks)
    (hoff : ¬ check ∣ mark) (hbefore : nextCheck check mark < stop) :
    (schedule period check marks stop).count (nextCheck check mark, refreshEvent .dirty) = 1 := by
  refine List.count_eq_one_of_mem (nodup_schedule stop) (mem_schedule.mpr ⟨hbefore, .dirty, ?_, rfl⟩)
  exact dirty_mem_causesAt.mpr ⟨Nat.dvd_mul_left check _, mark, hmark, nextCheck_lt hoff,
    lt_nextCheck hpos mark⟩

/-- Nothing is refreshed for at a check without a mark. -/
theorem exists_mark_of_mem (h : (instant, refreshEvent .dirty) ∈ schedule period check marks stop) :
    ∃ mark ∈ marks, instant = nextCheck check mark := by
  obtain ⟨-, cause, hcause, hevent⟩ := mem_schedule.mp h
  rw [← refreshEvent_injective hevent] at hcause
  obtain ⟨hdvd, mark, hmark, hrecent, hbefore⟩ := dirty_mem_causesAt.mp hcause
  exact ⟨mark, hmark, eq_nextCheck hdvd hrecent hbefore⟩

end

end ServiceRegistry.Refresh
