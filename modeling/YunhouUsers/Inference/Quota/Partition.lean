import Mathlib.Tactic.IntervalCases
import YunhouUsers.Inference.Quota.Window

/-!
The calendar windows of an entitlement follow each other without a gap from its anchor on.

Monthly ones do so for ever; weekly ones as long as a `time.Duration` reaches.
-/

namespace YunhouUsers.Inference.Quota

open Calendar

/-- The intervals with an index in `range` tile the time from `anchor` on, and `windowAt` finds the
one tile of every instant in `reach`. -/
structure Partition (interval : Int → Except Err Interval)
    (windowAt : Int → Except Err (Interval × Int)) (anchor : Int) (range reach : Int → Prop) :
    Prop where
  first : ∃ stop, interval 0 = .ok ⟨anchor, stop⟩
  adjacent : ∀ k, 0 ≤ k → range (k + 1) →
    ∃ a b c, interval k = .ok ⟨a, b⟩ ∧ interval (k + 1) = .ok ⟨b, c⟩
  increasing : ∀ j k, 0 ≤ j → j < k → range k →
    ∃ iv iv', interval j = .ok iv ∧ interval k = .ok iv' ∧ iv.start < iv'.start
  found : ∀ t, anchor ≤ t → reach t → ∃ iv k, windowAt t = .ok (iv, k) ∧ 0 ≤ k ∧ range k ∧
    interval k = .ok iv ∧ iv.contains t = true ∧
    ∀ k' iv', 0 ≤ k' → range k' → interval k' = .ok iv' → iv'.contains t = true → k' = k

theorem index_unique {start : Int → Int} (mono : Increasing start) {j k t : Int}
    (j_start : start j ≤ t) (j_stop : t < start (j + 1)) (k_start : start k ≤ t)
    (k_stop : t < start (k + 1)) : j = k := by
  have lt : j < k + 1 := mono.lt_of_lt (Int.lt_of_le_of_lt j_start k_stop)
  have gt : k < j + 1 := mono.lt_of_lt (Int.lt_of_le_of_lt k_start j_stop)
  omega

theorem Partition.of_start {interval : Int → Except Err Interval}
    {windowAt : Int → Except Err (Interval × Int)} {anchor : Int} {range reach : Int → Prop}
    {start : Int → Int} (mono : Increasing start) (zero : start 0 = anchor)
    (down : ∀ {j k}, j ≤ k → range k → range j) (some_ : range 0)
    (tile : ∀ k, 0 ≤ k → range k → interval k = .ok ⟨start k, start (k + 1)⟩)
    (finds : ∀ t, anchor ≤ t → reach t → ∃ k, 0 ≤ k ∧ range k ∧ start k ≤ t ∧ t < start (k + 1) ∧
      windowAt t = .ok (⟨start k, start (k + 1)⟩, k)) :
    Partition interval windowAt anchor range reach := by
  constructor
  · exact ⟨start 1, by rw [tile 0 (by decide) some_, zero]; rfl⟩
  · intro k lo inside
    exact ⟨_, _, _, tile k lo (down (by omega) inside), tile (k + 1) (by omega) inside⟩
  · intro j k lo lt inside
    exact ⟨_, _, tile j lo (down lt.le inside), tile k (by omega) inside, mono lt⟩
  · intro t known near
    obtain ⟨k, lo, inside, from_, upto, found⟩ := finds t known near
    refine ⟨_, k, found, lo, inside, tile k lo inside, ?_, ?_⟩
    · rw [Interval.contains_iff]
      exact ⟨from_, upto⟩
    · intro k' iv' lo' inside' is contains
      rw [tile k' lo' inside'] at is
      cases is
      obtain ⟨from_', upto'⟩ := (Interval.contains_iff _ _).mp contains
      exact index_unique mono from_' upto' from_ upto

theorem monthly_partition (anchor : Int) :
    Partition (monthlyInterval anchor) (monthlyWindowAt anchor) anchor (fun _ => True)
      (fun _ => True) := by
  refine .of_start (addMonthsClamped_increasing anchor) (addMonthsClamped_zero anchor)
    (fun _ _ => trivial) trivial ?_ ?_
  · intro k lo _
    simp [monthlyInterval, Int.not_lt.mpr lo]
  · intro t known _
    obtain ⟨k, lo, from_, upto, found⟩ := monthlyWindowAt_spec anchor t known
    exact ⟨k, lo, trivial, from_, upto, found⟩

theorem weekly_partition (anchor : Int) :
    Partition (weeklyInterval anchor) (weeklyWindowAt anchor) anchor (fun n => n ≤ lastWeek)
      (fun t => t < anchor + (lastWeek + 1) * weeklyDuration) := by
  have next (n : Int) : anchor + (n + 1) * weeklyDuration =
      anchor + n * weeklyDuration + weeklyDuration := by
    rw [Int.add_mul, Int.one_mul, Int.add_assoc]
  have week : 0 < weeklyDuration := by decide
  have mono : Increasing (fun n => anchor + n * weeklyDuration) := by
    apply Increasing.of_lt_succ
    intro n
    rw [next]
    omega
  have some_ : (0 : Int) ≤ lastWeek := by decide
  refine .of_start mono (by simp) (fun le inside => le.trans inside) some_ ?_ ?_
  · intro n lo hi
    rw [weeklyInterval_eq anchor lo hi, next]
  · intro t known near
    obtain ⟨n, lo, hi, from_, upto, found⟩ := weeklyWindowAt_spec anchor t known near
    exact ⟨n, lo, hi, from_, next n ▸ upto, next n ▸ found⟩

def dayOfMonth (t : Int) : Int := dayOf t - monthStart (monthIndex t) + 1

theorem dayOf_midnight (d : Int) {clock : Int} (lo : 0 ≤ clock) (hi : clock < day) :
    dayOf (midnight d + clock) = d := by
  have before := (midnight_le_iff d (midnight d + clock)).mp (by omega)
  have after := (lt_midnight_iff (d + 1) (midnight d + clock)).mp (by
    simp only [midnight] at *
    rw [show d + 1 - 719528 = d - 719528 + 1 by omega, Int.add_mul, Int.one_mul]
    omega)
  omega

theorem monthOf_unique {d i : Int} (lo : monthStart i ≤ d) (hi : d < monthStart (i + 1)) :
    monthOf d = i :=
  index_unique monthStart_increasing (monthOf_bounds d).1 (monthOf_bounds d).2 lo hi

theorem addMonthsClamped_date (anchor k : Int) :
    monthIndex (addMonthsClamped anchor k) = monthIndex anchor + k ∧
      dayOfMonth (addMonthsClamped anchor k) =
        min (dayOfMonth anchor) (daysIn (monthIndex anchor + k)) ∧
      addMonthsClamped anchor k % day = anchor % day := by
  have lo := (monthOf_bounds (dayOf anchor)).1
  have month := monthStart_lt_succ (monthIndex anchor + k)
  have clock := Int.emod_nonneg anchor (Int.ne_of_gt day_pos)
  have clock' := Int.emod_lt_of_pos anchor day_pos
  simp only [addMonthsClamped, dayOfMonth, daysIn]
  generalize clamp : min (dayOf anchor - monthStart (monthIndex anchor))
    (monthStart (monthIndex anchor + k + 1) - monthStart (monthIndex anchor + k) - 1) = c
  have date := dayOf_midnight (monthStart (monthIndex anchor + k) + c) clock clock'
  have same : monthIndex (midnight (monthStart (monthIndex anchor + k) + c) + anchor % day) =
      monthIndex anchor + k := by
    rw [monthIndex, date]
    simp only [monthIndex] at clamp lo month ⊢
    exact monthOf_unique (by omega) (by omega)
  refine ⟨same, ?_, ?_⟩
  · rw [same, date]
    omega
  · rw [midnight, Int.add_comm, Int.add_mul_emod_self_right, Int.emod_emod]

/-- Both calendars tile the time from the anchor on, and months keep the anchor's day as far as
they are long enough. -/
theorem calendar_windows_partition (anchor : Int) :
    Partition (monthlyInterval anchor) (monthlyWindowAt anchor) anchor (fun _ => True)
      (fun _ => True) ∧
    (∀ k iv, monthlyInterval anchor k = .ok iv →
      monthIndex iv.start = monthIndex anchor + k ∧
      dayOfMonth iv.start = min (dayOfMonth anchor) (daysIn (monthIndex iv.start)) ∧
      iv.start % day = anchor % day) ∧
    Partition (weeklyInterval anchor) (weeklyWindowAt anchor) anchor (fun n => n ≤ 15250)
      (fun t => t < anchor + 15251 * weeklyDuration) := by
  refine ⟨monthly_partition anchor, ?_, weekly_partition anchor⟩
  intro k iv ok
  unfold monthlyInterval at ok
  split_ifs at ok
  cases ok
  obtain ⟨month, date, clock⟩ := addMonthsClamped_date anchor k
  exact ⟨month, month ▸ date, clock⟩

/-- From the zero time to the year 2026 is further than a `time.Duration` reaches. -/
theorem weekly_window_saturates :
    let zero := -62135596800000000
    let newYear2026 := 1767225600000000
    ∃ iv, weeklyWindowAt zero newYear2026 = .ok (iv, 15250) ∧ iv.contains newYear2026 = false ∧
      ∃ next, weeklyInterval zero 15251 = .ok next ∧ next.start < zero := by
  refine ⟨⟨-52912396800000000, -52911792000000000⟩, by decide, by decide,
    ⟨_, _⟩, rfl, by decide⟩

end YunhouUsers.Inference.Quota
