import Mathlib.Tactic.Common
import Mathlib.Order.Monotone.Basic

/-!
The proleptic Gregorian calendar on day numbers.

Day 0 is 1 January of year 0.  A month is named by its index `12 * year + (month - 1)`,
so that "the next month" is adding one, also across a year's end.
-/

namespace Calendar

def isLeap (y : Int) : Bool := y % 4 = 0 && (y % 100 ≠ 0 || y % 400 = 0)

def yearStart (y : Int) : Int := 365 * y + (y + 3) / 4 - (y + 99) / 100 + (y + 399) / 400

variable (leap : Bool)

/-- Days of a year before its month `m`, counted from 0; `m = 12` is the whole year.
The lengths 31, 30, 31, … are those of a line of slope 367 / 12, February is corrected. -/
def daysBefore (m : Int) : Int :=
  (367 * m + 5) / 12 - if m < 2 then 0 else if leap then 1 else 2

def monthStart (i : Int) : Int := yearStart (i / 12) + daysBefore (isLeap (i / 12)) (i % 12)

/-- The year of a day: the mean year is 146097 / 400 days, so the estimate is off by at
most one. -/
def yearOf (d : Int) : Int :=
  let y := 400 * d / 146097
  if d < yearStart y then y - 1 else if yearStart (y + 1) ≤ d then y + 1 else y

def monthInYear (n : Int) : Int :=
  (12 * (n + if n < daysBefore leap 2 then 0 else if leap then 1 else 2) + 6) / 367

def monthOf (d : Int) : Int :=
  let y := yearOf d
  12 * y + monthInYear (isLeap y) (d - yearStart y)

def daysIn (i : Int) : Int := monthStart (i + 1) - monthStart i

theorem yearStart_succ (y : Int) :
    yearStart (y + 1) = yearStart y + daysBefore (isLeap y) 12 := by
  simp only [yearStart, daysBefore, isLeap]
  by_cases h4 : y % 4 = 0 <;> by_cases h100 : y % 100 = 0 <;> by_cases h400 : y % 400 = 0 <;>
    simp [h4, h100, h400] <;> omega

theorem yearStart_mean (y : Int) :
    146097 * y - 396 ≤ 400 * yearStart y ∧ 400 * yearStart y ≤ 146097 * y + 699 := by
  unfold yearStart
  omega

theorem yearOf_bounds (d : Int) : yearStart (yearOf d) ≤ d ∧ d < yearStart (yearOf d + 1) := by
  unfold yearOf
  have estimate : 146097 * (400 * d / 146097) ≤ 400 * d ∧
      400 * d < 146097 * (400 * d / 146097) + 146097 := by omega
  generalize 400 * d / 146097 = y at estimate
  have below := yearStart_mean (y - 1)
  have above := yearStart_mean (y + 2)
  dsimp only
  split
  · rw [Int.sub_add_cancel]
    omega
  · split
    · rw [show y + 1 + 1 = y + 2 by omega]
      omega
    · omega

theorem monthInYear_bounds (n : Int) (lo : 0 ≤ n) (hi : n < daysBefore leap 12) :
    0 ≤ monthInYear leap n ∧ monthInYear leap n ≤ 11 ∧
      daysBefore leap (monthInYear leap n) ≤ n ∧ n < daysBefore leap (monthInYear leap n + 1) := by
  simp only [monthInYear, daysBefore] at hi ⊢
  cases leap <;> simp at hi ⊢ <;> omega

theorem daysBefore_lt (m : Int) : daysBefore leap m < daysBefore leap (m + 1) := by
  simp only [daysBefore]
  cases leap <;> simp <;> omega

theorem monthStart_succ (i : Int) :
    monthStart (i + 1) = yearStart (i / 12) + daysBefore (isLeap (i / 12)) (i % 12 + 1) := by
  unfold monthStart
  by_cases december : i % 12 = 11
  · have year : (i + 1) / 12 = i / 12 + 1 := by omega
    have month : (i + 1) % 12 = 0 := by omega
    rw [year, month, yearStart_succ, december]
    simp [daysBefore]
  · have year : (i + 1) / 12 = i / 12 := by omega
    have month : (i + 1) % 12 = i % 12 + 1 := by omega
    rw [year, month]

theorem monthStart_lt_succ (i : Int) : monthStart i < monthStart (i + 1) := by
  rw [monthStart_succ]
  have := daysBefore_lt (isLeap (i / 12)) (i % 12)
  unfold monthStart
  omega

def Increasing (f : Int → Int) : Prop := ∀ ⦃m n⦄, m < n → f m < f n

namespace Increasing

variable {f : Int → Int}

theorem of_lt_succ (step : ∀ n, f n < f (n + 1)) : Increasing f :=
  fun _ _ lt => strictMono_int_of_lt_succ step lt

theorem le (increasing : Increasing f) {m n : Int} (le : m ≤ n) : f m ≤ f n := by
  rcases Int.lt_or_eq_of_le le with lt | rfl
  · exact Int.le_of_lt (increasing lt)
  · exact Int.le_refl _

theorem lt_of_lt (increasing : Increasing f) {m n : Int} (lt : f m < f n) : m < n := by
  by_contra later
  have := increasing.le (Int.not_lt.mp later)
  omega

end Increasing

theorem monthStart_increasing : Increasing monthStart := .of_lt_succ monthStart_lt_succ

theorem monthOf_bounds (d : Int) :
    monthStart (monthOf d) ≤ d ∧ d < monthStart (monthOf d + 1) := by
  obtain ⟨from_, upto⟩ := yearOf_bounds d
  rw [yearStart_succ] at upto
  obtain ⟨lo, hi, start, stop⟩ := monthInYear_bounds (isLeap (yearOf d)) (d - yearStart (yearOf d))
    (by omega) (by omega)
  have year : monthOf d / 12 = yearOf d := by
    simp only [monthOf]
    omega
  have month : monthOf d % 12 =
      monthInYear (isLeap (yearOf d)) (d - yearStart (yearOf d)) := by
    simp only [monthOf]
    omega
  rw [monthStart_succ, monthStart, year, month]
  constructor <;> omega

end Calendar
