import Mathlib.Algebra.Ring.Int.Defs
import YunhouUsers.Calendar
import YunhouUsers.Inference.Domain

/-!
The three quota windows (`internal/inference/quota/window.go`).
-/

namespace YunhouUsers.Inference.Quota

open Calendar

def hour : Int := 3600000000
def day : Int := 24 * hour
def fiveHourDuration : Int := 5 * hour
def weeklyDuration : Int := 7 * day

/-- Day number (from year 0) of an instant; the epoch is day 719528. -/
def dayOf (t : Int) : Int := t / day + 719528

/-- `Year*12 + Month-1` of an instant in UTC. -/
def monthIndex (t : Int) : Int := monthOf (dayOf t)

def midnight (d : Int) : Int := (d - 719528) * day

def errBeforeAnchor : Err := .domain .invalidInput "quota: time precedes entitlement anchor"

structure Interval where
  start : Int
  stop : Int
deriving DecidableEq

def Interval.contains (iv : Interval) (t : Int) : Bool := iv.start ≤ t && t < iv.stop

def QuotaWindow.interval (w : QuotaWindow) : Interval := ⟨w.start, w.stop⟩

variable (anchor : Int)

/-- The anchor's day of the month is clamped into the target month; the clamp always
starts from the anchor, so nothing drifts. -/
def addMonthsClamped (months : Int) : Int :=
  let i := monthIndex anchor + months
  let dayOfMonth := dayOf anchor - monthStart (monthIndex anchor)
  let clamped := min dayOfMonth (daysIn i - 1)
  midnight (monthStart i + clamped) + anchor % day

def monthlyInterval (k : Int) : Except Err Interval :=
  if k < 0 then .error (.domain .invalidInput "quota: negative month index")
  else .ok ⟨addMonthsClamped anchor k, addMonthsClamped anchor (k + 1)⟩

def monthlyWindowAt (anchor at_ : Int) : Except Err (Interval × Int) :=
  if at_ < anchor then .error errBeforeAnchor
  else
    let k := monthIndex at_ - monthIndex anchor
    let k := if at_ < addMonthsClamped anchor k then k - 1 else k
    if k < 0 then .error errBeforeAnchor
    else (monthlyInterval anchor k).map (fun iv => (iv, k))

/-- `t.Sub(u)`: nanoseconds in an `int64`, which saturates after some 292 years. -/
def sub (t u : Int) : Int := max (-2 ^ 63) (min (2 ^ 63 - 1) ((t - u) * 1000))

/-- `time.Duration(n) * WeeklyDuration`: an `int64` product wraps. -/
def weeks (n : Int) : Int := (n * (weeklyDuration * 1000) + 2 ^ 63) % 2 ^ 64 - 2 ^ 63

def weeklyInterval (n : Int) : Except Err Interval :=
  if n < 0 then .error (.domain .invalidInput "quota: negative week index")
  else
    let start := anchor + weeks n / 1000
    .ok ⟨start, start + weeklyDuration⟩

def weeklyWindowAt (anchor at_ : Int) : Except Err (Interval × Int) :=
  if at_ < anchor then .error errBeforeAnchor
  else
    let n := sub at_ anchor / (weeklyDuration * 1000)
    (weeklyInterval anchor n).map (fun iv => (iv, n))

def fiveHourInterval (t : Int) : Interval := ⟨t, t + fiveHourDuration⟩

def hasWindowStartingAt (active : List QuotaWindow) (kind : WindowKind) (start : Int) : Bool :=
  active.any fun w => w.kind = kind && !w.voided && w.start = start

def liveAt (kind : WindowKind) (t : Int) (w : QuotaWindow) : Bool :=
  w.kind = kind && !w.voided && (QuotaWindow.interval w).contains t

/-- The interval a consumption at `at_` binds to, and whether its row has to be created. -/
def consumptionWindow (kind : WindowKind) (anchor : Int) (active : List QuotaWindow)
    (at_ : Int) : Except Err (Interval × Bool) :=
  match kind with
  | .fiveHour =>
    match active.find? (liveAt .fiveHour at_) with
    | some w => .ok (QuotaWindow.interval w, false)
    | none => .ok (fiveHourInterval at_, true)
  | .weekly =>
    (weeklyWindowAt anchor at_).map fun r =>
      (r.1, !hasWindowStartingAt active .weekly r.1.start)
  | .monthly =>
    (monthlyWindowAt anchor at_).map fun r =>
      (r.1, !hasWindowStartingAt active .monthly r.1.start)

theorem Interval.contains_iff (iv : Interval) (t : Int) :
    iv.contains t = true ↔ iv.start ≤ t ∧ t < iv.stop := by
  simp [contains]

theorem day_pos : 0 < day := by decide

theorem midnight_dayOf (t : Int) : midnight (dayOf t) + t % day = t := by
  have := Int.mul_ediv_add_emod t day
  simp only [midnight, dayOf]
  rw [Int.add_sub_cancel, Int.mul_comm]
  exact this

theorem midnight_le_iff (d : Int) (t : Int) : midnight d ≤ t ↔ d ≤ dayOf t := by
  simp only [midnight, dayOf]
  rw [← Int.le_ediv_iff_mul_le day_pos]
  omega

theorem lt_midnight_iff (d : Int) (t : Int) : t < midnight d ↔ dayOf t < d := by
  have := midnight_le_iff d t
  omega

theorem monthIndex_bounds (t : Int) :
    midnight (monthStart (monthIndex t)) ≤ t ∧ t < midnight (monthStart (monthIndex t + 1)) := by
  obtain ⟨lo, hi⟩ := monthOf_bounds (dayOf t)
  exact ⟨(midnight_le_iff _ _).mpr lo, (lt_midnight_iff _ _).mpr hi⟩

theorem midnight_increasing : Increasing midnight := by
  intro a b lt
  simp only [midnight]
  exact Int.mul_lt_mul_of_pos_right (by omega) day_pos

theorem monthIndex_mono {s t : Int} (le : s ≤ t) : monthIndex s ≤ monthIndex t := by
  by_contra later
  have next : monthIndex t + 1 ≤ monthIndex s := by omega
  have := midnight_increasing.le (monthStart_increasing.le next)
  have := (monthIndex_bounds t).2
  have := (monthIndex_bounds s).1
  omega

theorem addMonthsClamped_bounds (k : Int) :
    midnight (monthStart (monthIndex anchor + k)) ≤ addMonthsClamped anchor k ∧
      addMonthsClamped anchor k < midnight (monthStart (monthIndex anchor + k + 1)) := by
  have lo := (monthOf_bounds (dayOf anchor)).1
  have month := monthStart_lt_succ (monthIndex anchor + k)
  have clock := Int.emod_nonneg anchor (Int.ne_of_gt day_pos)
  have midnight' := Int.emod_lt_of_pos anchor day_pos
  simp only [addMonthsClamped]
  generalize clamp : min (dayOf anchor - monthStart (monthIndex anchor))
    (daysIn (monthIndex anchor + k) - 1) = c
  have c_nonneg : 0 ≤ c := by
    simp only [daysIn, monthIndex] at clamp lo month ⊢
    omega
  have c_lt : monthStart (monthIndex anchor + k) + c + 1 ≤
      monthStart (monthIndex anchor + k + 1) := by
    simp only [daysIn] at clamp
    omega
  constructor
  · have := midnight_increasing.le
      (show monthStart (monthIndex anchor + k) ≤ monthStart (monthIndex anchor + k) + c by omega)
    omega
  · have := midnight_increasing.le c_lt
    have step : midnight (monthStart (monthIndex anchor + k) + c + 1) =
        midnight (monthStart (monthIndex anchor + k) + c) + day := by
      simp only [midnight]
      rw [show monthStart (monthIndex anchor + k) + c + 1 - 719528 =
        monthStart (monthIndex anchor + k) + c - 719528 + 1 by omega, Int.add_mul, Int.one_mul]
    omega

theorem addMonthsClamped_increasing : Increasing (addMonthsClamped anchor) := by
  apply Increasing.of_lt_succ
  intro k
  have lo := (addMonthsClamped_bounds anchor k).2
  have hi := (addMonthsClamped_bounds anchor (k + 1)).1
  rw [← Int.add_assoc] at hi
  omega

theorem addMonthsClamped_zero : addMonthsClamped anchor 0 = anchor := by
  obtain ⟨lo, hi⟩ := monthOf_bounds (dayOf anchor)
  have clamp : min (dayOf anchor - monthStart (monthIndex anchor))
      (daysIn (monthIndex anchor) - 1) = dayOf anchor - monthStart (monthIndex anchor) := by
    simp only [daysIn, monthIndex]
    omega
  simp only [addMonthsClamped, Int.add_zero, clamp]
  rw [show monthStart (monthIndex anchor) + (dayOf anchor - monthStart (monthIndex anchor)) =
    dayOf anchor by omega]
  exact midnight_dayOf anchor

theorem monthlyWindowAt_spec (anchor at_ : Int) (known : anchor ≤ at_) :
    ∃ k, 0 ≤ k ∧ addMonthsClamped anchor k ≤ at_ ∧ at_ < addMonthsClamped anchor (k + 1) ∧
      monthlyWindowAt anchor at_ =
        .ok (⟨addMonthsClamped anchor k, addMonthsClamped anchor (k + 1)⟩, k) := by
  obtain ⟨lo, hi⟩ := monthIndex_bounds at_
  have months := monthIndex_mono known
  let k0 := monthIndex at_ - monthIndex anchor
  have here : monthIndex anchor + k0 = monthIndex at_ := by omega
  by_cases early : at_ < addMonthsClamped anchor k0
  · have before := (addMonthsClamped_bounds anchor (k0 - 1)).2
    rw [show monthIndex anchor + (k0 - 1) + 1 = monthIndex at_ by omega] at before
    have positive : 0 ≤ k0 - 1 := by
      by_contra negative
      have zero : k0 = 0 := by omega
      rw [zero, addMonthsClamped_zero] at early
      omega
    refine ⟨k0 - 1, positive, by omega, by rwa [Int.sub_add_cancel], ?_⟩
    simp [monthlyWindowAt, monthlyInterval, Int.not_lt.mpr known, show monthIndex at_ -
      monthIndex anchor = k0 from rfl, early, Int.not_lt.mpr positive, Except.map]
  · have after := (addMonthsClamped_bounds anchor (k0 + 1)).1
    rw [← Int.add_assoc, here] at after
    have positive : 0 ≤ k0 := by omega
    refine ⟨k0, positive, by omega, by omega, ?_⟩
    simp [monthlyWindowAt, monthlyInterval, Int.not_lt.mpr known, show monthIndex at_ -
      monthIndex anchor = k0 from rfl, early, Int.not_lt.mpr positive, Except.map]

def lastWeek : Int := 15250

theorem weeklyInterval_eq {n : Int} (lo : 0 ≤ n) (hi : n ≤ lastWeek) :
    weeklyInterval anchor n = .ok ⟨anchor + n * weeklyDuration,
      anchor + n * weeklyDuration + weeklyDuration⟩ := by
  have exact_ : weeks n / 1000 = n * weeklyDuration := by
    simp only [weeks, lastWeek, weeklyDuration, day, hour] at hi ⊢
    omega
  simp [weeklyInterval, Int.not_lt.mpr lo, exact_]

theorem weeklyWindowAt_spec (anchor at_ : Int) (known : anchor ≤ at_)
    (near : at_ < anchor + (lastWeek + 1) * weeklyDuration) :
    ∃ n, 0 ≤ n ∧ n ≤ lastWeek ∧ anchor + n * weeklyDuration ≤ at_ ∧
      at_ < anchor + n * weeklyDuration + weeklyDuration ∧
      weeklyWindowAt anchor at_ = .ok (⟨anchor + n * weeklyDuration,
        anchor + n * weeklyDuration + weeklyDuration⟩, n) := by
  have index : sub at_ anchor / (weeklyDuration * 1000) = (at_ - anchor) / weeklyDuration := by
    simp only [sub, lastWeek, weeklyDuration, day, hour] at near ⊢
    omega
  have bounds : 0 ≤ (at_ - anchor) / weeklyDuration ∧
      (at_ - anchor) / weeklyDuration ≤ lastWeek ∧
      anchor + (at_ - anchor) / weeklyDuration * weeklyDuration ≤ at_ ∧
      at_ < anchor + (at_ - anchor) / weeklyDuration * weeklyDuration + weeklyDuration := by
    simp only [lastWeek, weeklyDuration, day, hour] at near ⊢
    omega
  obtain ⟨lo, hi, start, stop⟩ := bounds
  refine ⟨_, lo, hi, start, stop, ?_⟩
  rw [weeklyWindowAt, if_neg (Int.not_lt.mpr known)]
  simp only [index, weeklyInterval_eq anchor lo hi, Except.map]

end YunhouUsers.Inference.Quota
