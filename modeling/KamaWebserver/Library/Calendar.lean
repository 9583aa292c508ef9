import Mathlib.Data.Nat.Find
import Mathlib.Tactic.IntervalCases

set_option autoImplicit false

/- The Gregorian calendar, extended to all years. A day is the number of days since
1 January of year 1. -/
namespace Calendar

def isLeap (year : Int) : Bool :=
  year % 4 = 0 && (year % 100 ≠ 0 || year % 400 = 0)

/-- The first day of a year. -/
def daysBeforeYear (year : Int) : Int :=
  365 * (year - 1) + (year - 1) / 4 - (year - 1) / 100 + (year - 1) / 400

/-- The year a day is in. The average length of a year misses it by one at most. -/
def yearOf (day : Int) : Int :=
  let guess := 400 * day / 146097 + 1
  if day < daysBeforeYear guess then guess - 1
  else if daysBeforeYear (guess + 1) ≤ day then guess + 1
  else guess

/-- The days of a year before its month, January being month 0. -/
def daysBeforeMonth (leap : Bool) (month : Nat) : Int :=
  [0, 31, 59, 90, 120, 151, 181, 212, 243, 273, 304, 334].getD month 365 +
    if leap ∧ 2 ≤ month then 1 else 0

/-- The last month that has begun. -/
def monthOf (leap : Bool) (dayOfYear : Int) : Nat :=
  Nat.findGreatest (fun month => daysBeforeMonth leap month ≤ dayOfYear) 11

/-- Months are counted from 0, days of a month from 1. -/
@[ext]
structure Date where
  year : Int
  month : Nat
  day : Int
  deriving DecidableEq, Repr

def dateOf (day : Int) : Date :=
  let year := yearOf day
  let dayOfYear := day - daysBeforeYear year
  let month := monthOf (isLeap year) dayOfYear
  ⟨year, month, dayOfYear - daysBeforeMonth (isLeap year) month + 1⟩

/-- The order of dates by year, month and day. -/
def Date.Before (first second : Date) : Prop :=
  first.year < second.year ∨ first.year = second.year ∧
    (first.month < second.month ∨ first.month = second.month ∧ first.day < second.day)

example : dateOf 719162 = ⟨1970, 0, 1⟩ := by decide

example : dateOf 738944 = ⟨2024, 1, 29⟩ := by decide

theorem daysBeforeYear_succ (year : Int) :
    daysBeforeYear (year + 1) = daysBeforeYear year + if isLeap year then 366 else 365 := by
  simp only [isLeap, Bool.and_eq_true, Bool.or_eq_true, decide_eq_true_eq, daysBeforeYear]
  split <;> omega

theorem daysBeforeYear_mono {first second : Int} (ordered : first ≤ second) :
    daysBeforeYear first ≤ daysBeforeYear second := by
  unfold daysBeforeYear
  omega

theorem yearOf_spec (day : Int) :
    daysBeforeYear (yearOf day) ≤ day ∧ day < daysBeforeYear (yearOf day + 1) := by
  unfold yearOf daysBeforeYear
  simp only
  split
  · omega
  · split <;> omega

/-- The month has at most 31 days. -/
theorem daysBeforeMonth_succ (leap : Bool) {month : Nat} (within : month < 12) :
    daysBeforeMonth leap month ≤ daysBeforeMonth leap (month + 1) ∧
      daysBeforeMonth leap (month + 1) ≤ daysBeforeMonth leap month + 31 := by
  revert leap
  interval_cases month <;> decide

theorem daysBeforeMonth_mono (leap : Bool) {first second : Nat} (ordered : first ≤ second)
    (within : second < 12) : daysBeforeMonth leap first ≤ daysBeforeMonth leap second := by
  induction ordered with
  | refl => exact Int.le_refl _
  | step _ ih =>
      have next := (daysBeforeMonth_succ leap (Nat.lt_of_succ_lt within)).1
      exact Int.le_trans (ih (Nat.lt_of_succ_lt within)) next

theorem daysBeforeMonth_year (leap : Bool) :
    daysBeforeMonth leap 12 = if leap then 366 else 365 := by
  cases leap <;> rfl

theorem monthOf_lt (leap : Bool) (dayOfYear : Int) : monthOf leap dayOfYear < 12 :=
  Nat.lt_succ_of_le (Nat.findGreatest_le 11)

/-- A day of the year is in its month. -/
theorem monthOf_spec {leap : Bool} {dayOfYear : Int} (nonneg : 0 ≤ dayOfYear)
    (inside : dayOfYear < daysBeforeMonth leap 12) :
    daysBeforeMonth leap (monthOf leap dayOfYear) ≤ dayOfYear ∧
      dayOfYear < daysBeforeMonth leap (monthOf leap dayOfYear + 1) := by
  have january : daysBeforeMonth leap 0 ≤ dayOfYear := by
    cases leap <;> exact nonneg
  refine ⟨Nat.findGreatest_spec (P := fun month => daysBeforeMonth leap month ≤ dayOfYear)
    (Nat.zero_le 11) january, ?_⟩
  by_cases last : monthOf leap dayOfYear = 11
  · rw [last]
    exact inside
  · have earlier := monthOf_lt leap dayOfYear
    have ended := Nat.findGreatest_is_greatest (n := 11) (k := monthOf leap dayOfYear + 1)
      (Nat.lt_succ_self (monthOf leap dayOfYear)) (by omega)
    omega

theorem Date.Before.asymm {first second : Date} (before : first.Before second) :
    ¬second.Before first := by
  unfold Before at *
  omega

/-- What the date says about the day. -/
theorem dateOf_spec (day : Int) :
    let date := dateOf day
    daysBeforeYear date.year ≤ day ∧ day < daysBeforeYear (date.year + 1) ∧ date.month < 12 ∧
      daysBeforeMonth (isLeap date.year) date.month ≤ day - daysBeforeYear date.year ∧
      day - daysBeforeYear date.year < daysBeforeMonth (isLeap date.year) (date.month + 1) ∧
      date.day = day - daysBeforeYear date.year -
        daysBeforeMonth (isLeap date.year) date.month + 1 := by
  obtain ⟨begun, unfinished⟩ := yearOf_spec day
  have inside : day - daysBeforeYear (yearOf day) <
      daysBeforeMonth (isLeap (yearOf day)) 12 := by
    rw [daysBeforeMonth_year]
    rw [daysBeforeYear_succ] at unfinished
    omega
  obtain ⟨first, last⟩ := monthOf_spec (by omega) inside
  exact ⟨begun, unfinished, monthOf_lt _ _, first, last, rfl⟩

theorem dateOf_day (day : Int) : 1 ≤ (dateOf day).day ∧ (dateOf day).day ≤ 31 := by
  obtain ⟨-, -, within, begun, unfinished, counted⟩ := dateOf_spec day
  have short := (daysBeforeMonth_succ (isLeap (dateOf day).year) within).2
  omega

theorem dateOf_before_of_lt {first second : Int} (earlier : first < second) :
    (dateOf first).Before (dateOf second) := by
  obtain ⟨begun, -, within, started, -, counted⟩ := dateOf_spec first
  obtain ⟨-, unfinished, -, -, ending, number⟩ := dateOf_spec second
  have years : (dateOf first).year ≤ (dateOf second).year := by
    by_contra later
    have := daysBeforeYear_mono (Int.add_one_le_of_lt (Int.not_le.mp later))
    omega
  rcases Int.lt_or_eq_of_le years with year | year
  · exact .inl year
  · rw [year] at started counted
    have months : (dateOf first).month ≤ (dateOf second).month := by
      by_contra later
      have next : (dateOf second).month + 1 ≤ (dateOf first).month := Nat.not_le.mp later
      have := daysBeforeMonth_mono (isLeap (dateOf second).year) next within
      omega
    rcases Nat.lt_or_eq_of_le months with month | month
    · exact .inr ⟨year, .inl month⟩
    · rw [month] at counted
      exact .inr ⟨year, .inr ⟨month, by omega⟩⟩

/-- Dates are in the order of their days. -/
theorem dateOf_before_iff (first second : Int) :
    (dateOf first).Before (dateOf second) ↔ first < second := by
  refine ⟨fun before => ?_, dateOf_before_of_lt⟩
  by_contra later
  rcases Int.lt_or_eq_of_le (Int.not_lt.mp later) with earlier | same
  · exact (dateOf_before_of_lt earlier).asymm before
  · rw [same] at before
    exact before.asymm before

theorem dateOf_inj (first second : Int) : dateOf first = dateOf second ↔ first = second := by
  refine ⟨fun same => ?_, fun same => by rw [same]⟩
  have irrefl (date : Date) : ¬date.Before date := fun before => before.asymm before
  have notBefore : ¬first < second := by
    rw [← dateOf_before_iff, same]
    exact irrefl _
  have notAfter : ¬second < first := by
    rw [← dateOf_before_iff, same]
    exact irrefl _
  omega

end Calendar
