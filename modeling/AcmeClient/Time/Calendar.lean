/-!
# The Gregorian calendar

The calendar is extended back to the first of January of year 1, which is day 0 and a Monday.

* `Calendar.Date`: year, month and day of the month;
* `Calendar.dayNumber`: the number of a date;
* `Calendar.ofDayNumber`: the date of a number;
* `Calendar.Date.Valid`: the date exists and its year is between 1 and 9999.
-/

namespace AcmeClient

namespace Calendar

/-- A day named by year, month and day of the month. -/
structure Date where
  year : Nat
  month : Nat
  day : Nat
deriving DecidableEq, Inhabited

/-- Years with 366 days. -/
def isLeap (y : Nat) : Bool :=
  y % 4 == 0 && (y % 100 != 0 || y % 400 == 0)

/-- The number of days of a month. -/
def daysInMonth (y m : Nat) : Nat :=
  if m = 2 then (if isLeap y then 29 else 28)
  else if m = 4 ∨ m = 6 ∨ m = 9 ∨ m = 11 then 30
  else 31

/-- The number of days before the first of January of year `y`. -/
def daysBeforeYear (y : Nat) : Nat :=
  let z := y - 1
  z * 365 + z / 4 - z / 100 + z / 400

/-- The number of days of year `y` before the first of month `m`. -/
def daysBeforeMonth (y : Nat) : Nat → Nat
  | 0 => 0
  | 1 => 0
  | m + 2 => daysBeforeMonth y (m + 1) + daysInMonth y (m + 1)

/-- The date exists and its year is between 1 and 9999. -/
def Date.Valid (d : Date) : Prop :=
  1 ≤ d.year ∧ d.year ≤ 9999 ∧ 1 ≤ d.month ∧ d.month ≤ 12 ∧ 1 ≤ d.day
    ∧ d.day ≤ daysInMonth d.year d.month

instance (d : Date) : Decidable d.Valid := by
  unfold Date.Valid
  infer_instance

/-- The number of days from the first day of year 1. -/
def dayNumber (d : Date) : Nat :=
  daysBeforeYear d.year + daysBeforeMonth d.year d.month + (d.day - 1)

/-- The number of days of the years 1 to 9999. -/
def dayCount : Nat :=
  3652059

/-- The month and day that lie `n` days after the first of month `m`; at most `k` months on. -/
def monthAndDay (y n m : Nat) : Nat → Nat × Nat
  | 0 => (m, n + 1)
  | k + 1 =>
    let l := daysInMonth y m
    if n < l then (m, n + 1) else monthAndDay y (n - l) (m + 1) k

/-- The date with a given number of days before it. Cycles of 400, 100, 4 and 1 years are taken off
in turn; the last day of a long cycle would fall into a further short one. -/
def ofDayNumber (n : Nat) : Date :=
  let c400 := n / 146097
  let n := n % 146097
  let c100 := min (n / 36524) 3
  let n := n - c100 * 36524
  let c4 := n / 1461
  let n := n % 1461
  let c1 := min (n / 365) 3
  let n := n - c1 * 365
  let y := c400 * 400 + c100 * 100 + c4 * 4 + c1 + 1
  let (m, d) := monthAndDay y n 1 11
  ⟨y, m, d⟩

/-- The day of the week, zero for Monday. -/
def weekday (n : Nat) : Nat :=
  n % 7

/-- The number of the Monday in week 1 of a year of weeks, the week with the first Thursday. -/
def firstWeek (y : Nat) : Int :=
  let jan1 := dayNumber ⟨y, 1, 1⟩
  let w := weekday jan1
  let monday : Int := (jan1 : Int) - w
  if w > 3 then monday + 7 else monday

/-- The number of weeks of a year of weeks. -/
def weeksInYear (y : Nat) : Nat :=
  let w := weekday (dayNumber ⟨y, 1, 1⟩)
  if w = 3 ∨ (w = 2 ∧ isLeap y) then 53 else 52

end Calendar

end AcmeClient
