import AcmeClient.Time.Calendar

/-!
# Points in time

A `DateTime` is the reading of a local clock in the years 1 to 9999, in microseconds, with the
offset of that clock from UTC if it is known.

* `DateTime.ofFields?`: from calendar fields;
* `DateTime.instant`: the point in time it stands for, as microseconds on the UTC clock;
* `DateTime.toUtc?`: the same instant on the UTC clock, if it lies in the years 1 to 9999;
* `DateTime.addMicroseconds?`: moved by a span.
-/

namespace AcmeClient

/-- The reading of a local clock. -/
structure DateTime where
  /-- Microseconds since the start of year 1. -/
  ticks : Nat
  /-- Microseconds by which the clock is ahead of UTC; `none` if that is not known. -/
  offset : Option Int
deriving DecidableEq, Inhabited

namespace DateTime

/-- Microseconds of a day. -/
def dayTicks : Nat :=
  86400000000

/-- The number of readings. -/
def tickCount : Nat :=
  Calendar.dayCount * dayTicks

/-- The time of day. -/
structure Clock where
  hour : Nat
  minute : Nat
  second : Nat
  microsecond : Nat
deriving DecidableEq, Inhabited

/-- A time of day without leap seconds. -/
def Clock.Valid (c : Clock) : Prop :=
  c.hour < 24 ∧ c.minute < 60 ∧ c.second < 60 ∧ c.microsecond < 1000000

instance (c : Clock) : Decidable c.Valid := by
  unfold Clock.Valid
  infer_instance

/-- Microseconds since midnight. -/
def Clock.ticks (c : Clock) : Nat :=
  ((c.hour * 60 + c.minute) * 60 + c.second) * 1000000 + c.microsecond

/-- The reading with these fields, if date and time of day exist; the offset is in seconds. -/
def ofFields? (d : Calendar.Date) (c : Clock) (offset : Option Int) : Option DateTime :=
  if d.Valid ∧ c.Valid then
    some ⟨Calendar.dayNumber d * dayTicks + c.ticks, offset.map (· * 1000000)⟩
  else none

/-- The date shown. -/
def date (t : DateTime) : Calendar.Date :=
  Calendar.ofDayNumber (t.ticks / dayTicks)

/-- The time of day shown. -/
def clock (t : DateTime) : Clock :=
  let n := t.ticks % dayTicks
  ⟨n / 3600000000, n / 60000000 % 60, n / 1000000 % 60, n % 1000000⟩

/-- The reading of a clock at a number of microseconds, if there is one. -/
def ofTicks? (n : Int) (offset : Option Int) : Option DateTime :=
  if 0 ≤ n ∧ n < tickCount then some ⟨n.toNat, offset⟩ else none

/-- The instant in microseconds of the UTC clock; a clock without known offset is taken for UTC. -/
def instant (t : DateTime) : Int :=
  (t.ticks : Int) - t.offset.getD 0

/-- The same instant on the UTC clock. -/
def toUtc? (t : DateTime) : Option DateTime :=
  ofTicks? t.instant (some 0)

/-- The reading of the same clock after a span. -/
def addMicroseconds? (t : DateTime) (n : Int) : Option DateTime :=
  ofTicks? ((t.ticks : Int) + n) t.offset

/-- The UTC reading at a number of seconds since the start of 1970. -/
def ofEpoch? (seconds : Int) : Option DateTime :=
  ofTicks? ((seconds + 62135596800) * 1000000) (some 0)

end DateTime

end AcmeClient
